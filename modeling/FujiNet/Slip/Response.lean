import FujiNet.Slip.Request

/-!
# SmartPort responses

A device answers a request through `encode_packet`, which asks the request for
the response object of its kind (`create_response`) and sends its bytes. The
other side hands these bytes to the `deserialize` of the request it had sent.

Every kind checks the length of what it is given before it looks at it, each
with its own bound. The bound of Read is one byte longer than the shortest
response that `create_response` makes, so an error reply to a Read, and a
successful one without data, are rejected.
-/

namespace FujiNet.SmartPort

/-- What every response carries. -/
structure ResponseHeader where
  requestSequenceNumber : UInt8
  status : UInt8
deriving DecidableEq, Repr

/-- The subclasses of `Response`. Most of them are a header and nothing else. -/
inductive Response
  | status (header : ResponseHeader) (data : List UInt8)
  | control (header : ResponseHeader)
  | readBlock (header : ResponseHeader) (blockData : Vector UInt8 512)
  | writeBlock (header : ResponseHeader)
  | format (header : ResponseHeader)
  | init (header : ResponseHeader)
  | open_ (header : ResponseHeader)
  | close (header : ResponseHeader)
  | read (header : ResponseHeader) (data : List UInt8)
  | write (header : ResponseHeader)
  | reset (header : ResponseHeader)
deriving DecidableEq

namespace Response

def header : Response → ResponseHeader
  | status header _ | control header | readBlock header _ | writeBlock header | format header
  | init header | open_ header | close header | read header _ | write header | reset header =>
    header

/-- `get_data` and `get_block_data`; the other kinds carry no data. -/
def data : Response → List UInt8
  | status _ data | read _ data => data
  | readBlock _ blockData => blockData.toList
  | _ => []

/-- `serialize` of each subclass: two bytes of header and the data. -/
def serialize (response : Response) : List UInt8 :=
  [response.header.requestSequenceNumber, response.header.status] ++ response.data

end Response

/-- `ReadBlockResponse::set_block_data` on a new response, whose block is zero.
The copy does not look at the size of the block. -/
def setBlockData (bytes : List UInt8) : Except Failure (Vector UInt8 512) :=
  if h : bytes.length ≤ 512 then
    .ok ⟨(bytes ++ List.replicate (512 - bytes.length) 0).toArray, by simp; omega⟩
  else .error .outOfRange

/-- The head of each `deserialize`: the length check and the two header bytes. -/
def deserializeHeader (response : String) (tooShort : Bool) (data : List UInt8) :
    Except Failure ResponseHeader :=
  if tooShort then .error (.runtimeError ("Not enough data to deserialize " ++ response))
  else do return ⟨← byteAt data 0, ← byteAt data 1⟩

namespace Request

/-- `create_response`. The `num` bytes at `data` are the list; `source` is not
used by any kind. -/
def createResponse (r : Request) (_source status : UInt8) (data : List UInt8) :
    Except Failure Response :=
  let header : ResponseHeader := ⟨r.header.requestSequenceNumber, status⟩
  match r with
  | .status .. => .ok (.status header (if status = 0 then data else []))
  | .control .. => .ok (.control header)
  | .readBlock .. =>
    if status = 0 then .readBlock header <$> setBlockData data
    else .ok (.readBlock header (Vector.replicate 512 0))
  | .writeBlock .. => .ok (.writeBlock header)
  | .format .. => .ok (.format header)
  | .init .. => .ok (.init header)
  | .open_ .. => .ok (.open_ header)
  | .close .. => .ok (.close header)
  | .read .. => .ok (.read header (if status = 0 then data else []))
  | .write .. => .ok (.write header)
  | .reset .. => .ok (.reset header)

/-- `deserialize`. -/
def deserialize (r : Request) (data : List UInt8) : Except Failure Response :=
  match r with
  | .status .. => do
    let header ← deserializeHeader "StatusResponse" (data.length < 2) data
    return .status header (if header.status = 0 ∧ data.length > 2 then data.drop 2 else [])
  | .control .. => .control <$> deserializeHeader "ControlResponse" (data.length < 2) data
  | .readBlock .. => do
    let header ← deserializeHeader "ReadBlockResponse" (data.length ≠ 514) data
    if header.status = 0 then .readBlock header <$> setBlockData (data.drop 2)
    else return .readBlock header (Vector.replicate 512 0)
  | .writeBlock .. => .writeBlock <$> deserializeHeader "WriteBlockResponse" (data.length < 2) data
  | .format .. => .format <$> deserializeHeader "FormatResponse" (data.length < 2) data
  | .init .. => .init <$> deserializeHeader "InitResponse" (data.length < 2) data
  | .open_ .. => .open_ <$> deserializeHeader "OpenResponse" (data.length < 2) data
  | .close .. => .close <$> deserializeHeader "CloseResponse" (data.length < 2) data
  | .read .. => do
    let header ← deserializeHeader "ReadResponse" (data.length < 3) data
    return .read header (if header.status = 0 then data.drop 2 else [])
  | .write .. => .write <$> deserializeHeader "WriteResponse" (data.length < 2) data
  | .reset .. => .reset <$> deserializeHeader "ResetResponse" (data.length < 2) data

end Request

/-! ## Reading back the response -/

theorem deserializeHeader_of_enough (response : String) {tooShort : Bool}
    (enough : tooShort = false) (sequence status : UInt8) (rest : List UInt8) :
    deserializeHeader response tooShort (sequence :: status :: rest) =
      .ok ⟨sequence, status⟩ := by
  simp [deserializeHeader, enough, pure, Except.pure]

/-- A block of the right length is kept as it is. -/
theorem setBlockData_toList (block : Vector UInt8 512) :
    setBlockData block.toList = .ok block := by
  have fits : block.toList.length ≤ 512 := by simp
  rw [setBlockData, dif_pos fits]
  congr 1
  apply Vector.toList_inj.mp
  simp [Vector.toList]

theorem exists_setBlockData {bytes : List UInt8} (whole : bytes.length = 512) :
    ∃ block : Vector UInt8 512, block.toList = bytes ∧ setBlockData bytes = .ok block := by
  refine ⟨⟨bytes.toArray, by simpa using whole⟩, by simp [Vector.toList], ?_⟩
  simpa [Vector.toList] using setBlockData_toList ⟨bytes.toArray, by simpa using whole⟩

namespace Request

/-- The kinds whose answer carries data. -/
def returnsData : Request → Bool
  | status .. | read .. | readBlock .. => true
  | _ => false

/-- The response to `r` arrives with its sequence number and status, and a
successful answer of a kind that returns data arrives with its data. -/
def AnswersExactly (r : Request) (source status : UInt8) (data : List UInt8) : Prop :=
  ∃ response answer, r.createResponse source status data = .ok response ∧
    r.deserialize response.serialize = .ok answer ∧
    answer.header = ⟨r.header.requestSequenceNumber, status⟩ ∧
    (r.returnsData → status = 0 → answer.data = data)

variable {source status : UInt8} {data : List UInt8}

/-- It is enough that the response object itself comes back. -/
theorem AnswersExactly.of_received {r : Request} {response : Response}
    (created : r.createResponse source status data = .ok response)
    (received : r.deserialize response.serialize = .ok response)
    (header : response.header = ⟨r.header.requestSequenceNumber, status⟩)
    (kept : r.returnsData → status = 0 → response.data = data) :
    r.AnswersExactly source status data :=
  ⟨response, response, created, received, header, kept⟩

theorem deserialize_status (header : RequestHeader) (statusCode sequence status : UInt8)
    (rest : List UInt8) :
    (Request.status header statusCode).deserialize (sequence :: status :: rest) =
      .ok (.status ⟨sequence, status⟩ (if status = 0 then rest else [])) := by
  rw [deserialize, deserializeHeader_of_enough _ (by simp)]
  cases rest <;> simp [pure, Except.pure]

theorem deserialize_readBlock (header : RequestHeader) (blockNumber : Vector UInt8 3)
    (sequence status : UInt8) (block : Vector UInt8 512) :
    (Request.readBlock header blockNumber).deserialize (sequence :: status :: block.toList) =
      .ok (.readBlock ⟨sequence, status⟩
        (if status = 0 then block else Vector.replicate 512 0)) := by
  rw [deserialize, deserializeHeader_of_enough _ (by simp), ok_bind]
  split
  · simp [setBlockData_toList]
  · rfl

theorem deserialize_read (header : RequestHeader) (byteCount : Vector UInt8 2)
    (address : Vector UInt8 3) (sequence status byte : UInt8) (rest : List UInt8) :
    (Request.read header byteCount address).deserialize (sequence :: status :: byte :: rest) =
      .ok (.read ⟨sequence, status⟩ (if status = 0 then byte :: rest else [])) := by
  rw [deserialize, deserializeHeader_of_enough _ (by simp), ok_bind]
  rfl

theorem answersExactly_status (header : RequestHeader) (statusCode : UInt8) :
    (Request.status header statusCode).AnswersExactly source status data := by
  apply AnswersExactly.of_received rfl
  · refine (deserialize_status header statusCode _ status _).trans ?_
    split <;> rfl
  · rfl
  · intro _ success
    simp [Response.data, success]

/-- The answer to a ReadBlock always has the size of a block. -/
theorem answersExactly_readBlock (header : RequestHeader) (blockNumber : Vector UInt8 3)
    (whole : status = 0 → data.length = 512) :
    (Request.readBlock header blockNumber).AnswersExactly source status data := by
  by_cases success : status = 0
  · subst success
    obtain ⟨block, rfl, kept⟩ := exists_setBlockData (whole rfl)
    have created : (Request.readBlock header blockNumber).createResponse source 0 block.toList =
        .ok (.readBlock ⟨header.requestSequenceNumber, 0⟩ block) := by
      simp [createResponse, kept, Request.header]
    apply AnswersExactly.of_received created
    · exact deserialize_readBlock header blockNumber _ 0 block
    · rfl
    · intro _ _
      rfl
  · apply AnswersExactly.of_received
    · exact if_neg success
    · refine (deserialize_readBlock header blockNumber _ status _).trans ?_
      rw [if_neg success]
      rfl
    · rfl
    · intro _ ok
      exact absurd ok success

/-- The length check of a Read rejects every answer of two bytes. -/
theorem answersExactly_read_iff (header : RequestHeader) (byteCount : Vector UInt8 2)
    (address : Vector UInt8 3) :
    (Request.read header byteCount address).AnswersExactly source status data ↔
      status = 0 ∧ data ≠ [] := by
  constructor
  · rintro ⟨response, answer, created, received, -, -⟩
    simp only [createResponse, Except.ok.injEq] at created
    subst created
    by_contra rejected
    have short : (if status = 0 then data else []) = [] := by
      by_cases success : status = 0
      · simpa [success] using rejected
      · simp [success]
    simp [deserialize, Response.serialize, Response.data, short, deserializeHeader] at received
  · rintro ⟨rfl, nonempty⟩
    obtain ⟨byte, rest, rfl⟩ := List.exists_cons_of_ne_nil nonempty
    apply AnswersExactly.of_received rfl
    · exact deserialize_read header byteCount address _ 0 byte rest
    · rfl
    · intro _ _
      rfl

/-- Every answer a device can give is received exactly, unless the request was a
Read and the answer is an error or has no data. -/
theorem answersExactly_iff (r : Request) (source status : UInt8) {data : List UInt8}
    (_fits : data.length ≤ 512)
    (whole : r.commandNumber = SP_READ_BLOCK → status = 0 → data.length = 512) :
    r.AnswersExactly source status data ↔
      (r.commandNumber = SP_READ → status = 0 ∧ data ≠ []) := by
  cases r with
  | read header byteCount address => simp [answersExactly_read_iff, commandNumber]
  | readBlock header blockNumber =>
      simp [answersExactly_readBlock header blockNumber (whole rfl), commandNumber, SP_READ,
        SP_READ_BLOCK]
  | status header statusCode =>
      simp [answersExactly_status, commandNumber, SP_READ, SP_STATUS]
  | _ =>
      simp [AnswersExactly, createResponse, deserialize, returnsData, Response.serialize,
        Response.header, Response.data, deserializeHeader, commandNumber, SP_READ, SP_CONTROL,
        SP_WRITE_BLOCK, SP_FORMAT, SP_INIT, SP_OPEN, SP_CLOSE, SP_WRITE, SP_RESET]

/-- A Read that returns one byte is received. -/
theorem answersExactly_iff_of_one_byte :
    (Request.read ⟨7, 1⟩ #v[1, 0] #v[0, 0, 0]).AnswersExactly 1 0 [0x41] :=
  (answersExactly_iff _ 1 0 (by decide) (fun block => absurd block (by decide))).mpr
    (fun _ => ⟨rfl, by decide⟩)

/-- An error reply to a Read, here status 0x27, is thrown away with the text of
the length check. -/
theorem read_error_reply_rejected :
    (Request.read ⟨7, 1⟩ #v[1, 0] #v[0, 0, 0]).createResponse 1 0x27 [] =
        .ok (.read ⟨7, 0x27⟩ []) ∧
      (Request.read ⟨7, 1⟩ #v[1, 0] #v[0, 0, 0]).deserialize
          (Response.read ⟨7, 0x27⟩ []).serialize =
        .error (.runtimeError "Not enough data to deserialize ReadResponse") ∧
      ¬ (Request.read ⟨7, 1⟩ #v[1, 0] #v[0, 0, 0]).AnswersExactly 1 0x27 [] := by
  refine ⟨rfl, rfl, ?_⟩
  rw [answersExactly_read_iff]
  decide

end Request

end FujiNet.SmartPort
