import Mathlib.Data.List.Basic

/-!
# SmartPort requests

A request travels as one packet: a header of three bytes (sequence number,
command, unit) and what the command carries after it. The request classes write
the packets; `Request::from_packet` reads them back by fixed offsets.

`from_packet` indexes the packet without checking its length. The model answers
`outOfRange` where such an access leaves the packet, which also stands for the
vector of the Control case that would begin after its own end.
-/

namespace FujiNet.SmartPort

def SP_STATUS : UInt8 := 0
def SP_READ_BLOCK : UInt8 := 1
def SP_WRITE_BLOCK : UInt8 := 2
def SP_FORMAT : UInt8 := 3
def SP_CONTROL : UInt8 := 4
def SP_INIT : UInt8 := 5
def SP_OPEN : UInt8 := 6
def SP_CLOSE : UInt8 := 7
def SP_READ : UInt8 := 8
def SP_WRITE : UInt8 := 9
def SP_RESET : UInt8 := 10

/-- How reading a packet ends without an object: with the `std::runtime_error`
of the source and its text, or outside the packet. -/
inductive Failure
  | runtimeError (what : String)
  | outOfRange
deriving DecidableEq, Repr

/-! ## Reading by offset -/

/-- `packet[i]`. -/
def byteAt (packet : List UInt8) (i : Nat) : Except Failure UInt8 :=
  match packet[i]? with
  | some b => .ok b
  | none => .error .outOfRange

/-- `std::copy_n(ptr + offset, n, …)` into a `std::array` of `n` bytes. -/
def arrayAt (n : Nat) (packet : List UInt8) (offset : Nat) : Except Failure (Vector UInt8 n) :=
  if h : offset + n ≤ packet.length then
    .ok ⟨((packet.drop offset).take n).toArray, by simp; omega⟩
  else .error .outOfRange

/-- The vector from `packet.begin() + offset` to `packet.end()`. -/
def bytesFrom (packet : List UInt8) (offset : Nat) : Except Failure (List UInt8) :=
  if offset ≤ packet.length then .ok (packet.drop offset) else .error .outOfRange

@[simp] theorem ok_bind {α β : Type} (a : α) (next : α → Except Failure β) :
    (Except.ok a >>= next) = next a := rfl

@[simp] theorem error_bind {α β : Type} (failure : Failure) (next : α → Except Failure β) :
    (Except.error failure >>= next) = .error failure := rfl

@[simp] theorem byteAt_zero_cons (b : UInt8) (rest : List UInt8) :
    byteAt (b :: rest) 0 = .ok b := rfl

@[simp] theorem byteAt_succ_cons (b : UInt8) (rest : List UInt8) (i : Nat) :
    byteAt (b :: rest) (i + 1) = byteAt rest i := by
  simp [byteAt]

@[simp] theorem arrayAt_succ_cons (n : Nat) (b : UInt8) (rest : List UInt8) (offset : Nat) :
    arrayAt n (b :: rest) (offset + 1) = arrayAt n rest offset := by
  simp [arrayAt, Nat.add_right_comm offset 1 n]

@[simp] theorem bytesFrom_succ_cons (b : UInt8) (rest : List UInt8) (offset : Nat) :
    bytesFrom (b :: rest) (offset + 1) = bytesFrom rest offset := by
  simp [bytesFrom]

@[simp] theorem bytesFrom_zero (packet : List UInt8) : bytesFrom packet 0 = .ok packet := by
  simp [bytesFrom]

/-- An array that was written in front of other bytes is read back. -/
@[simp] theorem arrayAt_zero_append {n : Nat} (array : Vector UInt8 n) (rest : List UInt8) :
    arrayAt n (array.toList ++ rest) 0 = .ok array := by
  have fits : 0 + n ≤ (array.toList ++ rest).length := by simp
  rw [arrayAt, dif_pos fits]
  congr 1
  apply Vector.toList_inj.mp
  simp [Vector.toList]

@[simp] theorem arrayAt_zero_toList {n : Nat} (array : Vector UInt8 n) :
    arrayAt n array.toList 0 = .ok array := by
  simpa using arrayAt_zero_append array []

/-- What was written behind an array is found behind it. -/
theorem arrayAt_append {n m : Nat} (array : Vector UInt8 m) (rest : List UInt8) :
    arrayAt n (array.toList ++ rest) m = arrayAt n rest 0 := by
  simp [arrayAt]

theorem bytesFrom_append {m : Nat} (array : Vector UInt8 m) (rest : List UInt8) (offset : Nat) :
    bytesFrom (array.toList ++ rest) (m + offset) = bytesFrom rest offset := by
  have dropped : (array.toList ++ rest).drop (m + offset) = rest.drop offset := by
    rw [List.drop_append]
    simp
  simp [bytesFrom, dropped]

/-! ## The requests -/

/-- What every request carries. -/
structure RequestHeader where
  requestSequenceNumber : UInt8
  spUnit : UInt8
deriving DecidableEq, Repr

/-- The subclasses of `Request`, each with its own fields. -/
inductive Request
  | status (header : RequestHeader) (statusCode : UInt8)
  | control (header : RequestHeader) (controlCode : UInt8) (data : List UInt8)
  | readBlock (header : RequestHeader) (blockNumber : Vector UInt8 3)
  | writeBlock (header : RequestHeader) (blockNumber : Vector UInt8 3)
      (blockData : Vector UInt8 512)
  | format (header : RequestHeader)
  | init (header : RequestHeader)
  | open_ (header : RequestHeader)
  | close (header : RequestHeader)
  | read (header : RequestHeader) (byteCount : Vector UInt8 2) (address : Vector UInt8 3)
  | write (header : RequestHeader) (byteCount : Vector UInt8 2) (address : Vector UInt8 3)
      (data : List UInt8)
  | reset (header : RequestHeader)
deriving DecidableEq

namespace Request

def header : Request → RequestHeader
  | status header _ | control header _ _ | readBlock header _ | writeBlock header _ _
  | format header | init header | open_ header | close header | read header _ _
  | write header _ _ _ | reset header => header

/-- `Request::get_command_number`: the code each constructor hands to its base. -/
def commandNumber : Request → UInt8
  | status .. => SP_STATUS
  | control .. => SP_CONTROL
  | readBlock .. => SP_READ_BLOCK
  | writeBlock .. => SP_WRITE_BLOCK
  | format .. => SP_FORMAT
  | init .. => SP_INIT
  | open_ .. => SP_OPEN
  | close .. => SP_CLOSE
  | read .. => SP_READ
  | write .. => SP_WRITE
  | reset .. => SP_RESET

/-- The three bytes every `serialize` pushes first. -/
def headerBytes (r : Request) : List UInt8 :=
  [r.header.requestSequenceNumber, r.commandNumber, r.header.spUnit]

/-- `serialize` of each subclass. The control list is written as it is, without
its length. -/
def serialize (r : Request) : List UInt8 :=
  r.headerBytes ++
    match r with
    | status _ statusCode => [statusCode]
    | control _ controlCode data => controlCode :: data
    | readBlock _ blockNumber => blockNumber.toList
    | writeBlock _ blockNumber blockData => blockNumber.toList ++ blockData.toList
    | read _ byteCount address => byteCount.toList ++ address.toList
    | write _ byteCount address data => byteCount.toList ++ (address.toList ++ data)
    | format _ | init _ | open_ _ | close _ | reset _ => []

/-- `Request::from_packet`. The text of the exception is what the source
streams: the command is a `uint8_t`, so it is appended as a character. -/
def fromPacket (packet : List UInt8) : Except Failure Request := do
  let command ← byteAt packet 1
  let sequence ← byteAt packet 0
  let header : UInt8 → RequestHeader := fun spUnit => ⟨sequence, spUnit⟩
  if command = SP_STATUS then
    return status (header (← byteAt packet 2)) (← byteAt packet 3)
  else if command = SP_CONTROL then
    -- three for the header, one for the control code, two for length bytes to skip
    let payload ← bytesFrom packet 6
    return control (header (← byteAt packet 2)) (← byteAt packet 3) payload
  else if command = SP_READ_BLOCK then
    return readBlock (header (← byteAt packet 2)) (← arrayAt 3 packet 3)
  else if command = SP_WRITE_BLOCK then
    return writeBlock (header (← byteAt packet 2)) (← arrayAt 3 packet 3) (← arrayAt 512 packet 6)
  else if command = SP_FORMAT then
    return format (header (← byteAt packet 2))
  else if command = SP_INIT then
    return init (header (← byteAt packet 2))
  else if command = SP_OPEN then
    return open_ (header (← byteAt packet 2))
  else if command = SP_CLOSE then
    return close (header (← byteAt packet 2))
  else if command = SP_READ then
    return read (header (← byteAt packet 2)) (← arrayAt 2 packet 3) (← arrayAt 3 packet 5)
  else if command = SP_WRITE then
    return write (header (← byteAt packet 2)) (← arrayAt 2 packet 3) (← arrayAt 3 packet 5)
      (← bytesFrom packet 8)
  else if command = SP_RESET then
    return reset (header (← byteAt packet 2))
  else
    throw (.runtimeError ("Unknown command: %d".push (Char.ofNat command.toNat)))

/-! ## Reading back what was written -/

/-- The control list of a parsed packet starts two bytes after the control code,
where `serialize` has already put the first two bytes of the list. -/
theorem fromPacket_control (header : RequestHeader) (controlCode : UInt8) (data : List UInt8) :
    fromPacket (control header controlCode data).serialize =
      if 2 ≤ data.length then .ok (control header controlCode (data.drop 2))
      else .error .outOfRange := by
  by_cases long : 2 ≤ data.length <;>
    simp [fromPacket, serialize, headerBytes, commandNumber, Request.header, bytesFrom, long,
      SP_STATUS, SP_CONTROL]

/-- Dropping two bytes never gives the list back, not even the empty one. -/
theorem fromPacket_control_ne (header : RequestHeader) (controlCode : UInt8) (data : List UInt8) :
    fromPacket (control header controlCode data).serialize ≠
      .ok (control header controlCode data) := by
  rw [fromPacket_control]
  split
  · intro same
    have shorter : (data.drop 2).length = data.length := by
      rw [(control.inj (Except.ok.inj same)).2.2]
    rw [List.length_drop] at shorter
    omega
  · simp

/-- Every other request is read back as it was written. -/
theorem fromPacket_serialize {r : Request} (other : r.commandNumber ≠ SP_CONTROL) :
    fromPacket r.serialize = .ok r := by
  cases r with
  | control header controlCode data => exact absurd rfl other
  | write header byteCount address data =>
      have payload : bytesFrom (byteCount.toList ++ (address.toList ++ data)) 5 = .ok data :=
        (bytesFrom_append byteCount _ 3).trans
          ((bytesFrom_append address data 0).trans (bytesFrom_zero data))
      simp [fromPacket, serialize, headerBytes, commandNumber, Request.header, arrayAt_append,
        payload, SP_STATUS,
        SP_READ_BLOCK, SP_WRITE_BLOCK, SP_FORMAT, SP_CONTROL, SP_INIT, SP_OPEN, SP_CLOSE, SP_READ,
        SP_WRITE, SP_RESET]
  | _ =>
      simp [fromPacket, serialize, headerBytes, commandNumber, Request.header, arrayAt_append,
        SP_STATUS,
        SP_READ_BLOCK, SP_WRITE_BLOCK, SP_FORMAT, SP_CONTROL, SP_INIT, SP_OPEN, SP_CLOSE, SP_READ,
        SP_WRITE, SP_RESET]

/-- A request survives the way through its packet exactly when it is not a
Control request. -/
theorem fromPacket_serialize_iff (r : Request) :
    fromPacket r.serialize = .ok r ↔ r.commandNumber ≠ SP_CONTROL := by
  constructor
  · intro same isControl
    cases r with
    | control header controlCode data => exact fromPacket_control_ne header controlCode data same
    | _ =>
        simp [commandNumber, SP_STATUS, SP_READ_BLOCK, SP_WRITE_BLOCK, SP_FORMAT, SP_CONTROL,
          SP_INIT, SP_OPEN, SP_CLOSE, SP_READ, SP_WRITE, SP_RESET] at isControl
  · intro other
    exact fromPacket_serialize other

/-- A control list of three bytes comes back as its last byte. -/
theorem control_list_loses_two_bytes :
    fromPacket (control ⟨7, 1⟩ 4 [0xAA, 0xBB, 0xCC]).serialize = .ok (control ⟨7, 1⟩ 4 [0xCC]) ∧
      fromPacket (control ⟨7, 1⟩ 4 [0xAA, 0xBB, 0xCC]).serialize ≠
        .ok (control ⟨7, 1⟩ 4 [0xAA, 0xBB, 0xCC]) := by
  refine ⟨?_, fromPacket_control_ne _ _ _⟩
  rw [fromPacket_control]
  rfl

end Request

end FujiNet.SmartPort
