import FujiNet.Control.Machine
import FujiNet.Fnjson.Value

/-!
# The read command of a SmartPort network device

`iwmNetwork::iwm_read` fills the static `data_buffer` of 767 bytes, from the value of a JSON query
or from what the protocol has received, and sends the first `data_len` bytes of it as one packet.

A JSON value is read from its start every time: `json_bytes_remaining` counts, but nothing says
where the last packet ended. The value arrives if it fits one packet and the first read asks for
all of it. In protocol mode a request for more than 512 bytes takes 512 out of `receiveBuffer`,
even if fewer are there.
-/

namespace FujiNet.Iwm

open FNJSON (Item getValue resolveQuery)

/-- `MAX_DATA_LEN`, the size of `data_buffer`. -/
def MAX_DATA_LEN : Nat := 767

/-- Conversion of a size to `int`. -/
def toInt (n : Nat) : Int :=
  if n % 4294967296 < 2147483648 then n % 4294967296 else n % 4294967296 - 4294967296

/-- Conversion of an `int` to `uint16_t`. -/
def toUint16 (n : Int) : Nat := (n % 65536).toNat

/-- `memcpy`; `none` if it would read or write outside its arguments. -/
def memcpy (dest source : List UInt8) (len : Nat) : Option (List UInt8) :=
  if len ≤ source.length ∧ len ≤ dest.length then some (source.take len ++ dest.drop len) else none

/-! ## The value of a query -/

/-- The part of `FNJSON` that a read uses. -/
structure Json where
  json : Option Item
  item : Option Item := none
  queryParam : UInt8 := 0
  lineEnding : List UInt8 := []
  jsonBytesRemaining : Int := 0

namespace Json

/-- The text of the item, empty if there is none; `none` if `getValue` does not return. -/
def value (j : Json) : Option (List UInt8) :=
  match j.item with
  | none => some []
  | some item => getValue j.queryParam j.lineEnding item

/-- `readValueLen`. -/
def readValueLen (j : Json) : Option Int := j.value.map fun value => toInt value.length

/-- `readValue` into a buffer. Without an item the buffer stays as it is. -/
def readValue (j : Json) (rxBuf : List UInt8) (len : Nat) : Option (List UInt8) :=
  match j.item with
  | none => some rxBuf
  | some item => (getValue j.queryParam j.lineEnding item).bind (memcpy rxBuf · len)

/-- `setReadQuery`. -/
def setReadQuery (queryString : List UInt8) (queryParam : UInt8) (j : Json) : Option Json :=
  let j := { j with item := resolveQuery j.json queryString, queryParam }
  j.readValueLen.map fun len => { j with jsonBytesRemaining := len }

/-- `iwmNetwork::read_channel_json`: `data_len` and `data_buffer`. -/
def readChannelJson (numBytes : Nat) (dataBuffer : List UInt8) (j : Json) :
    Option (Int × List UInt8 × Json) := do
  if j.jsonBytesRemaining = 0 then some (0, dataBuffer, j)
  else if numBytes > j.jsonBytesRemaining then
    let dataLen ← j.readValueLen
    let dataBuffer ← j.readValue dataBuffer (toUint16 dataLen)
    some (dataLen, dataBuffer, { j with jsonBytesRemaining := j.jsonBytesRemaining - dataLen })
  else
    let j := { j with jsonBytesRemaining := j.jsonBytesRemaining - numBytes }
    let dataBuffer ← j.readValue dataBuffer numBytes
    let dataLen ← j.readValueLen
    some (dataLen, dataBuffer, j)

end Json

/-! ## Protocols -/

/-- What a `read` does: whether it fails, and what it appends to `receiveBuffer`. -/
structure Reading (σ : Type) where
  failed : Bool
  appended : List UInt8
  state : σ

/-- A subclass of `NetworkProtocol`. What its `read` appends is what it has received since the
read before; `waiting` is the number that its `status` finds before it calls the base class. -/
structure Protocol (σ : Type) where
  received : σ → List UInt8
  error : σ → UInt8
  waiting : List UInt8 → σ → UInt16 × σ
  read : UInt16 → List UInt8 → σ → Reading σ
  received_waiting (receiveBuffer : List UInt8) (s : σ) :
    received (waiting receiveBuffer s).2 = received s
  received_read (len : UInt16) (receiveBuffer : List UInt8) (s : σ) :
    received (read len receiveBuffer s).state =
      received s ++ (read len receiveBuffer s).appended

/-- `status`, with that of `NetworkProtocol`: `rxBytesWaiting` and `receiveBuffer`. -/
def Protocol.status {σ : Type} (p : Protocol σ) (receiveBuffer : List UInt8) (s : σ) :
    Nat × List UInt8 × σ :=
  let (rxBytesWaiting, s) := p.waiting receiveBuffer s
  let (receiveBuffer, s) :=
    if receiveBuffer.length = 0 ∧ rxBytesWaiting > 0 then
      let r := p.read rxBytesWaiting receiveBuffer s
      (receiveBuffer ++ r.appended, r.state)
    else (receiveBuffer, s)
  (receiveBuffer.length % 65536, receiveBuffer, s)

/-! ## The device -/

inductive ChannelMode where
  | protocol
  | json
  deriving DecidableEq, Repr

/-- The part of `iwmNetwork` that a read uses. -/
structure Network (σ : Type) where
  channelMode : ChannelMode
  json : Json := { json := none }
  protocol : Option σ := none
  receiveBuffer : List UInt8 := []
  clientError : Bool := false
  clientDataAvailable : Bool := false
  err : UInt8 := 0

/-- The number of bytes that `read_channel` takes. -/
def channelDataLen (numBytes rxBytesWaiting : Nat) : Nat :=
  if rxBytesWaiting = 0 then 0
  else if numBytes < rxBytesWaiting ∧ numBytes ≤ 512 then numBytes
  else if numBytes > 512 then 512
  else rxBytesWaiting

/-- An I/O error, or a data packet. -/
inductive ReadAnswer where
  | ioerror
  | data (packet : List UInt8)
  deriving DecidableEq, Repr

/-- The bytes of the packet. -/
def ReadAnswer.packet : ReadAnswer → List UInt8
  | ioerror => []
  | data packet => packet

/-- `iwm_send_packet` of the first bytes of the buffer, whose number it takes as `uint16_t`. -/
def sendPacket (dataBuffer : List UInt8) (dataLen : Int) : Option ReadAnswer :=
  if toUint16 dataLen ≤ dataBuffer.length then some (.data (dataBuffer.take (toUint16 dataLen)))
  else none

namespace Network

variable {σ : Type} (p : Protocol σ)

/-- `read_channel`: whether it fails, `data_len` and `data_buffer`. -/
def readChannel (numBytes : Nat) (dataBuffer : List UInt8) (n : Network σ) :
    Option (Bool × Int × List UInt8 × Network σ) :=
  match n.protocol with
  | none => some (true, 0, dataBuffer, n)
  | some s =>
    let (rxBytesWaiting, receiveBuffer, s) := p.status n.receiveBuffer s
    let dataLen := channelDataLen numBytes rxBytesWaiting
    let r := p.read (UInt16.ofNat dataLen) receiveBuffer s
    let n := { n with protocol := some r.state, receiveBuffer := receiveBuffer ++ r.appended }
    if r.failed then
      some (true, dataLen, dataBuffer, { n with clientError := true, err := p.error r.state })
    else
      (memcpy dataBuffer n.receiveBuffer dataLen).map fun dataBuffer =>
        (false, dataLen, dataBuffer, { n with
          clientError := false
          clientDataAvailable := dataLen > 0
          receiveBuffer := n.receiveBuffer.drop dataLen })

/-- `iwm_read`; `none` if it reads or writes outside an object. -/
def iwmRead (numBytes : UInt16) (n : Network σ) : Option (ReadAnswer × Network σ) :=
  let dataBuffer := List.replicate MAX_DATA_LEN 0
  match n.channelMode with
  | .protocol =>
    (n.readChannel p numBytes.toNat dataBuffer).bind fun (error, dataLen, dataBuffer, n) =>
      if error then some (.ioerror, n)
      else (sendPacket dataBuffer dataLen).map fun answer => (answer, n)
  | .json =>
    (n.json.readChannelJson numBytes.toNat dataBuffer).bind fun (dataLen, dataBuffer, json) =>
      (sendPacket dataBuffer dataLen).map fun answer => (answer, { n with json })

end Network

/-! ## Sessions -/

/-- A channel, and the bytes of the packets sent so far. -/
structure NetworkSession (σ : Type) where
  network : Network σ
  sent : List UInt8 := []

section

variable {σ : Type} (p : Protocol σ)

/-- One read. -/
def NetworkSession.read (numBytes : UInt16) (s : NetworkSession σ) :
    Option (ReadAnswer × NetworkSession σ) :=
  (s.network.iwmRead p numBytes).map fun (answer, network) =>
    (answer, ⟨network, s.sent ++ answer.packet⟩)

/-- The bytes to be delivered: the value of the query, or what the protocol has received. -/
def Network.stream (n : Network σ) : List UInt8 :=
  match n.channelMode with
  | .json => n.json.value.getD []
  | .protocol => (n.protocol.map p.received).getD []

/-- An open channel: after a query, or with nothing received that is not in `receiveBuffer`. -/
def Network.Opened (n : Network σ) : Prop :=
  match n.channelMode with
  | .json => ∃ queryString queryParam j, Json.setReadQuery queryString queryParam j = some n.json
  | .protocol => ∃ s, n.protocol = some s ∧ p.received s = n.receiveBuffer

/-- What a read delivers: a packet that is no longer than 512 bytes and than was asked for, and
continues the stream; and the whole value once nothing remains of it. -/
structure Delivers (numBytes : UInt16) (answer : ReadAnswer) (s : NetworkSession σ) : Prop where
  short : answer.packet.length ≤ 512
  asked : answer.packet.length ≤ numBytes.toNat
  inOrder : s.sent <+: s.network.stream p
  whole : s.network.channelMode = .json → s.network.json.jsonBytesRemaining = 0 →
    s.sent = s.network.stream p

/-- In JSON mode the value fits one packet, and a read of it asks for all of it. In protocol mode a
successful read for more than 512 bytes finds 512 in `receiveBuffer`, or nothing at all. -/
def Network.Enough (numBytes : UInt16) (n : Network σ) : Prop :=
  match n.channelMode with
  | .json => ∀ value, n.json.value = some value → value.length ≤ 512 ∧
      (n.json.jsonBytesRemaining = 0 ∨ value.length ≤ numBytes.toNat)
  | .protocol => ∀ s, n.protocol = some s → 512 < numBytes.toNat →
      ∀ rxBytesWaiting receiveBuffer s', p.status n.receiveBuffer s =
        (rxBytesWaiting, receiveBuffer, s') → rxBytesWaiting ≠ 0 →
      (p.read 512 receiveBuffer s').failed = false →
      512 ≤ (receiveBuffer ++ (p.read 512 receiveBuffer s').appended).length

end

/-! ## One read of a value -/

theorem toInt_of_lt {n : Nat} (small : n < 65536) : toInt n = n := by
  rw [toInt, if_pos (by omega)]
  omega

theorem toUint16_of_lt {n : Nat} (small : n < 65536) : toUint16 n = n := by
  rw [toUint16]
  omega

theorem memcpy_eq_some_iff {dest source dest' : List UInt8} {len : Nat} :
    memcpy dest source len = some dest' ↔
      len ≤ source.length ∧ len ≤ dest.length ∧ dest' = source.take len ++ dest.drop len := by
  rw [memcpy]
  split_ifs with inside
  · simp [inside, eq_comm]
  · simpa using fun left right => absurd ⟨left, right⟩ inside

theorem sendPacket_eq_some_iff {dataBuffer : List UInt8} {dataLen : Int} {answer : ReadAnswer} :
    sendPacket dataBuffer dataLen = some answer ↔ toUint16 dataLen ≤ dataBuffer.length ∧
      answer = .data (dataBuffer.take (toUint16 dataLen)) := by
  rw [sendPacket]
  split_ifs with inside
  · simp [inside, eq_comm]
  · simpa using fun left => absurd left inside

namespace Json

variable {j j' : Json} {value : List UInt8} {numBytes : Nat} {dataBuffer : List UInt8}

theorem setReadQuery_spec {queryString : List UInt8} {queryParam : UInt8}
    (query : j.setReadQuery queryString queryParam = some j') :
    ∃ value, j'.value = some value ∧ j'.jsonBytesRemaining = toInt value.length := by
  simp only [setReadQuery, readValueLen, Option.map_map, Option.map_eq_some_iff] at query
  obtain ⟨value, text, query⟩ := query
  rw [← query]
  exact ⟨value, text, rfl⟩

/-- Nothing is left to read. -/
theorem readChannelJson_of_read (read : j.jsonBytesRemaining = 0) :
    j.readChannelJson numBytes dataBuffer = some (0, dataBuffer, j) := by
  rw [readChannelJson, if_pos read]

theorem readValue_of_value (text : j.value = some value) (nonempty : value ≠ []) (len : Nat) :
    j.readValue dataBuffer len = memcpy dataBuffer value len := by
  rw [Json.value] at text
  rw [readValue]
  cases item : j.item with
  | none => exact absurd (by simpa [item, eq_comm] using text) nonempty
  | some item' =>
      rw [item] at text
      simp only at text ⊢
      rw [text, Option.bind_some]

/-- A read of a value that has not been read yet announces all of it, whatever is asked for. -/
theorem readChannelJson_of_unread (text : j.value = some value) (nonempty : value ≠ [])
    (short : value.length < 65536) (unread : j.jsonBytesRemaining = toInt value.length) :
    j.readChannelJson numBytes dataBuffer =
      (memcpy dataBuffer value (min numBytes value.length)).map fun dataBuffer =>
        ((value.length : Int), dataBuffer, { j with
          jsonBytesRemaining := (value.length : Int) - min numBytes value.length }) := by
  have pos := List.length_pos_of_ne_nil nonempty
  rw [toInt_of_lt short] at unread
  rw [readChannelJson, if_neg (by omega), unread]
  split_ifs with more
  · simp only [readValueLen, text, Option.map_some, toInt_of_lt short, Option.bind_eq_bind,
      Option.bind_some, toUint16_of_lt short, readValue_of_value text nonempty]
    rw [Nat.min_eq_right (by omega), Option.map_eq_bind]
    rfl
  · have text' : Json.value { j with jsonBytesRemaining := (value.length : Int) - numBytes } =
        some value := text
    simp only [readValueLen, text', Option.map_some, toInt_of_lt short, Option.bind_eq_bind,
      Option.bind_some, readValue_of_value text' nonempty]
    rw [Nat.min_eq_left (by omega), Option.map_eq_bind]
    rfl

end Json

section

variable {σ : Type} {p : Protocol σ} {s s' : NetworkSession σ} {numBytes : UInt16}
  {answer : ReadAnswer} {value : List UInt8}

/-- A JSON channel from which the value has been delivered, or nothing of it. -/
structure ReadsValue (value : List UInt8) (s : NetworkSession σ) : Prop where
  mode : s.network.channelMode = .json
  text : s.network.json.value = some value
  progress : s.network.json.jsonBytesRemaining = 0 ∧ s.sent = value ∧ value.length ≤ 512 ∨
    s.network.json.jsonBytesRemaining = toInt value.length ∧ s.sent = []

theorem ReadsValue.stream (kept : ReadsValue value s) : s.network.stream p = value := by
  rw [Network.stream, kept.mode]
  simp only [kept.text, Option.getD_some]

theorem ReadsValue.enough_iff (kept : ReadsValue value s) : s.network.Enough p numBytes ↔
    value.length ≤ 512 ∧
      (s.network.json.jsonBytesRemaining = 0 ∨ value.length ≤ numBytes.toNat) := by
  rw [Network.Enough, kept.mode]
  simp only [kept.text, Option.some.injEq]
  exact ⟨fun enough => enough value rfl, fun enough _ same => same ▸ enough⟩

/-- The whole value in the buffer. -/
theorem memcpy_whole (short : value.length ≤ 512) :
    memcpy (List.replicate MAX_DATA_LEN 0) value value.length =
      some (value ++ List.replicate (MAX_DATA_LEN - value.length) 0) := by
  rw [memcpy_eq_some_iff, List.length_replicate, List.drop_replicate, List.take_length]
  exact ⟨Nat.le_refl _, by rw [MAX_DATA_LEN]; omega, rfl⟩

theorem sendPacket_whole (short : value.length ≤ 512) (rest : List UInt8) :
    sendPacket (value ++ rest) value.length = some (.data value) := by
  rw [sendPacket_eq_some_iff, toUint16_of_lt (by omega), List.length_append, List.take_left]
  exact ⟨Nat.le_add_right _ _, rfl⟩

theorem Network.iwmRead_json {n : Network σ} (mode : n.channelMode = .json) :
    n.iwmRead p numBytes =
      (n.json.readChannelJson numBytes.toNat (List.replicate MAX_DATA_LEN 0)).bind
        fun (dataLen, dataBuffer, json) =>
          (sendPacket dataBuffer dataLen).map fun answer => (answer, { n with json }) := by
  rw [iwmRead]
  split
  · next protocol => simp [mode] at protocol
  · rfl

/-- A read with nothing left. -/
theorem ReadsValue.read_of_read (kept : ReadsValue value s)
    (read : s.network.json.jsonBytesRemaining = 0) : s.read p numBytes = some (.data [], s) := by
  have nothing : sendPacket (List.replicate MAX_DATA_LEN 0) 0 = some (.data []) :=
    sendPacket_eq_some_iff.mpr ⟨Nat.zero_le _, rfl⟩
  simp only [NetworkSession.read, Network.iwmRead_json kept.mode,
    Json.readChannelJson_of_read read, Option.bind_some, nothing, Option.map_some,
    ReadAnswer.packet, List.append_nil]

/-- A read of a value that has not been read yet. -/
theorem ReadsValue.read_of_unread (kept : ReadsValue value s) (p : Protocol σ)
    (numBytes : UInt16) (nonempty : value ≠ []) (short : value.length < 65536)
    (unread : s.network.json.jsonBytesRemaining = toInt value.length) :
    s.read p numBytes =
      (memcpy (List.replicate MAX_DATA_LEN 0) value (min numBytes.toNat value.length)).bind
        fun dataBuffer => (sendPacket dataBuffer value.length).map fun answer =>
          (answer, ⟨{ s.network with json.jsonBytesRemaining :=
              (value.length : Int) - min numBytes.toNat value.length },
            s.sent ++ answer.packet⟩) := by
  simp only [NetworkSession.read, Network.iwmRead_json kept.mode,
    Json.readChannelJson_of_unread kept.text nonempty short unread, Option.bind_map,
    Option.map_bind, Function.comp_def, Option.map_map]

/-- A value that fits is delivered at once, and then nothing more. -/
theorem ReadsValue.read_of_enough (kept : ReadsValue value s)
    (enough : s.network.Enough p numBytes) : ∃ answer s', s.read p numBytes = some (answer, s') ∧
      Delivers p numBytes answer s' ∧ ReadsValue value s' := by
  obtain ⟨short, asked⟩ := kept.enough_iff.mp enough
  by_cases read : s.network.json.jsonBytesRemaining = 0
  · have all : s.sent = value := by
      rcases kept.progress with ⟨-, all, -⟩ | ⟨unread, none⟩
      · exact all
      · rw [read, toInt_of_lt (by omega)] at unread
        rw [none, List.eq_nil_of_length_eq_zero (show value.length = 0 by omega)]
    have same : s.sent = s.network.stream p := all.trans kept.stream.symm
    exact ⟨_, s, kept.read_of_read read,
      ⟨Nat.zero_le _, Nat.zero_le _, same ▸ List.prefix_refl _, fun _ _ => same⟩, kept⟩
  · obtain ⟨unread, none⟩ := kept.progress.resolve_left fun done => read done.1
    have nonempty : value ≠ [] := by
      rintro rfl
      exact read unread
    have asked := asked.resolve_left read
    have answered := kept.read_of_unread p numBytes nonempty (by omega) unread
    rw [Nat.min_eq_right asked, memcpy_whole short, Option.bind_some, sendPacket_whole short,
      Option.map_some, none, Int.sub_self] at answered
    have kept' : ReadsValue value (⟨{ s.network with json.jsonBytesRemaining := 0 }, value⟩ :
        NetworkSession σ) := ⟨kept.mode, kept.text, .inl ⟨rfl, rfl, short⟩⟩
    refine ⟨_, _, answered, ⟨short, asked, ?_, fun _ _ => ?_⟩, kept'⟩
    · exact kept'.stream ▸ List.prefix_refl _
    · exact kept'.stream.symm

/-- A packet of a value that has not been read yet is as long as the value. -/
theorem ReadsValue.enough_of_read (kept : ReadsValue value s) (short : value.length < 65536)
    (answered : s.read p numBytes = some (answer, s')) (delivers : Delivers p numBytes answer s') :
    s.network.Enough p numBytes := by
  rw [kept.enough_iff]
  rcases kept.progress with ⟨read, -, fits⟩ | ⟨unread, -⟩
  · exact ⟨fits, .inl read⟩
  · by_cases nonempty : value = []
    · subst nonempty
      exact ⟨Nat.zero_le _, .inl unread⟩
    rw [kept.read_of_unread p numBytes nonempty short unread] at answered
    obtain ⟨dataBuffer, -, answered⟩ := Option.bind_eq_some_iff.mp answered
    obtain ⟨packet, sent, same⟩ := Option.map_eq_some_iff.mp answered
    obtain ⟨rfl, -⟩ := Prod.mk.inj same
    obtain ⟨inside, rfl⟩ := sendPacket_eq_some_iff.mp sent
    rw [toUint16_of_lt short] at inside
    have length : (dataBuffer.take (toUint16 value.length)).length = value.length := by
      rw [toUint16_of_lt short, List.length_take, Nat.min_eq_left inside]
    have limit := delivers.short
    have asked := delivers.asked
    rw [ReadAnswer.packet, length] at limit asked
    exact ⟨limit, .inr asked⟩

end

/-! ## One read of a protocol -/

theorem channelDataLen_le (numBytes rxBytesWaiting : Nat) :
    channelDataLen numBytes rxBytesWaiting ≤ 512 ∧
      channelDataLen numBytes rxBytesWaiting ≤ numBytes := by
  rw [channelDataLen]
  split_ifs <;> omega

/-- No more than is waiting is taken, unless more than a packet is asked for. -/
theorem channelDataLen_le_waiting {numBytes rxBytesWaiting : Nat}
    (usual : numBytes ≤ 512 ∨ rxBytesWaiting = 0) :
    channelDataLen numBytes rxBytesWaiting ≤ rxBytesWaiting := by
  rw [channelDataLen]
  split_ifs <;> omega

theorem channelDataLen_of_long {numBytes rxBytesWaiting : Nat} (long : 512 < numBytes)
    (waiting : rxBytesWaiting ≠ 0) : channelDataLen numBytes rxBytesWaiting = 512 := by
  rw [channelDataLen, if_neg waiting, if_neg (by omega), if_pos long]

section

variable {σ : Type} {p : Protocol σ} {s s' : NetworkSession σ} {numBytes : UInt16}
  {answer : ReadAnswer} {st st' : σ} {buffer buffer' : List UInt8} {rxBytesWaiting : Nat}

/-- `status` only appends what it receives, and reports no more than is there. -/
theorem Protocol.status_spec (status : p.status buffer st = (rxBytesWaiting, buffer', st')) :
    rxBytesWaiting ≤ buffer'.length ∧
      ∃ more, buffer' = buffer ++ more ∧ p.received st' = p.received st ++ more := by
  simp only [Protocol.status, Prod.mk.injEq] at status
  obtain ⟨rfl, rfl, rfl⟩ := status
  refine ⟨Nat.mod_le _ _, ?_⟩
  split_ifs
  · exact ⟨_, rfl, by rw [p.received_read, p.received_waiting]⟩
  · exact ⟨[], by simp, by simp [p.received_waiting]⟩

/-- A protocol whose bytes have been sent or are in `receiveBuffer`. -/
structure ReadsProtocol (p : Protocol σ) (st : σ) (s : NetworkSession σ) : Prop where
  mode : s.network.channelMode = .protocol
  here : s.network.protocol = some st
  kept : p.received st = s.sent ++ s.network.receiveBuffer

theorem Network.iwmRead_protocol {n : Network σ} (mode : n.channelMode = .protocol) :
    n.iwmRead p numBytes =
      (n.readChannel p numBytes.toNat (List.replicate MAX_DATA_LEN 0)).bind
        fun (error, dataLen, dataBuffer, n) =>
          if error then some (.ioerror, n)
          else (sendPacket dataBuffer dataLen).map fun answer => (answer, n) := by
  rw [iwmRead]
  split
  · rfl
  · next json => simp [mode] at json

theorem ReadsProtocol.stream (h : ReadsProtocol p st s) :
    s.network.stream p = s.sent ++ s.network.receiveBuffer := by
  rw [Network.stream, h.mode]
  simp only [h.here, Option.map_some, Option.getD_some, h.kept]

/-- The bytes are taken out of the buffer, and sent. -/
theorem readChannel_copied {dataLen : Nat} {dataBuffer : List UInt8} (short : dataLen ≤ 512)
    (copied : memcpy (List.replicate MAX_DATA_LEN 0) buffer dataLen = some dataBuffer) :
    sendPacket dataBuffer dataLen = some (.data (buffer.take dataLen)) := by
  obtain ⟨inside, -, rfl⟩ := memcpy_eq_some_iff.mp copied
  have length : (buffer.take dataLen).length = dataLen := by
    rw [List.length_take, Nat.min_eq_left inside]
  rw [sendPacket_eq_some_iff, toUint16_of_lt (by omega)]
  constructor
  · rw [List.length_append, length]
    exact Nat.le_add_right _ _
  · rw [List.take_append_of_le_length (Nat.le_of_eq length.symm), List.take_take, Nat.min_self]

/-- A read that asks for what is there, or fails, delivers the next bytes. -/
theorem ReadsProtocol.read_of_enough (h : ReadsProtocol p st s)
    (enough : s.network.Enough p numBytes) : ∃ answer s', s.read p numBytes = some (answer, s') ∧
      Delivers p numBytes answer s' ∧ ∃ st', ReadsProtocol p st' s' := by
  obtain ⟨rxBytesWaiting, buffer, st', status⟩ : ∃ rxBytesWaiting buffer st',
    p.status s.network.receiveBuffer st = (rxBytesWaiting, buffer, st') := ⟨_, _, _, rfl⟩
  obtain ⟨waiting_le, more, rfl, received⟩ := Protocol.status_spec status
  rw [h.kept, List.append_assoc] at received
  obtain ⟨limit, asked⟩ := channelDataLen_le numBytes.toNat rxBytesWaiting
  simp only [NetworkSession.read, Network.iwmRead_protocol h.mode, Network.readChannel, h.here,
    status]
  have inside (success : (p.read (UInt16.ofNat (channelDataLen numBytes.toNat rxBytesWaiting))
      (s.network.receiveBuffer ++ more) st').failed = false) :
      channelDataLen numBytes.toNat rxBytesWaiting ≤ (s.network.receiveBuffer ++ more ++
        (p.read (UInt16.ofNat (channelDataLen numBytes.toNat rxBytesWaiting))
          (s.network.receiveBuffer ++ more) st').appended).length := by
    by_cases long : 512 < numBytes.toNat ∧ rxBytesWaiting ≠ 0
    · rw [channelDataLen_of_long long.1 long.2] at success ⊢
      rw [Network.Enough, h.mode] at enough
      exact enough st h.here long.1 _ _ _ status long.2 success
    · have := channelDataLen_le_waiting (show numBytes.toNat ≤ 512 ∨ rxBytesWaiting = 0 by omega)
      rw [List.length_append]
      omega
  generalize channelDataLen numBytes.toNat rxBytesWaiting = dataLen at *
  have law := p.received_read (UInt16.ofNat dataLen) (s.network.receiveBuffer ++ more) st'
  generalize p.read (UInt16.ofNat dataLen) (s.network.receiveBuffer ++ more) st' = r at *
  rw [received, List.append_assoc] at law
  cases failed : r.failed with
  | true =>
      simp only [if_true, Option.bind_some, Option.map_some]
      have h' : ReadsProtocol p r.state (⟨{ s.network with
          protocol := some r.state
          receiveBuffer := s.network.receiveBuffer ++ more ++ r.appended
          clientError := true
          err := p.error r.state }, s.sent ++ []⟩ : NetworkSession σ) :=
        ⟨h.mode, rfl, by simp only [law, List.append_nil, List.append_assoc]⟩
      refine ⟨_, _, rfl, ⟨Nat.zero_le _, Nat.zero_le _, ?_, fun json => ?_⟩, _, h'⟩
      · exact h'.stream ▸ List.prefix_append _ _
      · simp [h.mode] at json
  | false =>
      have copied : memcpy (List.replicate MAX_DATA_LEN 0)
          (s.network.receiveBuffer ++ more ++ r.appended) dataLen =
            some ((s.network.receiveBuffer ++ more ++ r.appended).take dataLen ++
              (List.replicate MAX_DATA_LEN 0).drop dataLen) :=
        memcpy_eq_some_iff.mpr ⟨inside failed, by
          rw [List.length_replicate, MAX_DATA_LEN]
          omega, rfl⟩
      simp only [Bool.false_eq_true, if_false, copied, Option.map_some, Option.bind_some,
        readChannel_copied limit copied, ReadAnswer.packet]
      generalize s.network.receiveBuffer ++ more ++ r.appended = buffer at *
      have h' : ReadsProtocol p r.state (⟨{ s.network with
          protocol := some r.state
          receiveBuffer := buffer.drop dataLen
          clientError := false
          clientDataAvailable := dataLen > 0 }, s.sent ++ buffer.take dataLen⟩ :
            NetworkSession σ) :=
        ⟨h.mode, rfl, by rw [law, List.append_assoc, List.take_append_drop]⟩
      have length : (buffer.take dataLen).length ≤ dataLen := List.length_take_le _ _
      refine ⟨_, _, rfl, ⟨Nat.le_trans length limit, Nat.le_trans length asked, ?_, fun json => ?_⟩,
        _, h'⟩
      · exact h'.stream ▸ List.prefix_append _ _
      · simp [h.mode] at json

/-- A successful read has copied what it sends. -/
theorem ReadsProtocol.enough_of_read (h : ReadsProtocol p st s)
    (answered : s.read p numBytes = some (answer, s')) : s.network.Enough p numBytes := by
  rw [Network.Enough, h.mode]
  simp only [h.here, Option.some.injEq]
  rintro _ rfl long rxBytesWaiting buffer st' status waiting success
  simp only [NetworkSession.read, Network.iwmRead_protocol h.mode, Network.readChannel, h.here,
    status, channelDataLen_of_long long waiting] at answered
  have read : p.read (UInt16.ofNat 512) buffer st' = p.read 512 buffer st' := rfl
  rw [read] at answered
  simp only [success, Bool.false_eq_true, if_false, Option.map_eq_some_iff,
    Option.bind_eq_some_iff] at answered
  obtain ⟨_, ⟨_, ⟨dataBuffer, copied, -⟩, -⟩, -⟩ := answered
  exact (memcpy_eq_some_iff.mp copied).1

end

/-! ## Runs -/

/-- In every run of reads with enough, each further one with enough delivers. And one that delivers
had enough, unless the length of a value is cut to 16 bits. -/
theorem iwmRead_delivers {σ : Type} (p : Protocol σ) {n : Network σ} (opened : n.Opened p)
    {s : NetworkSession σ} (reached : Machine.Reaches (NetworkSession.read p)
      (fun numBytes s _ _ => s.network.Enough p numBytes) ⟨n, []⟩ s) (numBytes : UInt16) :
    (s.network.Enough p numBytes → ∃ answer s', s.read p numBytes = some (answer, s') ∧
      Delivers p numBytes answer s') ∧
    ∀ answer s', s.read p numBytes = some (answer, s') → Delivers p numBytes answer s' →
      (∀ value, s.network.json.value = some value → value.length < 65536) →
        s.network.Enough p numBytes := by
  cases mode : n.channelMode with
  | json =>
      rw [Network.Opened, mode] at opened
      obtain ⟨_, _, _, query⟩ := opened
      obtain ⟨value, text, unread⟩ := Json.setReadQuery_spec query
      have kept : ReadsValue value s := by
        refine reached.invariant (ReadsValue value) ⟨mode, text, .inr ⟨unread, rfl⟩⟩ ?_
        intro numBytes s answer s' kept answered enough
        obtain ⟨answer', s'', answered', -, kept'⟩ := kept.read_of_enough enough
        obtain ⟨-, rfl⟩ := Prod.mk.inj (Option.some.inj (answered'.symm.trans answered))
        exact kept'
      refine ⟨fun enough => ?_, fun answer s' answered delivers short => ?_⟩
      · obtain ⟨answer, s', answered, delivers, -⟩ := kept.read_of_enough enough
        exact ⟨answer, s', answered, delivers⟩
      · exact kept.enough_of_read (short value kept.text) answered delivers
  | protocol =>
      rw [Network.Opened, mode] at opened
      obtain ⟨st, here, received⟩ := opened
      have reads : ∃ st, ReadsProtocol p st s := by
        refine reached.invariant (fun s => ∃ st, ReadsProtocol p st s) ⟨st, mode, here, received⟩ ?_
        rintro numBytes s answer s' ⟨st, h⟩ answered enough
        obtain ⟨answer', s'', answered', -, reads⟩ := h.read_of_enough enough
        obtain ⟨-, rfl⟩ := Prod.mk.inj (Option.some.inj (answered'.symm.trans answered))
        exact reads
      obtain ⟨st, h⟩ := reads
      refine ⟨fun enough => ?_, fun answer s' answered _ _ => h.enough_of_read answered⟩
      obtain ⟨answer, s', answered, delivers, -⟩ := h.read_of_enough enough
      exact ⟨answer, s', answered, delivers⟩

/-- A protocol that receives nothing. -/
def silent : Protocol Unit where
  received _ := []
  error _ := 0
  waiting _ s := (0, s)
  read _ _ s := ⟨false, [], s⟩
  received_waiting _ _ := rfl
  received_read _ _ _ := rfl

/-- A channel after a query whose value is TRUE. -/
def trueQueried : Network Unit where
  channelMode := .json
  json := { json := some (.bool true), item := some (.bool true), jsonBytesRemaining := 4 }

theorem trueQueried_opened : trueQueried.Opened silent := by
  refine ⟨[], 0, { json := some (.bool true) }, ?_⟩
  have text : getValue 0 [] (.bool true) = some [0x54, 0x52, 0x55, 0x45] := by decide +kernel
  simp only [Json.setReadQuery, resolveQuery, if_true, Json.readValueLen, Json.value, text,
    Option.map_some]
  rfl

theorem iwmRead_delivers_true : ∃ answer s',
    NetworkSession.read silent 5 ⟨trueQueried, []⟩ = some (answer, s') ∧
      Delivers silent 5 answer s' := by
  refine (iwmRead_delivers silent trueQueried_opened .refl 5).1 fun value text => ?_
  obtain rfl : FNJSON.bytes "TRUE" ++ [] = value := Option.some.inj text
  decide +kernel

/-- The first read of two bytes is answered with four. -/
theorem iwmRead_of_two_sends_four : ¬∀ s, Machine.Reaches (NetworkSession.read silent)
    (fun _ _ _ _ => True) ⟨trueQueried, []⟩ s → ∀ numBytes, ∃ answer s',
      s.read silent numBytes = some (answer, s') ∧ Delivers silent numBytes answer s' := by
  intro all
  obtain ⟨answer, s', answered, delivers⟩ := all _ .refl 2
  have four : (NetworkSession.read silent 2 ⟨trueQueried, []⟩).map (·.1) =
      some (.data [0x54, 0x52, 0, 0]) := by decide +kernel
  rw [answered] at four
  obtain rfl : answer = .data [0x54, 0x52, 0, 0] := Option.some.inj four
  exact absurd delivers.asked (by decide)

end FujiNet.Iwm
