import FujiNet.Control.Machine
import FujiNet.Device.SioRead

/-!
# A TCP channel

`NetworkProtocolTCP` takes from its socket exactly as many bytes as it is asked for, or drops
what it has taken and reports an error. What the computer writes goes through `transmitBuffer`,
which is emptied only when the socket has accepted all of it: after a short send, or after
a send that finds an old ECONNRESET in `errno`, the bytes that have gone out are still in there.
-/

namespace FujiNet.NetworkProtocol

def NETWORK_ERROR_SOCKET_TIMEOUT : UInt8 := 202
def NETWORK_ERROR_CONNECTION_RESET : UInt8 := 204
def NETWORK_ERROR_NOT_CONNECTED : UInt8 := 207

/-- A channel on an open socket. -/
structure NetworkProtocolTCP where
  build : Build
  translationMode : UInt8
  connectionIsServer : Bool := false
  receiveBuffer : List UInt8 := []
  transmitBuffer : List UInt8 := []
  error : UInt8 := NETWORK_ERROR_SUCCESS
deriving DecidableEq, Repr

/-- How the socket takes part in a read: whether it is connected, what `client.read` puts into
its block (`none` if it returns -1), and whether `errno` is ECONNRESET afterwards. -/
structure Received where
  connected : Bool
  bytes : Option (List UInt8)
  reset : Bool
deriving DecidableEq, Repr

/-- How it takes part in a write: how much of what it is given the socket accepts. -/
structure Accepted where
  connected : Bool
  count : Nat
  reset : Bool
deriving DecidableEq, Repr

namespace Received

variable (answer : Received) (len : Nat)

/-- The bytes that come from the socket. -/
def data : List UInt8 := (answer.bytes.getD []).take len

/-- `actual_len`: what `client.read` returns, as a 16-bit number. -/
def actualLen : Nat :=
  match answer.bytes with
  | none => 65535
  | some bytes => (bytes.take len).length

/-- `newData`: the received bytes, and behind them what the allocated block held before. -/
def newData (garbage : Nat → UInt8) : List UInt8 :=
  (answer.data len ++ (List.range len).map garbage).take len

end Received

namespace NetworkProtocolTCP

open Device (sentFrom sentFrom_of_le)

variable (tcp : NetworkProtocolTCP)

/-- `NetworkProtocol::read`, the base class. -/
def baseRead : Bool × NetworkProtocolTCP :=
  (false, { tcp with
    receiveBuffer := translateReceiveBuffer tcp.build tcp.translationMode tcp.receiveBuffer
    error := NETWORK_ERROR_SUCCESS })

/-- `NetworkProtocolTCP::read`. -/
def read (garbage : Nat → UInt8) (answer : Received) (len : Nat) : Bool × NetworkProtocolTCP :=
  if tcp.receiveBuffer.length = 0 then
    if answer.connected = false then (true, { tcp with error := NETWORK_ERROR_NOT_CONNECTED })
    else if answer.reset then (true, { tcp with error := NETWORK_ERROR_CONNECTION_RESET })
    else if answer.actualLen len ≠ len then (true, { tcp with error := NETWORK_ERROR_SOCKET_TIMEOUT })
    else baseRead { tcp with receiveBuffer := tcp.receiveBuffer ++ answer.newData len garbage }
  else baseRead tcp

/-- The bytes that a read takes from the socket. -/
def taken (answer : Received) (len : Nat) : List UInt8 :=
  if tcp.receiveBuffer = [] ∧ answer.connected then answer.data len else []

/-- `NetworkProtocolTCP::write`, with the bytes that go to the socket. -/
def write (answer : Accepted) (len : UInt16) : Bool × List UInt8 × NetworkProtocolTCP :=
  if answer.connected = false then
    (len ≠ 0, [], { tcp with error := NETWORK_ERROR_NOT_CONNECTED })
  else
    let (transmitBuffer, len) :=
      translateTransmitBuffer tcp.build tcp.translationMode tcp.transmitBuffer
    let actualLen := min answer.count len.toNat
    let put := transmitBuffer.take actualLen
    if answer.reset then
      (len ≠ 0, put, { tcp with transmitBuffer, error := NETWORK_ERROR_CONNECTION_RESET })
    else if actualLen ≠ len.toNat then
      (true, put, { tcp with transmitBuffer, error := NETWORK_ERROR_SOCKET_TIMEOUT })
    else
      (false, put, { tcp with
        transmitBuffer := transmitBuffer.drop len.toNat, error := NETWORK_ERROR_SUCCESS })

/-- `NetworkProtocol::close`, with the bytes that go to the socket. -/
def close (answer : Accepted) : List UInt8 × NetworkProtocolTCP :=
  let (put, tcp) :=
    if tcp.transmitBuffer ≠ [] then
      (tcp.write answer (UInt16.ofNat tcp.transmitBuffer.length)).2
    else ([], tcp)
  (put, { tcp with receiveBuffer := [], transmitBuffer := [], error := NETWORK_ERROR_SUCCESS })

/-- What the socket says when `status` asks: how much is available, twice, whether the client is
connected, three times, and whether the server has one. -/
structure Asked where
  available : Nat
  availableAgain : Nat
  client : Bool
  connected : Bool
  connectedAgain : Bool
  hasClient : Bool
deriving DecidableEq, Repr

/-- `status_client`. -/
def statusClient (asked : Asked) : NetworkStatus where
  rxBytesWaiting := if asked.available > 65535 then 65535 else asked.availableAgain % 65536
  connected := if asked.connected then 1 else 0
  error := if asked.connectedAgain then tcp.error else NETWORK_ERROR_END_OF_FILE

/-- `status_server`. -/
def statusServer (asked : Asked) (status : NetworkStatus) : NetworkStatus :=
  if asked.client then tcp.statusClient asked
  else { status with connected := if asked.hasClient then 1 else 0, error := tcp.error }

/-- What is found before the base class is asked. -/
def waiting (asked : Asked) (status : NetworkStatus) : NetworkStatus :=
  if tcp.connectionIsServer then tcp.statusServer asked status else tcp.statusClient asked

/-- `NetworkProtocolTCP::status`, with the bytes that it takes from the socket. -/
def status (asked : Asked) (garbage : Nat → UInt8) (answer : Received) (status : NetworkStatus) :
    NetworkStatus × List UInt8 × NetworkProtocolTCP :=
  let status := tcp.waiting asked status
  if tcp.receiveBuffer.length = 0 ∧ status.rxBytesWaiting > 0 then
    let tcp' := (tcp.read garbage answer status.rxBytesWaiting).2
    ({ status with rxBytesWaiting := tcp'.receiveBuffer.length % 65536 },
      tcp.taken answer status.rxBytesWaiting, tcp')
  else ({ status with rxBytesWaiting := tcp.receiveBuffer.length % 65536 }, [], tcp)

/-- The channel as the read command sees it. -/
def channel (garbage : Nat → UInt8) (answer : Received) : Device.Channel NetworkProtocolTCP where
  read := fun len tcp => tcp.read garbage answer len
  receiveBuffer := fun tcp => tcp.receiveBuffer
  setReceiveBuffer := fun receiveBuffer tcp => { tcp with receiveBuffer }

/-! ## Sessions -/

/-- A data frame of at most 65535 bytes. -/
abbrev Frame := {data : List UInt8 // data.length < 65536}

/-- A command of the computer, with the part that the socket and the memory have in it. -/
inductive Command
  | write (data : Frame) (answer : Accepted)
  | read (numBytes : UInt16) (heap garbage : Nat → UInt8) (answer : Received)
  | status (asked : Asked) (garbage : Nat → UInt8) (answer : Received) (status : NetworkStatus)
  | close (answer : Accepted)

/-- A channel, what has gone to the socket and come from it, what the computer has got, and of
each write what the socket took: the whole of it if no error was reported. -/
structure Session where
  tcp : Option NetworkProtocolTCP
  put : List UInt8 := []
  written : List UInt8 := []
  received : List UInt8 := []
  delivered : List UInt8 := []

namespace Session

/-- `sio_write`, `sio_read`, `sio_status` and `sio_close`. A read that ends in ERROR delivers
nothing, and there is no channel any more once it was closed. -/
def step (command : Command) (s : Session) : Session :=
  match s.tcp with
  | none => s
  | some tcp =>
    match command with
    | .write data answer =>
      let (err, put, tcp) := { tcp with transmitBuffer := tcp.transmitBuffer ++ data.val }.write
        answer (UInt16.ofNat data.val.length)
      { s with
        tcp := some tcp
        put := s.put ++ put
        written := s.written ++ if err then data.val.take put.length else data.val }
    | .read numBytes heap garbage answer =>
      let (reply, tcp') := (channel garbage answer).sioRead heap numBytes.toNat tcp
      { s with
        tcp := some tcp'
        received := s.received ++ tcp.taken answer numBytes.toNat
        delivered := if reply.err then s.delivered else s.delivered ++ reply.data }
    | .status asked garbage answer status =>
      let (_, received, tcp) := tcp.status asked garbage answer status
      { s with tcp := some tcp, received := s.received ++ received }
    | .close answer => { s with tcp := none, put := s.put ++ (tcp.close answer).1 }

/-- A channel that was just opened. -/
def start (build : Build) (connectionIsServer : Bool) : Session where
  tcp := some { build, translationMode := TRANSLATION_MODE_NONE, connectionIsServer }

def after (commands : List Command) (s : Session) : Session :=
  (Machine.runTotal (fun command s => ((), step command s)) commands s).2

/-- Each write puts its own data on the socket, as far as the socket takes it, and a close
nothing; what is delivered is the front of what was received. -/
structure NothingLostOrRepeated (s : Session) : Prop where
  put : s.put = s.written
  delivered : s.delivered <+: s.received

/-- A receive of `len` bytes into the empty buffer fails, or it really comes from the socket and
nothing that came before was dropped. -/
def ReceivesNext (answer : Received) (len : Nat) (s : Session) : Prop :=
  len = 0 ∨ answer.connected = false ∨ answer.reset ∨ answer.actualLen len ≠ len ∨
    answer.bytes ≠ none ∧ s.delivered = s.received

/-- While `transmitBuffer` holds the data of a write that failed, the socket takes nothing; what is
in the buffer is enough for a read; and a receive gives the next bytes. -/
def Regular (command : Command) (s : Session) : Prop :=
  ∀ tcp, s.tcp = some tcp →
    match command with
    | .write data answer =>
      tcp.transmitBuffer = [] ∨ answer.connected = false ∨
        answer.count = 0 ∧ ¬ 65536 ∣ (tcp.transmitBuffer ++ data.val).length
    | .read numBytes _ _ answer =>
      if tcp.receiveBuffer = [] then ReceivesNext answer numBytes.toNat s
      else numBytes.toNat ≤ tcp.receiveBuffer.length
    | .status asked _ answer status =>
      tcp.receiveBuffer = [] → (tcp.waiting asked status).rxBytesWaiting > 0 →
        ReceivesNext answer (tcp.waiting asked status).rxBytesWaiting s
    | .close answer => tcp.transmitBuffer = [] ∨ answer.connected = false ∨ answer.count = 0

/-! ## What one command does -/

section Steps

variable {tcp : NetworkProtocolTCP}

theorem translate_transmit_none (mode : tcp.translationMode = TRANSLATION_MODE_NONE) :
    translateTransmitBuffer tcp.build tcp.translationMode tcp.transmitBuffer =
      (tcp.transmitBuffer, UInt16.ofNat tcp.transmitBuffer.length) := by
  rw [mode, translateTransmitBuffer, transmitted, if_pos rfl]

/-- The socket takes the front of the buffer, and the channel keeps its other parts. -/
theorem write_put (mode : tcp.translationMode = TRANSLATION_MODE_NONE) (answer : Accepted)
    (len : UInt16) :
    (tcp.write answer len).2.1 = (if answer.connected then tcp.transmitBuffer.take
        (min answer.count (tcp.transmitBuffer.length % 65536)) else []) ∧
      (tcp.write answer len).2.2.receiveBuffer = tcp.receiveBuffer ∧
      (tcp.write answer len).2.2.translationMode = tcp.translationMode := by
  rw [write, translate_transmit_none mode]
  cases answer.connected with
  | false => exact ⟨rfl, rfl, rfl⟩
  | true =>
    simp only [Bool.true_eq_false, if_false, if_true]
    split_ifs <;> exact ⟨rfl, rfl, rfl⟩

/-- A write is reported as good if the socket takes all of the buffer. -/
theorem write_good (mode : tcp.translationMode = TRANSLATION_MODE_NONE) {answer : Accepted}
    {len : UInt16} (connected : answer.connected = true) (good : (tcp.write answer len).1 = false) :
    tcp.transmitBuffer.length % 65536 ≤ answer.count ∨ tcp.transmitBuffer.length % 65536 = 0 := by
  rw [write, translate_transmit_none mode] at good
  simp only [connected, Bool.true_eq_false, if_false, UInt16.toNat_ofNat'] at good
  by_cases reset : answer.reset
  · rw [if_pos reset] at good
    right
    have zero : UInt16.ofNat tcp.transmitBuffer.length = 0 := by simpa using good
    simpa using congrArg UInt16.toNat zero
  · rw [if_neg reset] at good
    by_cases short : min answer.count (tcp.transmitBuffer.length % 65536) ≠
        tcp.transmitBuffer.length % 65536
    · rw [if_pos short] at good
      exact absurd good (by simp)
    · exact .inl (min_eq_right_iff.mp (not_not.mp short))

/-- Into the empty transmit buffer, or with nothing taken, a write puts its own data. -/
theorem write_own (mode : tcp.translationMode = TRANSLATION_MODE_NONE) (data : Frame)
    (answer : Accepted)
    (regular : tcp.transmitBuffer = [] ∨ answer.connected = false ∨
      answer.count = 0 ∧ ¬ 65536 ∣ (tcp.transmitBuffer ++ data.val).length)
    {err : Bool} {put : List UInt8} {tcp' : NetworkProtocolTCP}
    (write : { tcp with transmitBuffer := tcp.transmitBuffer ++ data.val }.write answer
      (UInt16.ofNat data.val.length) = (err, put, tcp')) :
    put = if err then data.val.take put.length else data.val := by
  have same : put = (if answer.connected then (tcp.transmitBuffer ++ data.val).take
      (min answer.count ((tcp.transmitBuffer ++ data.val).length % 65536)) else []) := by
    have puts := (@write_put { tcp with transmitBuffer := tcp.transmitBuffer ++ data.val } mode answer
      (UInt16.ofNat data.val.length)).1
    rw [write] at puts
    exact puts
  have good := @write_good { tcp with transmitBuffer := tcp.transmitBuffer ++ data.val } mode answer
    (UInt16.ofNat data.val.length)
  rw [write] at good
  by_cases connected : answer.connected = true
  · rw [if_pos connected] at same
    rcases regular with fresh | refused | ⟨nothing, whole⟩
    · rw [fresh, List.nil_append, Nat.mod_eq_of_lt data.property] at same
      cases err with
      | true => rw [if_pos rfl, same, List.length_take, Nat.min_assoc, Nat.min_self]
      | false =>
        have all : data.val.length ≤ answer.count := by
          have taken := good connected rfl
          simp only [fresh, List.nil_append, Nat.mod_eq_of_lt data.property] at taken
          omega
        rw [if_neg (by decide), same, Nat.min_eq_right all, List.take_length]
    · rw [connected] at refused
      exact absurd refused (by decide)
    · rw [nothing, Nat.zero_min, List.take_zero] at same
      cases err with
      | true => rw [if_pos rfl, same, List.length_nil, List.take_zero]
      | false =>
        refine absurd (Nat.dvd_of_mod_eq_zero ?_) whole
        have taken := good connected rfl
        dsimp only at taken
        omega
  · rw [if_neg connected] at same
    cases err with
    | true => rw [if_pos rfl, same, List.length_nil, List.take_zero]
    | false =>
      have empty : UInt16.ofNat data.val.length = 0 := by
        rw [NetworkProtocolTCP.write, if_pos (by simpa using connected)] at write
        simpa using congrArg Prod.fst write
      have length : data.val.length = 0 := by
        have zero := congrArg UInt16.toNat empty
        simpa [Nat.mod_eq_of_lt data.property] using zero
      rw [same, if_neg (by decide), List.eq_nil_of_length_eq_zero length]

theorem baseRead_none (mode : tcp.translationMode = TRANSLATION_MODE_NONE) :
    tcp.baseRead = (false, { tcp with error := NETWORK_ERROR_SUCCESS }) := by
  rw [baseRead, mode, translateReceiveBuffer_eq, if_pos rfl, ← mode]

/-- A read that finds bytes in the buffer leaves them. -/
theorem read_left (mode : tcp.translationMode = TRANSLATION_MODE_NONE)
    (left : tcp.receiveBuffer ≠ []) (garbage : Nat → UInt8) (answer : Received) (len : Nat) :
    tcp.read garbage answer len = (false, { tcp with error := NETWORK_ERROR_SUCCESS }) := by
  rw [read, if_neg (by simpa using left), baseRead_none mode]

/-- A receive into the empty buffer fails, or it fetches all that was asked for. -/
theorem read_empty (mode : tcp.translationMode = TRANSLATION_MODE_NONE)
    (empty : tcp.receiveBuffer = []) (garbage : Nat → UInt8) (answer : Received) (len : Nat) :
    (∃ error, tcp.read garbage answer len = (true, { tcp with error })) ∨
      answer.connected = true ∧ answer.reset = false ∧ answer.actualLen len = len ∧
        tcp.read garbage answer len = (false, { tcp with
          receiveBuffer := answer.newData len garbage, error := NETWORK_ERROR_SUCCESS }) := by
  rw [read, if_pos (by rw [empty]; rfl)]
  by_cases connected : answer.connected = false
  · exact .inl ⟨_, if_pos connected⟩
  rw [if_neg connected]
  by_cases reset : answer.reset
  · exact .inl ⟨_, if_pos reset⟩
  rw [if_neg reset]
  by_cases short : answer.actualLen len ≠ len
  · exact .inl ⟨_, if_pos short⟩
  · right
    refine ⟨by simpa using connected, by simpa using reset, not_not.mp short, ?_⟩
    rw [if_neg short, empty, List.nil_append]
    refine baseRead_none ?_
    exact mode

/-- What was received whole is the block. -/
theorem newData_whole {answer : Received} {len : Nat} (some : answer.bytes ≠ none)
    (whole : answer.actualLen len = len) (garbage : Nat → UInt8) :
    (answer.data len).length = len ∧ answer.newData len garbage = answer.data len := by
  cases bytes : answer.bytes with
  | none => exact absurd bytes some
  | some b =>
    have length : (answer.data len).length = len := by
      rw [Received.actualLen, bytes] at whole
      rw [Received.data, bytes]
      exact whole
    exact ⟨length, by rw [Received.newData, List.take_left' length]⟩

end Steps

/-! ## What a run keeps -/

/-- What is known of a session: also what is in the buffer was received next. -/
structure Kept (s : Session) : Prop where
  exact : NothingLostOrRepeated s
  mode : ∀ tcp, s.tcp = some tcp → tcp.translationMode = TRANSLATION_MODE_NONE
  next : ∀ tcp, s.tcp = some tcp → s.delivered ++ tcp.receiveBuffer <+: s.received

section Run

variable {s : Session} {tcp : NetworkProtocolTCP}

theorem kept_write (h : Kept s) (channel : s.tcp = some tcp) (data : Frame) (answer : Accepted)
    (regular : Regular (.write data answer) s) : Kept (step (.write data answer) s) := by
  have mode := h.mode tcp channel
  have puts := @write_put { tcp with transmitBuffer := tcp.transmitBuffer ++ data.val } mode answer
    (UInt16.ofNat data.val.length)
  have own := @write_own tcp mode data answer (regular tcp channel)
  simp only [step, channel]
  generalize { tcp with transmitBuffer := tcp.transmitBuffer ++ data.val }.write answer
    (UInt16.ofNat data.val.length) = result at own puts
  obtain ⟨err, put, tcp'⟩ := result
  refine ⟨⟨?_, h.exact.delivered⟩, ?_, ?_⟩
  · exact congrArg₂ (· ++ ·) h.exact.put (own rfl)
  · rintro _ ⟨⟩
    exact puts.2.2.trans mode
  · rintro _ ⟨⟩
    rw [show tcp'.receiveBuffer = tcp.receiveBuffer from puts.2.1]
    exact h.next tcp channel

/-- A receive that is regular leaves what is delivered and what is in the buffer the front of what
was received. -/
theorem next_receive (h : Kept s) (channel : s.tcp = some tcp) (empty : tcp.receiveBuffer = [])
    (garbage : Nat → UInt8) (answer : Received) (len : Nat) (regular : ReceivesNext answer len s) :
    (tcp.read garbage answer len).2.translationMode = TRANSLATION_MODE_NONE ∧
      s.delivered ++ (tcp.read garbage answer len).2.receiveBuffer <+:
        s.received ++ tcp.taken answer len ∧
      ((tcp.read garbage answer len).1 = true ∧ (tcp.read garbage answer len).2.receiveBuffer = [] ∨
        (tcp.read garbage answer len).1 = false ∧
          (tcp.read garbage answer len).2.receiveBuffer.length = len) := by
  have mode := h.mode tcp channel
  have front : s.delivered ++ tcp.receiveBuffer <+: s.received ++ tcp.taken answer len :=
    (h.next tcp channel).trans (List.prefix_append _ _)
  rcases read_empty mode empty garbage answer len with ⟨error, failed⟩ |
    ⟨connected, reset, whole, fetched⟩
  · rw [failed]
    exact ⟨mode, front, .inl ⟨rfl, empty⟩⟩
  · rw [fetched]
    refine ⟨mode, ?_⟩
    dsimp only
    by_cases none : len = 0
    · have nothing : answer.newData len garbage = [] := by
        rw [Received.newData, none, List.take_zero]
      rw [nothing]
      rw [empty] at front
      exact ⟨front, .inr ⟨rfl, none.symm⟩⟩
    · have whole' : answer.bytes ≠ .none ∧ s.delivered = s.received := by
        rcases regular with zero | refused | reset' | short | next
        · exact absurd zero none
        · rw [connected] at refused
          exact absurd refused (by decide)
        · rw [reset] at reset'
          exact absurd reset' (by decide)
        · exact absurd whole short
        · exact next
      obtain ⟨length, block⟩ := newData_whole whole'.1 whole garbage
      rw [block, taken, if_pos ⟨empty, connected⟩, whole'.2]
      exact ⟨List.prefix_refl _, .inr ⟨rfl, length⟩⟩

theorem step_read (channel : s.tcp = some tcp) {numBytes : UInt16} {garbage : Nat → UInt8}
    {answer : Received} {err : Bool} {tcp' : NetworkProtocolTCP} (heap : Nat → UInt8)
    (read : tcp.read garbage answer numBytes.toNat = (err, tcp')) :
    step (.read numBytes heap garbage answer) s = { s with
      tcp := some { tcp' with receiveBuffer := tcp'.receiveBuffer.drop numBytes.toNat }
      received := s.received ++ tcp.taken answer numBytes.toNat
      delivered :=
        if err then s.delivered
        else s.delivered ++ sentFrom tcp'.receiveBuffer heap numBytes.toNat } := by
  simp only [step, channel, Device.Channel.sioRead, NetworkProtocolTCP.channel, read]

theorem kept_read (h : Kept s) (channel : s.tcp = some tcp) (numBytes : UInt16)
    (heap garbage : Nat → UInt8) (answer : Received)
    (regular : Regular (.read numBytes heap garbage answer) s) :
    Kept (step (.read numBytes heap garbage answer) s) := by
  have mode := h.mode tcp channel
  have asked := regular tcp channel
  -- What the read leaves in front: the bytes of the buffer, and enough of them if it succeeds.
  have reads : ∃ err tcp', tcp.read garbage answer numBytes.toNat = (err, tcp') ∧
      tcp'.translationMode = TRANSLATION_MODE_NONE ∧
      s.delivered ++ tcp'.receiveBuffer <+: s.received ++ tcp.taken answer numBytes.toNat ∧
      (err = true ∧ tcp'.receiveBuffer = [] ∨
        err = false ∧ numBytes.toNat ≤ tcp'.receiveBuffer.length) := by
    by_cases empty : tcp.receiveBuffer = []
    · simp only [if_pos empty] at asked
      obtain ⟨mode', next, length⟩ := next_receive h channel empty garbage answer _ asked
      exact ⟨_, _, rfl, mode', next, length.imp_right fun same => ⟨same.1, same.2.ge⟩⟩
    · simp only [if_neg empty] at asked
      exact ⟨_, _, read_left mode empty garbage answer _, mode,
        (h.next tcp channel).trans (List.prefix_append _ _), .inr ⟨rfl, asked⟩⟩
  obtain ⟨err, tcp', read, mode', next, failed⟩ := reads
  rw [step_read channel heap read]
  have split : (if err then s.delivered
      else s.delivered ++ sentFrom tcp'.receiveBuffer heap numBytes.toNat) ++
        tcp'.receiveBuffer.drop numBytes.toNat = s.delivered ++ tcp'.receiveBuffer := by
    rcases failed with ⟨rfl, empty⟩ | ⟨rfl, enough⟩
    · rw [if_pos rfl, empty, List.drop_nil]
    · rw [if_neg (by decide), sentFrom_of_le heap enough, List.append_assoc, List.take_append_drop]
  rw [← split] at next
  refine ⟨⟨h.exact.put, (List.prefix_append _ _).trans next⟩, ?_, ?_⟩
  · rintro _ ⟨⟩
    exact mode'
  · rintro _ ⟨⟩
    exact next

theorem kept_status (h : Kept s) (channel : s.tcp = some tcp) (asked : Asked)
    (garbage : Nat → UInt8) (answer : Received) (status : NetworkStatus)
    (regular : Regular (.status asked garbage answer status) s) :
    Kept (step (.status asked garbage answer status) s) := by
  have mode := h.mode tcp channel
  simp only [step, channel, NetworkProtocolTCP.status]
  by_cases reads : tcp.receiveBuffer.length = 0 ∧ (tcp.waiting asked status).rxBytesWaiting > 0
  · simp only [if_pos reads]
    have empty : tcp.receiveBuffer = [] := List.eq_nil_of_length_eq_zero reads.1
    obtain ⟨mode', next, -⟩ := next_receive h channel empty garbage answer _
      (regular tcp channel empty reads.2)
    refine ⟨⟨h.exact.put, (List.prefix_append _ _).trans next⟩, ?_, ?_⟩
    · rintro _ ⟨⟩
      exact mode'
    · rintro _ ⟨⟩
      exact next
  · simp only [if_neg reads, List.append_nil]
    refine ⟨⟨h.exact.put, h.exact.delivered⟩, ?_, ?_⟩
    · rintro _ ⟨⟩
      exact mode
    · rintro _ ⟨⟩
      exact h.next tcp channel

theorem kept_close (h : Kept s) (channel : s.tcp = some tcp) (answer : Accepted)
    (regular : Regular (.close answer) s) : Kept (step (.close answer) s) := by
  have mode := h.mode tcp channel
  have nothing : (tcp.close answer).1 = [] := by
    rw [close]
    by_cases kept : tcp.transmitBuffer ≠ []
    · rw [if_pos kept, (write_put mode answer _).1]
      rcases (regular tcp channel).resolve_left kept with refused | nothing
      · rw [refused, if_neg (by decide)]
      · rw [nothing, Nat.zero_min, List.take_zero, ite_self]
    · rw [if_neg kept]
  simp only [step, channel, nothing, List.append_nil]
  refine ⟨⟨h.exact.put, h.exact.delivered⟩, ?_, ?_⟩
  · rintro _ ⟨⟩
  · rintro _ ⟨⟩

theorem kept_step (h : Kept s) (command : Command) (regular : Regular command s) :
    Kept (step command s) := by
  cases channel : s.tcp with
  | none =>
    rw [step, channel]
    exact h
  | some tcp =>
    cases command with
    | write data answer => exact kept_write h channel data answer regular
    | read numBytes heap garbage answer =>
      exact kept_read h channel numBytes heap garbage answer regular
    | status asked garbage answer status =>
      exact kept_status h channel asked garbage answer status regular
    | close answer => exact kept_close h channel answer regular

theorem kept_start (build : Build) (connectionIsServer : Bool) :
    Kept (start build connectionIsServer) := by
  refine ⟨⟨rfl, List.prefix_refl _⟩, ?_, ?_⟩
  · rintro _ ⟨⟩
    rfl
  · rintro _ ⟨⟩
    exact List.prefix_refl _

/-- Whatever has happened so far, a run whose commands are all regular. -/
theorem kept_after (commands : List Command) (h : Kept s)
    (regular : Machine.Admissible (fun command s => ((), step command s)) Regular commands s) :
    Kept (after commands s) := by
  induction commands generalizing s with
  | nil => exact h
  | cons command commands ih => exact ih (kept_step h command regular.1) regular.2

end Run

/-- In a run whose commands are all regular, each write puts its own data on the socket and what
is delivered was received, without a gap and in order. -/
theorem nothing_lost_or_repeated (build : Build) (connectionIsServer : Bool)
    (commands : List Command)
    (regular : Machine.Admissible (fun command s => ((), step command s)) Regular commands
      (start build connectionIsServer)) :
    NothingLostOrRepeated (after commands (start build connectionIsServer)) :=
  (kept_after commands (kept_start build connectionIsServer) regular).exact

/-- A write that the socket takes whole, a receive of what was asked for, a write of which the
socket takes the first byte, and a close on the lost connection. -/
theorem short_send_then_close :
    NothingLostOrRepeated (after [.write ⟨[0x41, 0x42], by decide⟩ ⟨true, 2, false⟩,
      .read 1 (fun _ => 0) (fun _ => 0) ⟨true, some [0x43], false⟩,
      .write ⟨[0x44, 0x45], by decide⟩ ⟨true, 1, false⟩, .close ⟨false, 0, true⟩]
      (start .atari false)) := by
  refine nothing_lost_or_repeated .atari false _ ⟨?_, ?_, ?_, ?_, trivial⟩
  · rintro _ ⟨⟩
    exact .inl rfl
  · rintro _ ⟨⟩
    exact .inr (.inr (.inr (.inr ⟨by decide, rfl⟩)))
  · rintro _ ⟨⟩
    exact .inl rfl
  · rintro _ ⟨⟩
    exact .inr (.inl rfl)

/-- After a short send the next write sends the first byte again. -/
theorem short_send_repeated :
    (after [.write ⟨[0x41, 0x42], by decide⟩ ⟨true, 1, false⟩,
      .write ⟨[0x43], by decide⟩ ⟨true, 3, false⟩] (start .atari false)).put =
        [0x41, 0x41, 0x42, 0x43] ∧
    ¬ NothingLostOrRepeated (after [.write ⟨[0x41, 0x42], by decide⟩ ⟨true, 1, false⟩,
      .write ⟨[0x43], by decide⟩ ⟨true, 3, false⟩] (start .atari false)) := by
  refine ⟨by decide, fun exact => ?_⟩
  have put := exact.put
  revert put
  decide

end Session

end NetworkProtocolTCP

end FujiNet.NetworkProtocol
