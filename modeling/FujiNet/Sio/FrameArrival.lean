import FujiNet.Sio.SyncRequest

/-!
# The bytes that a command frame is read from

Which bytes a read returns is decided before it starts: those in the buffer, and behind them
the data that the hub sends until a wait for data runs out of time.
-/

namespace FujiNet.NetSIO

/-- The data in a message. -/
def Message.bytes : Message → List UInt8
  | .dataByte b | .dataByteSync _ b => [b]
  | .dataBlock bytes => bytes
  | _ => []

/-- The rate of the peer after a message. -/
def Message.rate (baudPeer : Nat) : Message → Nat
  | .speedChange baud => baud
  | _ => baudPeer

/-- The data that comes before a wait runs out of time. -/
def delivered (baud : Nat) : Nat → List Poll → List UInt8
  | _, [] => []
  | baudPeer, p :: polls =>
    if !p.readable then []
    else
      match p.message? with
      | none => delivered baud baudPeer polls
      | some message =>
        message.bytes.map (NetSioPort.incoming baud baudPeer) ++
          delivered baud (message.rate baudPeer) polls

/-- What a read takes its bytes from. -/
def NetSioPort.arriving (s : NetSioPort) : List UInt8 :=
  s.rxbuf ++ delivered s.baud s.baudPeer s.polls

theorem forall_mem_ite {α : Type*} {c : Prop} [Decidable c] {a b : Option α} {Q : α → Prop}
    (first : ∀ m ∈ a, Q m) (second : ∀ m ∈ b, Q m) : ∀ m ∈ (if c then a else b), Q m := by
  split_ifs
  · exact first
  · exact second

/-- A datagram fits in the buffer. -/
theorem length_bytes_le {p : Poll} {message : Message} (h : p.message? = some message) :
    message.bytes.length ≤ 512 := by
  have short : (p.datagram.take RXBUF_SIZE).length ≤ 514 := List.length_take_le _ _
  unfold Poll.message? at h
  generalize p.datagram.take RXBUF_SIZE = datagram at h short
  cases datagram with
  | nil => simp at h
  | cons kind rest =>
    have block : (rest.take (rest.length + 1 - 2)).length ≤ 512 := by
      rw [List.length_cons] at short
      exact Nat.le_trans (List.length_take_le _ _) (by omega)
    have one : (1 : Nat) ≤ 512 := by decide
    have none : (0 : Nat) ≤ 512 := by decide
    revert message
    change ∀ m ∈ (_ : Option Message), m.bytes.length ≤ 512
    dsimp only
    repeat' refine forall_mem_ite ?_ ?_
    all_goals rintro _ ⟨⟩
    all_goals first | exact block | exact one | exact none

namespace NetSioPort

/-- Bytes that arrive while there is room. -/
theorem foldl_arrive_eq (bytes : List UInt8) (s : NetSioPort)
    (room : s.rxbuf.length + bytes.length ≤ 1024) :
    bytes.foldl arrive s =
      { s with rxbuf := s.rxbuf ++ bytes.map (incoming s.baud s.baudPeer) } := by
  induction bytes generalizing s with
  | nil => simp
  | cons b bytes ih =>
    have one : s.arrive b = { s with rxbuf := s.rxbuf ++ [incoming s.baud s.baudPeer b] } := by
      rw [List.length_cons] at room
      rw [arrive, rxbufferPut, if_neg (by omega)]
    rw [List.foldl_cons, one, ih]
    · simp
    · simp at room ⊢
      omega

/-- A message that finds the buffer empty. -/
theorem arriving_handleMessage {message : Message} {s : NetSioPort} (empty : s.rxbuf = [])
    (few : message.bytes.length ≤ 512) :
    Yields (s.handleMessage message) fun t => t.arriving =
      message.bytes.map (incoming s.baud s.baudPeer) ++
        delivered s.baud (message.rate s.baudPeer) s.polls := by
  cases message with
  | coldReset => exact .none
  | commandOn =>
    refine .some ?_
    simp [arriving, Message.bytes, Message.rate]
  | dataByte b =>
    have one := foldl_arrive_eq [b] s (by simp [empty])
    rw [List.foldl_cons, List.foldl_nil] at one
    refine .some ?_
    rw [one, empty]
    rfl
  | dataByteSync num b =>
    have one := foldl_arrive_eq [b] { s with syncRequestNum := some num } (by simp [empty])
    rw [List.foldl_cons, List.foldl_nil] at one
    refine .some ?_
    rw [one, empty]
    rfl
  | dataBlock bytes =>
    have room : s.rxbuf.length + bytes.length ≤ 1024 := by
      rw [empty, List.length_nil, Nat.zero_add]
      exact Nat.le_trans few (by decide)
    refine .some ?_
    rw [foldl_arrive_eq bytes s room, empty]
    rfl
  | _ =>
    refine .some ?_
    simp [arriving, empty, Message.bytes, Message.rate]

/-! ## Reading -/

/-- The command frame has not been answered, and `bytes` are still to be read. -/
structure Reads (n : UInt8) (bytes : List UInt8) (s : NetSioPort) : Prop where
  follows : Follows n (some n) false Phase.Unanswered s.link
  arriving : s.arriving = bytes

section Reads

variable {n : UInt8} {bytes : List UInt8} {s : NetSioPort}

theorem start_unanswered : Phase.Unanswered .waiting → some n = some n ∧ false = false :=
  fun _ => ⟨rfl, rfl⟩

theorem arriving_keepAlive {p : Poll} (calm : p.Calm) :
    (s.keepAlive p.alive).arriving = s.arriving := by
  rcases calm with idle | request
  · rw [idle]
    rfl
  · rw [request]
    rfl

/-- One message is read into the empty buffer. -/
theorem arriving_handlePoll {p : Poll} (initialized : s.initialized = true) (calm : p.Calm)
    (readable : p.readable = true) (empty : s.rxbuf = []) :
    Yields (s.handlePoll p) fun t =>
      t.arriving = delivered s.baud s.baudPeer (p :: s.polls) := by
  have resumed : s.resumeTest p.resume = s := by simp only [resumeTest, initialized, if_true]
  simp only [handlePoll, resumed, initialized, Bool.not_true, Bool.false_eq_true, if_false,
    delivered, readable]
  cases message : p.message? with
  | none =>
    refine .some ?_
    rw [arriving_keepAlive calm, arriving, empty]
    rfl
  | some m =>
    have data := arriving_handleMessage (s := s.log (.received m)) empty (length_bytes_le message)
    refine .map (data.mono fun t eq => ?_)
    rw [arriving_keepAlive calm, eq]
    rfl

theorem reads_handleNetsio {p : Poll} {polls : List Poll} (h : Reads n bytes s)
    (empty : s.rxbuf = []) (next : s.polls = p :: polls) (readable : p.readable = true) :
    Yields s.handleNetsio (Reads n bytes) := by
  refine ((follows_handleNetsio Phase.closed_unanswered start_unanswered h.follows).and ?_).mono
    fun t kept => ⟨kept.1, kept.2⟩
  have calm : ∀ q ∈ s.polls, q.Calm := h.follows.calm
  have initialized : s.initialized = true := h.follows.initialized
  rw [next] at calm
  simp only [handleNetsio, next]
  have moved := arriving_handlePoll (s := { s with polls }) initialized (calm p List.mem_cons_self)
    readable empty
  refine moved.mono fun t eq => eq.trans ?_
  rw [← h.arriving, arriving, empty, next]
  rfl

/-- The wait ends with a byte, or with nothing left to read. -/
theorem reads_waitForData (h : Reads n bytes s) :
    Yields s.waitForData fun r =>
      (r.1 = true → Reads n bytes r.2 ∧ r.2.rxbuf ≠ []) ∧
      (r.1 = false → Follows n (some n) false Phase.Unanswered r.2.link ∧ bytes = []) := by
  refine .run (I := Reads n bytes) h fun s h => ?_
  have fd : s.fd = true := h.follows.fd
  rw [dataPass]
  split_ifs with filled closed
  · exact .some ⟨fun _ => ⟨h, filled⟩, by rintro ⟨⟩⟩
  · simp [fd] at closed
  · have empty : s.rxbuf = [] := not_not.mp filled
    cases next : s.polls with
    | nil => exact .none
    | cons p polls =>
      dsimp only
      cases readable : p.readable with
      | true =>
        rw [Bool.not_true, if_neg (by simp)]
        exact .map (reads_handleNetsio h empty next readable)
      | false =>
        refine .some ⟨by rintro ⟨⟩, fun _ => ⟨?_, ?_⟩⟩
        · have calm : ∀ q ∈ s.polls, q.Calm := h.follows.calm
          rw [next] at calm
          exact { h.follows with calm := fun q mem => calm q (List.mem_cons_of_mem _ mem) }
        · rw [← h.arriving, arriving, empty, next, delivered, readable]
          rfl

/-- One byte is the first of those that are to be read. -/
theorem reads_read (h : Reads n bytes s) :
    Yields s.read fun r =>
      (∀ b, r.1 = some b → Reads n bytes.tail r.2 ∧ bytes.head? = some b) ∧
      (r.1 = none → Follows n (some n) false Phase.Unanswered r.2.link ∧ bytes = []) := by
  have initialized : s.initialized = true := h.follows.initialized
  rw [read, if_neg (by simp [initialized])]
  refine .map ((reads_waitForData h).mono ?_)
  rintro ⟨ready, t⟩ ⟨byte, ended⟩
  cases ready with
  | false =>
    refine ⟨?_, fun _ => ended rfl⟩
    rintro b ⟨⟩
  | true =>
    obtain ⟨reads, filled⟩ := byte rfl
    obtain ⟨b, rest, rxbuf⟩ := List.exists_cons_of_ne_nil filled
    obtain rfl : b :: (rest ++ delivered t.baud t.baudPeer t.polls) = bytes := by
      rw [← reads.arriving, arriving, rxbuf, List.cons_append]
    have first : t.rxbuf.head? = some b := by rw [rxbuf, List.head?_cons]
    refine ⟨fun c got => ?_, fun none => ?_⟩
    · obtain rfl : b = c := Option.some.inj (first.symm.trans got)
      exact ⟨⟨reads.follows, congrArg (·.tail ++ _) rxbuf⟩, rfl⟩
    · exact absurd (first.symm.trans none) (by simp)

/-- A block is read from the front of what arrives. -/
theorem reads_readLoop (h : Reads n bytes s) (k : Nat) :
    Yields (readLoop k s) fun r =>
      Follows n (some n) false Phase.Unanswered r.2.link ∧ r.1 = bytes.take k := by
  induction k generalizing s bytes with
  | zero => exact .some ⟨h.follows, rfl⟩
  | succ k ih =>
    rw [readLoop]
    refine .bind (reads_read h) ?_
    rintro ⟨result, t⟩ ⟨byte, ended⟩
    cases result with
    | none =>
      obtain ⟨follows, rfl⟩ := ended rfl
      exact .some ⟨follows, rfl⟩
    | some b =>
      obtain ⟨reads, first⟩ := byte b rfl
      obtain ⟨rest, rfl⟩ := List.head?_eq_some_iff.mp first
      exact .map ((ih reads).mono fun r kept => ⟨kept.1, congrArg (b :: ·) kept.2⟩)

/-- The command frame is the front of what arrives. -/
theorem readBytes_frame (h : Follows n (some n) false Phase.Unanswered s.link)
    (none : s.syncRequestNum = none) (k : Nat) :
    Yields (s.readBytes k) fun r =>
      Follows n (some n) false Phase.Unanswered r.2.link ∧ r.1 = s.arriving.take k := by
  have initialized : s.initialized = true := h.initialized
  rw [readBytes, if_neg (by simp [initialized])]
  simp only [none]
  exact reads_readLoop ⟨h, rfl⟩ k

end Reads

end NetSioPort

end FujiNet.NetSIO
