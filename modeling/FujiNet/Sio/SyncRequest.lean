import FujiNet.Control.Yields
import FujiNet.Sio.NetSio

/-!
# Sync requests

The hub ends a command frame with a sync request and stops the computer until the request is
answered. `Phase` follows one request over the history of the link. The phases are closed
under what the hub may send, so each operation needs one fact: whether it leaves the request
where it is or answers it.
-/

namespace FujiNet.NetSIO

/-! ## The course of a request -/

/-- How far a request has come. Outside are the histories in which the hub does not keep to
the protocol, or starts another command. -/
inductive Phase
  | waiting
  | pending
  | answered
  | outside
deriving DecidableEq, Repr

/-- The request in a message. -/
def Message.request? : Message → Option UInt8
  | .dataByteSync num _ | .commandOffSync num => some num
  | _ => none

/-- What the hub's messages make of the request `n`. It is the end of one command frame, the
hub waits for its answer, and its number is not used again. -/
def Phase.receive (n : UInt8) (phase : Phase) (message : Message) : Phase :=
  match phase with
  | waiting =>
    match message with
    | .commandOffSync num => if num = n then pending else outside
    | .commandOff | .commandOn => outside
    | _ => waiting
  | pending => if message = .commandOn ∨ message.request?.isSome then outside else pending
  | answered => if message = .commandOn ∨ message.request? = some n then outside else answered
  | outside => outside

/-- Whether a line of the history is the answer to the request `n`. -/
def Io.responds (n : UInt8) : Io → Bool
  | .sent datagram => datagram.headD 0 = NETSIO_SYNC_RESPONSE && datagram.getD 1 0 = n
  | .received _ | .charged _ => false

def Phase.next (n : UInt8) (phase : Phase) (io : Io) : Phase :=
  match io with
  | .received message => phase.receive n message
  | .sent _ => if phase = pending ∧ io.responds n then answered else phase
  | .charged _ => phase

/-- The phase of the request `n` after a history that starts in a command frame. -/
def phase (n : UInt8) (wire : List Io) : Phase := wire.foldl (Phase.next n) .waiting

/-- The number of answers to the request `n`. -/
def responses (n : UInt8) (wire : List Io) : Nat := wire.countP (Io.responds n)

section Phase

variable {n : UInt8} {wire : List Io} {io : Io} {P : Phase → Prop}

theorem phase_append : phase n (wire ++ [io]) = (phase n wire).next n io := by
  rw [phase, List.foldl_append]
  rfl

theorem responses_append :
    responses n (wire ++ [io]) = responses n wire + if io.responds n then 1 else 0 := by
  rw [responses, List.countP_append, List.countP_singleton]
  rfl

/-- A set of phases that the hub's messages do not lead out of. -/
def Closed (n : UInt8) (P : Phase → Prop) : Prop :=
  ∀ phase message, P phase → P (phase.receive n message)

namespace Phase

def Settled (phase : Phase) : Prop := phase = answered ∨ phase = outside

def Unsettled (phase : Phase) : Prop := phase = pending ∨ phase = outside

def Ended (phase : Phase) : Prop := phase ≠ waiting

def Unanswered (phase : Phase) : Prop := phase ≠ answered

def Lost (phase : Phase) : Prop := phase = outside

variable {message : Message}

/-- A command frame ends, is broken or goes on. -/
theorem receive_waiting (message : Message) :
    (∃ num, message = .commandOffSync num ∧
      waiting.receive n message = if num = n then pending else outside) ∨
    waiting.receive n message = outside ∨
    waiting.receive n message = waiting ∧ message ≠ .commandOff ∧ message ≠ .commandOn ∧
      ∀ num, message ≠ .commandOffSync num := by
  cases message with
  | commandOffSync num => exact .inl ⟨num, rfl, rfl⟩
  | commandOff => exact .inr (.inl rfl)
  | commandOn => exact .inr (.inl rfl)
  | _ => exact .inr (.inr ⟨rfl, by simp⟩)

theorem receive_pending : pending.receive n message =
    if message = .commandOn ∨ message.request?.isSome then outside else pending := rfl

theorem receive_answered : answered.receive n message =
    if message = .commandOn ∨ message.request? = some n then outside else answered := rfl

theorem receive_outside : outside.receive n message = outside := rfl

theorem closed_lost : Closed n Lost := by
  rintro _ message rfl
  rfl

theorem closed_settled : Closed n Settled := by
  rintro _ message (rfl | rfl)
  · rw [receive_answered]
    split_ifs
    · exact .inr rfl
    · exact .inl rfl
  · exact .inr rfl

theorem closed_unsettled : Closed n Unsettled := by
  rintro _ message (rfl | rfl)
  · rw [receive_pending]
    split_ifs
    · exact .inr rfl
    · exact .inl rfl
  · exact .inr rfl

theorem closed_ended : Closed n Ended := by
  intro phase message ended
  cases phase with
  | waiting => exact absurd rfl ended
  | pending =>
    rcases closed_unsettled (n := n) pending message (.inl rfl) with next | next <;> simp [Ended, next]
  | answered =>
    rcases closed_settled (n := n) answered message (.inl rfl) with next | next <;> simp [Ended, next]
  | outside => simp [receive_outside, Ended]

theorem closed_unanswered : Closed n Unanswered := by
  intro phase message unanswered
  cases phase with
  | waiting =>
    obtain ⟨num, -, next⟩ | next | ⟨next, -⟩ := receive_waiting (n := n) message
    · rw [next]
      split_ifs <;> simp [Unanswered]
    · simp [Unanswered, next]
    · simp [Unanswered, next]
  | pending =>
    rcases closed_unsettled (n := n) pending message (.inl rfl) with next | next <;>
      simp [Unanswered, next]
  | answered => exact absurd rfl unanswered
  | outside => simp [receive_outside, Unanswered]

theorem waiting_of_receive {phase : Phase} {message : Message}
    (next : phase.receive n message = waiting) :
    phase = waiting ∧ message ≠ .commandOff ∧ message ≠ .commandOn ∧
      ∀ num, message ≠ .commandOffSync num := by
  cases phase with
  | waiting =>
    obtain ⟨num, -, ends⟩ | breaks | ⟨-, goesOn⟩ := receive_waiting (n := n) message
    · rw [ends] at next
      split_ifs at next
    · simp [breaks] at next
    · exact ⟨rfl, goesOn⟩
  | pending =>
    rw [receive_pending] at next
    split_ifs at next
  | answered =>
    rw [receive_answered] at next
    split_ifs at next
  | outside => simp [receive_outside] at next

theorem pending_of_receive {phase : Phase} {message : Message}
    (next : phase.receive n message = pending) :
    phase = waiting ∧ message = .commandOffSync n ∨
      phase = pending ∧ message ≠ .commandOn ∧ message.request? = none := by
  cases phase with
  | waiting =>
    obtain ⟨num, rfl, ends⟩ | breaks | ⟨goesOn, -⟩ := receive_waiting (n := n) message
    · rw [ends] at next
      split_ifs at next with same
      exact .inl ⟨rfl, by rw [same]⟩
    · simp [breaks] at next
    · simp [goesOn] at next
  | pending =>
    rw [receive_pending] at next
    split_ifs at next with broken
    rw [not_or, Option.not_isSome_iff_eq_none] at broken
    exact .inr ⟨rfl, broken⟩
  | answered =>
    rw [receive_answered] at next
    split_ifs at next
  | outside => simp [receive_outside] at next

theorem answered_of_receive {phase : Phase} {message : Message}
    (next : phase.receive n message = answered) :
    phase = answered ∧ message ≠ .commandOn ∧ message.request? ≠ some n := by
  cases phase with
  | waiting => exact absurd next (closed_unanswered waiting message (by simp [Unanswered]))
  | pending => exact absurd next (closed_unanswered pending message (by simp [Unanswered]))
  | answered =>
    rw [receive_answered] at next
    split_ifs at next with broken
    rw [not_or] at broken
    exact ⟨rfl, broken⟩
  | outside => simp [receive_outside] at next

end Phase

end Phase

/-! ## What a request is about in the port -/

/-- The part of the port that a request depends on. -/
structure Link where
  initialized : Bool
  fd : Bool
  polls : List Poll
  writes : List Bool
  wire : List Io
  asserted : Bool
  request : Option UInt8
  writeSize : Option Nat

def NetSioPort.link (s : NetSioPort) : Link :=
  ⟨s.initialized, s.fd, s.polls, s.writes, s.wire, s.commandAsserted, s.syncRequestNum,
    s.syncWriteSize⟩

/-- A message as far as requests go. -/
def Link.receive (message : Message) (l : Link) : Link :=
  let l := { l with wire := l.wire ++ [.received message] }
  match message with
  | .dataByteSync num _ => { l with request := some num }
  | .commandOffSync num => { l with request := some num, asserted := false }
  | .commandOff => { l with asserted := false }
  | .commandOn => { l with asserted := true, request := none, writeSize := none }
  | _ => l

/-- A poll that does not cut the link. -/
def Poll.Calm (p : Poll) : Prop := p.alive = .idle ∨ p.alive = .request

/-- The invariant: the link is up, the request `n` is in one of the phases `P`, and the port
knows about it. While it is pending the port has `owed` as its request, and after a late
acknowledge also a size. -/
structure Follows (n : UInt8) (owed : Option UInt8) (late : Bool) (P : Phase → Prop) (l : Link) :
    Prop where
  initialized : l.initialized = true
  fd : l.fd = true
  calm : ∀ p ∈ l.polls, p.Calm
  writes : l.writes = []
  allowed : P (phase n l.wire)
  waiting : phase n l.wire = .waiting → responses n l.wire = 0 ∧ l.asserted = true
  pending : phase n l.wire = .pending → responses n l.wire = 0 ∧ l.asserted = false ∧
    l.request = owed ∧ (late = true → l.writeSize.isSome)
  answered : phase n l.wire = .answered → responses n l.wire = 1 ∧ l.request ≠ some n

section Follows

variable {n : UInt8} {owed : Option UInt8} {late : Bool} {P Q : Phase → Prop} {l : Link}
  {s : NetSioPort}

theorem Follows.mono (h : Follows n owed late P l) (weaker : ∀ phase, P phase → Q phase) :
    Follows n owed late Q l :=
  { h with allowed := weaker _ h.allowed }

/-- A line that is neither received nor an answer to the request. -/
theorem Follows.append (h : Follows n owed late P l) {io : Io}
    (silent : io.responds n = false) (own : ∀ message, io ≠ .received message) :
    Follows n owed late P { l with wire := l.wire ++ [io] } := by
  have samePhase : phase n (l.wire ++ [io]) = phase n l.wire := by
    rw [phase_append]
    cases io with
    | received message => exact absurd rfl (own message)
    | sent datagram => simp [Phase.next, silent]
    | charged left => rfl
  have sameCount : responses n (l.wire ++ [io]) = responses n l.wire := by
    rw [responses_append, silent]
    simp
  constructor
  · exact h.initialized
  · exact h.fd
  · exact h.calm
  · exact h.writes
  · rw [samePhase]
    exact h.allowed
  · rw [samePhase, sameCount]
    exact h.waiting
  · rw [samePhase, sameCount]
    exact h.pending
  · rw [samePhase, sameCount]
    exact h.answered

/-- What the hub may send keeps the invariant. A frame's end is only met with nothing owed
before. -/
theorem Follows.receive (h : Follows n owed late P l) (closed : Closed n P)
    (start : P .waiting → owed = some n ∧ late = false) (message : Message) :
    Follows n owed late P (l.receive message) := by
  have wire : (l.receive message).wire = l.wire ++ [.received message] := by
    cases message <;> rfl
  have nextPhase : phase n (l.receive message).wire = (phase n l.wire).receive n message := by
    rw [wire, phase_append]
    rfl
  have sameCount : responses n (l.receive message).wire = responses n l.wire := by
    rw [wire, responses_append]
    rfl
  have unchanged : (l.receive message).initialized = l.initialized ∧
      (l.receive message).fd = l.fd ∧ (l.receive message).polls = l.polls ∧
      (l.receive message).writes = l.writes := by
    cases message <;> exact ⟨rfl, rfl, rfl, rfl⟩
  obtain ⟨initialized, fd, polls, writes⟩ := unchanged
  refine ⟨initialized.trans h.initialized, fd.trans h.fd, ?_, writes.trans h.writes, ?_, ?_, ?_, ?_⟩
  · rw [polls]
    exact h.calm
  · rw [nextPhase]
    exact closed _ message h.allowed
  · intro next
    rw [nextPhase] at next
    obtain ⟨before, noOff, noOn, noSync⟩ := Phase.waiting_of_receive next
    obtain ⟨none, asserted⟩ := h.waiting before
    refine ⟨sameCount.trans none, ?_⟩
    cases message with
    | commandOff => exact absurd rfl noOff
    | commandOn => exact absurd rfl noOn
    | commandOffSync num => exact absurd rfl (noSync num)
    | _ => exact asserted
  · intro next
    rw [nextPhase] at next
    rcases Phase.pending_of_receive next with ⟨before, rfl⟩ | ⟨before, noOn, noRequest⟩
    · have allowed := h.allowed
      rw [before] at allowed
      obtain ⟨rfl, rfl⟩ := start allowed
      exact ⟨sameCount.trans (h.waiting before).1, rfl, rfl, by simp⟩
    · obtain ⟨none, released, request, size⟩ := h.pending before
      refine ⟨sameCount.trans none, ?_⟩
      cases message with
      | commandOn => exact absurd rfl noOn
      | dataByteSync num b => simp [Message.request?] at noRequest
      | commandOffSync num => simp [Message.request?] at noRequest
      | commandOff => exact ⟨rfl, request, size⟩
      | _ => exact ⟨released, request, size⟩
  · intro next
    rw [nextPhase] at next
    obtain ⟨before, noOn, otherRequest⟩ := Phase.answered_of_receive next
    obtain ⟨one, request⟩ := h.answered before
    refine ⟨sameCount.trans one, ?_⟩
    cases message with
    | commandOn => exact absurd rfl noOn
    | dataByteSync num b => exact otherRequest
    | commandOffSync num => exact otherRequest
    | _ => exact request

/-- Once the request is settled, what was owed and whether it was late do not matter. -/
theorem Follows.settle (h : Follows n owed late Phase.Settled l) {owed' : Option UInt8}
    {late' : Bool} : Follows n owed' late' Phase.Settled l := by
  refine { h with pending := fun pending => ?_ }
  rcases h.allowed with settled | settled
  · rw [settled] at pending
    simp at pending
  · rw [settled] at pending
    simp at pending

/-- Where no request is there, none is pending. -/
theorem Follows.settled (h : Follows n (some n) late Phase.Ended l) (none : l.request = none) :
    Follows n (some n) true Phase.Settled l := by
  have allowed : Phase.Settled (phase n l.wire) := by
    cases course : phase n l.wire with
    | waiting => exact absurd course h.allowed
    | pending =>
      obtain ⟨_, _, own, _⟩ := h.pending course
      rw [none] at own
      simp at own
    | answered => exact .inl rfl
    | outside => exact .inr rfl
  exact ({ h with allowed } : Follows n (some n) late Phase.Settled l).settle

end Follows

namespace NetSioPort

/-! ## Operations that leave the request where it is -/

section Steady

variable {n : UInt8} {owed : Option UInt8} {late : Bool} {P : Phase → Prop} {s : NetSioPort}
  {datagram : List UInt8}

theorem link_foldl_arrive (bytes : List UInt8) : (bytes.foldl arrive s).link = s.link := by
  induction bytes generalizing s with
  | nil => rfl
  | cons b bytes ih => exact ih

theorem link_handleMessage (message : Message) :
    Yields ((s.log (.received message)).handleMessage message) fun t =>
      t.link = s.link.receive message := by
  cases message with
  | dataBlock bytes => exact .some (link_foldl_arrive bytes)
  | coldReset => exact .none
  | _ => exact .some rfl

theorem follows_send (h : Follows n owed late P s.link)
    (silent : (Io.sent datagram).responds n = false) : Follows n owed late P (s.send datagram).link :=
  h.append silent (by simp)

theorem follows_keepAlive (h : Follows n owed late P s.link) {p : Poll} (calm : p.Calm) :
    Follows n owed late P (s.keepAlive p.alive).link := by
  rcases calm with idle | request
  · rw [idle]
    exact h
  · rw [request]
    exact follows_send h rfl

variable (closed : Closed n P) (start : P .waiting → owed = some n ∧ late = false)

include closed start

theorem follows_handlePoll (h : Follows n owed late P s.link) {p : Poll} (calm : p.Calm) :
    Yields (s.handlePoll p) fun t => Follows n owed late P t.link := by
  have initialized : s.initialized = true := h.initialized
  have resumed : s.resumeTest p.resume = s := by simp only [resumeTest, initialized, if_true]
  simp only [handlePoll, resumed, initialized, Bool.not_true, Bool.false_eq_true, if_false]
  cases p.message? with
  | none => exact .some (follows_keepAlive h calm)
  | some message =>
    refine .map ((link_handleMessage message).mono fun t link => follows_keepAlive ?_ calm)
    rw [link]
    exact h.receive closed start message

theorem follows_handleNetsio (h : Follows n owed late P s.link) :
    Yields s.handleNetsio fun t => Follows n owed late P t.link := by
  have calm : ∀ p ∈ s.polls, p.Calm := h.calm
  rw [handleNetsio]
  cases polls : s.polls with
  | nil => exact .none
  | cons p rest =>
    rw [polls] at calm
    have next : Follows n owed late P ({ s with polls := rest } : NetSioPort).link :=
      { h with calm := fun q mem => calm q (List.mem_cons_of_mem _ mem) }
    exact follows_handlePoll closed start next (calm p List.mem_cons_self)

theorem follows_waitForCredit (h : Follows n owed late P s.link) :
    Yields (s.waitForCredit 1) fun r => r.1 = true ∧ Follows n owed late P r.2.link := by
  refine .run (I := fun t => Follows n owed late P t.link) h fun s h => ?_
  have initialized : s.initialized = true := h.initialized
  rw [creditPass]
  split_ifs with enough offline
  · exact .some ⟨rfl, h.append rfl (by simp)⟩
  · simp [initialized] at offline
  · exact .map (follows_handleNetsio closed start (follows_send h rfl))

omit closed start in
/-- The socket takes what is sent. -/
theorem writeSock_eq (h : Follows n owed late P s.link) :
    s.writeSock datagram = (true, s.send datagram) := by
  have fd : s.fd = true := h.fd
  have writes : s.writes = [] := h.writes
  simp only [writeSock, fd, writes, Bool.not_true, Bool.false_eq_true, if_false]

theorem follows_charge (h : Follows n owed late P s.link) :
    Yields (s.charge datagram) fun r => ∃ t : NetSioPort, Follows n owed late P t.link ∧
      r = (true, t.send datagram) := by
  refine .bind (follows_waitForCredit closed start h) fun (granted, t) ⟨_, kept⟩ => .some ?_
  exact ⟨t, kept, writeSock_eq kept⟩

theorem follows_setProceed (h : Follows n owed late P s.link) (level : Bool) :
    Yields (s.setProceed level) fun t => Follows n owed late P t.link := by
  have unsent : Follows n owed late P ({ s with lastProceed := some level } : NetSioPort).link := h
  rw [setProceed]
  split_ifs
  · exact .some h
  · exact .some h
  · refine .map ((follows_charge closed start unsent).mono ?_)
    rintro _ ⟨t, kept, rfl⟩
    exact follows_send kept rfl
  · refine .map ((follows_charge closed start unsent).mono ?_)
    rintro _ ⟨t, kept, rfl⟩
    exact follows_send kept rfl

theorem follows_setInterrupt (h : Follows n owed late P s.link) (level : Bool) :
    Yields (s.setInterrupt level) fun t => Follows n owed late P t.link := by
  have unsent : Follows n owed late P ({ s with lastInterrupt := some level } : NetSioPort).link := h
  rw [setInterrupt]
  split_ifs
  · exact .some h
  · exact .some h
  · refine .map ((follows_charge closed start unsent).mono ?_)
    rintro _ ⟨t, kept, rfl⟩
    exact follows_send kept rfl
  · refine .map ((follows_charge closed start unsent).mono ?_)
    rintro _ ⟨t, kept, rfl⟩
    exact follows_send kept rfl

theorem follows_writeData (h : Follows n owed late P s.link) (c : UInt8) :
    Yields (s.writeData c) fun r => Follows n owed late P r.2.link := by
  refine .map ((follows_waitForCredit closed start h).mono ?_)
  rintro ⟨granted, t⟩ ⟨rfl, kept⟩
  simp only [writeSock_eq kept, Bool.not_true, Bool.false_eq_true, if_false]
  exact follows_send kept rfl

theorem follows_writeBlock (h : Follows n owed late P s.link) (buffer : List UInt8) :
    Yields (s.writeBlock buffer) fun r => Follows n owed late P r.2.link := by
  rw [writeBlock]
  split_ifs
  · exact .some h
  · refine .run (I := fun state => Follows n owed late P state.2.2.link) h
      fun (txbytes, rest, s) h => ?_
    simp only [blockPass]
    split_ifs
    · exact .some h
    · refine .map ((follows_waitForCredit closed start h).mono ?_)
      rintro ⟨granted, t⟩ ⟨rfl, kept⟩
      simp only [writeSock_eq kept, Bool.not_true, Bool.false_eq_true, if_false]
      exact follows_send kept rfl

theorem follows_waitForData (h : Follows n owed late P s.link) :
    Yields s.waitForData fun r => Follows n owed late P r.2.link := by
  refine .run (I := fun t => Follows n owed late P t.link) h fun s h => ?_
  have calm : ∀ p ∈ s.polls, p.Calm := h.calm
  rw [dataPass]
  split_ifs
  · exact .some h
  · exact .some h
  · cases polls : s.polls with
    | nil => exact .none
    | cons p rest =>
      rw [polls] at calm
      dsimp only
      split_ifs
      · exact .some { h with calm := fun q mem => calm q (List.mem_cons_of_mem _ mem) }
      · exact .map (follows_handleNetsio closed start h)

theorem follows_read (h : Follows n owed late P s.link) :
    Yields s.read fun r => Follows n owed late P r.2.link := by
  rw [read]
  split_ifs
  · exact .some h
  · refine .map ((follows_waitForData closed start h).mono fun (ready, t) kept => ?_)
    dsimp only
    split_ifs
    · exact kept
    · exact kept

theorem follows_readLoop (h : Follows n owed late P s.link) (k : Nat) :
    Yields (readLoop k s) fun r => Follows n owed late P r.2.link := by
  induction k generalizing s with
  | zero => exact .some h
  | succ k ih =>
    refine .bind (follows_read closed start h) fun (result, t) kept => ?_
    cases result with
    | none => exact .some kept
    | some b => exact .map (ih kept)

theorem follows_available (h : Follows n owed late P s.link) :
    Yields s.available fun r => Follows n owed late P r.2.link := by
  rw [available]
  split_ifs
  · exact .map (follows_handleNetsio closed start h)
  · exact .some h

omit closed start in
theorem follows_flush (h : Follows n owed late P s.link) : Follows n owed late P s.flush.link := by
  rw [flush, flushInput]
  split_ifs
  · exact h
  · exact h

omit closed start in
theorem follows_setBaudrate (h : Follows n owed late P s.link) (baud : Nat) :
    Follows n owed late P (s.setBaudrate baud).link := by
  rw [setBaudrate]
  split_ifs
  · exact h
  · exact follows_send h rfl

omit closed start in
/-- A size for the request is there from now on. -/
theorem follows_sized (h : Follows n owed late P s.link) (size : Nat) (ackByte : UInt8) :
    Follows n owed true P
      ({ s with syncAckByte := ackByte, syncWriteSize := some size } : NetSioPort).link := by
  refine { h with pending := fun pending => ?_ }
  obtain ⟨none, released, request, _⟩ := h.pending pending
  exact ⟨none, released, request, fun _ => rfl⟩

end Steady

/-! ## Operations that answer the request -/

section Answering

variable {n : UInt8} {late : Bool} {s : NetSioPort}

/-- The request is answered once, unless the hub has left the protocol. -/
theorem follows_answer {datagram : List UInt8} (h : Follows n none late Phase.Unsettled s.link)
    (answer : (Io.sent datagram).responds n = true) :
    Follows n (some n) true Phase.Settled (s.send datagram).link := by
  have nextPhase : phase n (s.send datagram).link.wire =
      (phase n s.link.wire).next n (.sent datagram) := phase_append
  have count : responses n (s.send datagram).link.wire = responses n s.link.wire + 1 := by
    have appended : responses n (s.wire ++ [.sent datagram]) = responses n s.wire + 1 := by
      rw [responses_append, answer, if_pos rfl]
    exact appended
  rcases h.allowed with course | course
  · have next : phase n (s.send datagram).link.wire = .answered := by
      rw [nextPhase, course]
      simp [Phase.next, answer]
    obtain ⟨unanswered, _, cleared, _⟩ := h.pending course
    refine ⟨h.initialized, h.fd, h.calm, h.writes, .inl next, ?_, ?_, ?_⟩
    · rw [next]
      simp
    · rw [next]
      simp
    · intro _
      refine ⟨count.trans (by rw [unanswered]), ?_⟩
      rw [show (s.send datagram).link.request = none from cleared]
      simp
  · have next : phase n (s.send datagram).link.wire = .outside := by
      rw [nextPhase, course]
      simp [Phase.next]
    refine ⟨h.initialized, h.fd, h.calm, h.writes, .inr next, ?_, ?_, ?_⟩
    · rw [next]
      simp
    · rw [next]
      simp
    · rw [next]
      simp

/-- The answer to whatever request is there. -/
theorem follows_sendSyncResponse (h : Follows n (some n) late Phase.Ended s.link) {num : UInt8}
    (request : s.syncRequestNum = some num) (responseType ackByte : UInt8) (size : Nat) :
    Yields (s.sendSyncResponse num responseType ackByte size) fun r =>
      Follows n (some n) true Phase.Settled r.2.link := by
  have other : ∀ {t : NetSioPort}, num ≠ n → Follows n none false Phase.Settled t.link →
      Follows n (some n) true Phase.Settled
        (t.send (syncResponse num responseType ackByte size)).link := by
    intro t different kept
    refine (follows_send kept ?_).settle
    simp [Io.responds, syncResponse, different]
  cases course : phase n s.wire with
  | waiting => exact absurd course h.allowed
  | pending =>
    obtain ⟨unanswered, released, own, _⟩ := h.pending course
    obtain rfl : num = n := Option.some.inj (request.symm.trans own)
    have cleared : Follows num none false Phase.Unsettled
        ({ s with syncRequestNum := none, syncWriteSize := none } : NetSioPort).link :=
      { h with
        allowed := .inl course
        pending := fun _ => ⟨unanswered, released, rfl, by simp⟩
        answered := fun answered => absurd (course.symm.trans answered) (by decide) }
    refine .map ((follows_charge Phase.closed_unsettled (by simp [Phase.Unsettled]) cleared).mono ?_)
    rintro _ ⟨t, kept, rfl⟩
    exact follows_answer kept (by simp [Io.responds, syncResponse])
  | answered =>
    obtain ⟨one, foreign⟩ := h.answered course
    have different : num ≠ n := fun same => foreign (request.trans (congrArg some same))
    have cleared : Follows n none false Phase.Settled
        ({ s with syncRequestNum := none, syncWriteSize := none } : NetSioPort).link :=
      { h with
        allowed := .inl course
        pending := fun pending => absurd (course.symm.trans pending) (by decide)
        answered := fun _ => ⟨one, by simp [link]⟩ }
    refine .map ((follows_charge Phase.closed_settled (by simp [Phase.Settled]) cleared).mono ?_)
    rintro _ ⟨t, kept, rfl⟩
    exact other different kept
  | outside =>
    have cleared : Follows n none false Phase.Lost
        ({ s with syncRequestNum := none, syncWriteSize := none } : NetSioPort).link :=
      { h with
        allowed := course
        pending := fun pending => absurd (course.symm.trans pending) (by decide)
        answered := fun answered => absurd (course.symm.trans answered) (by decide) }
    refine .map ((follows_charge Phase.closed_lost (by simp [Phase.Lost]) cleared).mono ?_)
    rintro _ ⟨t, kept, rfl⟩
    by_cases same : num = n
    · exact follows_answer (kept.mono fun _ lost => .inr lost) (by simp [Io.responds, syncResponse, same])
    · exact other same (kept.mono fun _ lost => .inr lost)

/-- `write` of a byte answers what is pending. -/
theorem follows_write (h : Follows n (some n) late Phase.Ended s.link) (c : UInt8) :
    Yields (s.write c) fun r => Follows n (some n) true Phase.Settled r.2.link := by
  have initialized : s.initialized = true := h.initialized
  have closed : Closed n Phase.Settled := Phase.closed_settled
  rw [write, if_neg (by simp [initialized])]
  cases request : s.syncRequestNum with
  | none => exact follows_writeData closed (by simp [Phase.Settled]) (h.settled request) c
  | some num =>
    cases s.syncWriteSize with
    | none => exact follows_sendSyncResponse h request _ _ _
    | some size =>
      exact .bind (follows_sendSyncResponse h request _ _ _) fun _ kept =>
        follows_writeData closed (by simp [Phase.Settled]) kept c

theorem follows_sendEmptySync (h : Follows n (some n) late Phase.Ended s.link) :
    Yields s.sendEmptySync fun t => Follows n (some n) true Phase.Settled t.link := by
  rw [sendEmptySync]
  cases request : s.syncRequestNum with
  | none => exact .some (h.settled request)
  | some num => exact .map (follows_sendSyncResponse h request _ _ _)

/-- A read of a block answers what is pending if its size is known, and in any case leaves
alone what is settled. -/
theorem follows_readBytes (h : Follows n (some n) late Phase.Ended s.link)
    (sized : late = true ∨ Phase.Settled (phase n s.wire)) (k : Nat) :
    Yields (s.readBytes k) fun r => Follows n (some n) true Phase.Settled r.2.link := by
  have initialized : s.initialized = true := h.initialized
  have closed : Closed n Phase.Settled := Phase.closed_settled
  rw [readBytes, if_neg (by simp [initialized])]
  split
  · next num size request _ =>
    exact .bind (follows_sendSyncResponse h request _ _ _) fun _ kept =>
      follows_readLoop closed (by simp [Phase.Settled]) kept k
  · next none =>
    refine follows_readLoop closed (by simp [Phase.Settled]) ?_ k
    cases course : phase n s.wire with
    | waiting => exact absurd course h.allowed
    | pending =>
      obtain ⟨_, _, own, size⟩ := h.pending course
      rcases sized with rfl | settled
      · obtain ⟨size, known⟩ := Option.isSome_iff_exists.mp (size rfl)
        exact absurd known (none n size own)
      · rw [course] at settled
        simp [Phase.Settled] at settled
    | answered => exact ({ h with allowed := .inl course } : Follows n (some n) late Phase.Settled s.link).settle
    | outside => exact ({ h with allowed := .inr course } : Follows n (some n) late Phase.Settled s.link).settle

end Answering

end NetSioPort

end FujiNet.NetSIO
