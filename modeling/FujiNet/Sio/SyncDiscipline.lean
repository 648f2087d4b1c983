import FujiNet.Sio.FrameArrival
import FujiNet.Sio.SystemBus

/-!
# Every command frame is answered

The request that ends a command frame is answered while `_sio_process_cmd` runs, unless the
frame was cut short, it ends the boot from CONFIG, or a device that acknowledged late neither
reads the data nor writes a byte. In these three cases the function returns with the request
pending, and the computer stays stopped.
-/

namespace FujiNet.NetSIO

open NetSioPort
open SIO (CmdFrame sioChecksum SIO_STANDARD_BAUDRATE)

/-! ## Reactions -/

/-- What writes a byte or reads a block. -/
def BusOp.answers : BusOp → Bool
  | sioAck | sioNak | sioComplete | sioError | busToComputer _ _ | busToPeripheral _ => true
  | readBytes _ | write _ => true
  | sioLateAck | setBaudrate _ | writeBlock _ | flush => false
  | setProceed _ | setInterrupt _ | setPortBaudrate _ => false

/-- The device comes to something that answers. What it calls before returns nothing. -/
def Reaction.Settles : Reaction → Prop
  | done => False
  | call op next => op.answers = true ∨ (next []).Settles

/-- A device ignores a command or acknowledges it first. -/
def Reaction.Polite : Reaction → Prop
  | done => True
  | call op _ => op = .sioAck ∨ op = .sioNak ∨ op = .sioLateAck

section Bus

variable {n : UInt8} {late : Bool} {P : Phase → Prop} {bus : SystemBus} {op : PortOp}

theorem yields_onPort (post : List UInt8 × NetSioPort → Prop) (h : Yields (op.run bus.netSio) post) :
    Yields (bus.onPort op) fun r => ∃ t, post (r.1, t) ∧ r.2 = { bus with netSio := t } :=
  .map (h.mono fun r kept => ⟨r.2, kept, rfl⟩)

theorem yields_doPort (post : NetSioPort → Prop) (h : Yields (op.run bus.netSio) fun r => post r.2) :
    Yields (bus.doPort op) fun b => ∃ t, post t ∧ b = { bus with netSio := t } :=
  .map ((yields_onPort (fun r => post r.2) h).mono fun _ kept => kept)

/-- The invariant of the port, seen from the bus. -/
def SystemBus.Follows (n : UInt8) (late : Bool) (P : Phase → Prop) (bus : SystemBus) : Prop :=
  NetSIO.Follows n (some n) late P bus.netSio.link

theorem follows_doPort (h : Yields (op.run bus.netSio) fun r => Follows n (some n) late P r.2.link) :
    Yields (bus.doPort op) (SystemBus.Follows n late P) := by
  refine (yields_doPort (fun t => NetSIO.Follows n (some n) late P t.link) h).mono ?_
  rintro _ ⟨t, kept, rfl⟩
  exact kept

theorem follows_writeByte (h : bus.Follows n late Phase.Ended) (c : UInt8) :
    Yields (bus.doPort (.write c)) (SystemBus.Follows n true Phase.Settled) :=
  follows_doPort (.map (follows_write h c))

theorem follows_flushed (h : bus.Follows n late P) :
    Yields (bus.doPort .flush) (SystemBus.Follows n late P) :=
  follows_doPort (.some (follows_flush h))

theorem ended_of_settled (h : bus.Follows n late Phase.Settled) : bus.Follows n late Phase.Ended :=
  h.mono fun _ settled => by
    rcases settled with rfl | rfl <;> simp [Phase.Ended]

/-- `write`, `flush` and `set_command_processed`. -/
theorem follows_reply (h : bus.Follows n late Phase.Ended) (c : UInt8) :
    Yields ((bus.doPort (.write c)).bind fun bus =>
      (bus.doPort .flush).map (SystemBus.setCommandProcessed true))
      (SystemBus.Follows n true Phase.Settled) :=
  .bind (follows_writeByte h c) fun _ kept => .map ((follows_flushed kept).mono fun _ kept => kept)

theorem follows_busToComputer (h : bus.Follows n late Phase.Ended) (buf : List UInt8) (err : Bool) :
    Yields (bus.busToComputer buf err) (SystemBus.Follows n true Phase.Settled) := by
  have first : Yields (if err then bus.sioError else bus.sioComplete)
      (SystemBus.Follows n true Phase.Settled) := by
    split_ifs
    · exact follows_writeByte h _
    · exact follows_writeByte h _
  refine .bind first fun _ kept => ?_
  refine .bind (follows_doPort (.map (follows_writeBlock Phase.closed_settled
    (by simp [Phase.Settled]) kept buf))) fun _ kept => ?_
  exact .bind (follows_writeByte (ended_of_settled kept) _) fun _ kept => follows_flushed kept

theorem follows_busToPeripheral (h : bus.Follows n late Phase.Ended) (buf : List UInt8) :
    Yields (bus.busToPeripheral buf) fun r => r.2.Follows n true Phase.Settled := by
  have closed : Closed n Phase.Settled := Phase.closed_settled
  have start : Phase.Settled .waiting → some n = some n ∧ true = false := by simp [Phase.Settled]
  have sized : Yields (bus.doPort (.setSyncWriteSize (buf.length + 1)))
      (SystemBus.Follows n true Phase.Ended) :=
    follows_doPort (.some (follows_sized h _ bus.netSio.syncAckByte))
  refine .bind sized fun bus kept => ?_
  refine .bind (yields_onPort (fun r => NetSIO.Follows n (some n) true Phase.Settled r.2.link)
    (follows_readBytes kept (.inl rfl) buf.length)) ?_
  rintro ⟨bytes, _⟩ ⟨t, kept, rfl⟩
  refine .bind (M := SystemBus.Follows n true Phase.Settled)
    (.run (I := SystemBus.Follows n true Phase.Settled) kept fun bus kept => ?_) fun bus kept => ?_
  · refine .map ((follows_available closed start kept).mono ?_)
    rintro ⟨k, t⟩ kept
    dsimp only
    split_ifs
    · exact kept
    · exact kept
  · refine .bind (yields_onPort (fun r => NetSIO.Follows n (some n) true Phase.Settled r.2.link)
      (.map (follows_read closed start kept))) ?_
    rintro ⟨result, _⟩ ⟨t, kept, rfl⟩
    have settled : SystemBus.Follows n true Phase.Settled { bus with netSio := t } := kept
    refine .map ?_
    dsimp only
    split_ifs
    · exact follows_reply (ended_of_settled settled) _
    · exact follows_reply (ended_of_settled settled) _

/-- What an answering call does. -/
theorem follows_answering {op : BusOp} (answers : op.answers = true)
    (h : bus.Follows n late Phase.Ended)
    (sized : ∀ length, op = .readBytes length → late = true) :
    Yields (op.run bus) fun r => r.2.Follows n true Phase.Settled := by
  cases op with
  | sioAck => exact .map (follows_reply h _)
  | sioNak => exact .map (follows_reply h _)
  | sioComplete => exact .map (follows_writeByte h _)
  | sioError => exact .map (follows_writeByte h _)
  | busToComputer buf err => exact .map (follows_busToComputer h buf err)
  | busToPeripheral buf => exact follows_busToPeripheral h buf
  | readBytes length =>
    have read : Yields ((PortOp.readBytes length).run bus.netSio) fun r =>
        NetSIO.Follows n (some n) true Phase.Settled r.2.link :=
      follows_readBytes h (.inl (sized length rfl)) length
    refine (yields_onPort (fun r => NetSIO.Follows n (some n) true Phase.Settled r.2.link) read).mono ?_
    rintro ⟨bytes, _⟩ ⟨t, kept, rfl⟩
    exact kept
  | write c => exact .map (follows_writeByte h c)
  | _ => simp [BusOp.answers] at answers

theorem follows_setBaudrate' (h : bus.Follows n late P) (baud : Nat) :
    Yields (bus.doPort (.setBaudrate baud)) (SystemBus.Follows n late P) :=
  follows_doPort (.some (follows_setBaudrate h baud))

theorem follows_sioLateAck (h : bus.Follows n late P) :
    Yields bus.sioLateAck (SystemBus.Follows n true P) := by
  have sized : Yields (bus.doPort (.setSyncAckByte SystemBus.ackChar)) (SystemBus.Follows n true P) :=
    follows_doPort (.some (follows_sized h 0 SystemBus.ackChar))
  exact .map (sized.mono fun _ kept => kept)

/-- What the other calls do to a request that is late or settled. They return nothing. -/
theorem follows_neutral {op : BusOp} (neutral : op.answers = false) (closed : Closed n P)
    (ended : ¬ P .waiting) (h : bus.Follows n true P) :
    Yields (op.run bus) fun r => r.1 = [] ∧ r.2.Follows n true P := by
  have start : P .waiting → some n = some n ∧ true = false := fun waiting => absurd waiting ended
  have silent : ∀ {m : Option SystemBus}, Yields m (SystemBus.Follows n true P) →
      Yields (m.map fun bus => (([] : List UInt8), bus)) fun r => r.1 = [] ∧ r.2.Follows n true P :=
    fun kept => .map (kept.mono fun _ kept => ⟨rfl, kept⟩)
  cases op with
  | sioLateAck => exact silent (follows_sioLateAck h)
  | setBaudrate baud =>
    refine silent ?_
    rw [SystemBus.setBaudrate]
    split_ifs
    · exact .some h
    · have unsent : SystemBus.Follows n true P { bus with sioBaud := baud } := h
      exact follows_setBaudrate' unsent baud
  | writeBlock buffer => exact silent (follows_doPort (.map (follows_writeBlock closed start h buffer)))
  | flush => exact silent (follows_flushed h)
  | setProceed level => exact silent (follows_doPort (.map (follows_setProceed closed start h level)))
  | setInterrupt level =>
    exact silent (follows_doPort (.map (follows_setInterrupt closed start h level)))
  | setPortBaudrate baud => exact silent (follows_setBaudrate' h baud)
  | _ => simp [BusOp.answers] at neutral

/-! ## What a device leaves of a request -/

/-- A request that was answered stays so. -/
theorem follows_run_settled (r : Reaction) (h : bus.Follows n true Phase.Settled) :
    Yields (r.run bus) (SystemBus.Follows n true Phase.Settled) := by
  induction r generalizing bus with
  | done => exact .some h
  | call op next ih =>
    have step : Yields (op.run bus) fun r => r.2.Follows n true Phase.Settled := by
      cases answers : op.answers with
      | true => exact follows_answering answers (ended_of_settled h) fun _ _ => rfl
      | false =>
        exact (follows_neutral answers Phase.closed_settled (by simp [Phase.Settled]) h).mono
          fun _ kept => kept.2
    exact .bind step fun r kept => ih r.1 kept

/-- A late acknowledge is followed by something that answers. -/
theorem follows_run_late {r : Reaction} (settles : r.Settles) (h : bus.Follows n true Phase.Ended) :
    Yields (r.run bus) (SystemBus.Follows n true Phase.Settled) := by
  induction r generalizing bus with
  | done => exact absurd settles id
  | call op next ih =>
    cases answers : op.answers with
    | true =>
      exact .bind (follows_answering answers h fun _ _ => rfl) fun r kept => follows_run_settled _ kept
    | false =>
      have later : (next []).Settles := by
        rcases settles with now | later
        · rw [now] at answers
          simp at answers
        · exact later
      refine .bind (follows_neutral answers Phase.closed_ended (by simp [Phase.Ended]) h) ?_
      rintro ⟨_, bus⟩ ⟨rfl, kept⟩
      exact ih [] later kept

/-- A device that comes to nothing that answers leaves the request in its phase. -/
theorem follows_run_neutral {r : Reaction} (unsettled : ¬ r.Settles) (closed : Closed n P)
    (ended : ¬ P .waiting) (h : bus.Follows n true P) :
    Yields (r.run bus) (SystemBus.Follows n true P) := by
  induction r generalizing bus with
  | done => exact .some h
  | call op next ih =>
    rw [Reaction.Settles, not_or, Bool.not_eq_true] at unsettled
    refine .bind (follows_neutral unsettled.1 closed ended h) ?_
    rintro ⟨_, bus⟩ ⟨rfl, kept⟩
    exact ih [] unsettled.2 kept

/-- After a late acknowledge, which returns nothing. -/
theorem follows_late (h : bus.Follows n late P) :
    Yields (BusOp.sioLateAck.run bus) fun r => r.1 = [] ∧ r.2.Follows n true P :=
  .map ((follows_sioLateAck h).mono fun _ kept => ⟨rfl, kept⟩)

theorem follows_run_of_settles {r : Reaction} (polite : r.Polite) (settles : r.Settles)
    (h : bus.Follows n late Phase.Ended) :
    Yields (r.run bus) (SystemBus.Follows n true Phase.Settled) := by
  cases r with
  | done => exact absurd settles id
  | call op next =>
    rcases polite with rfl | rfl | rfl
    · exact .bind (follows_answering rfl h (by simp)) fun r kept => follows_run_settled _ kept
    · exact .bind (follows_answering rfl h (by simp)) fun r kept => follows_run_settled _ kept
    · have later : (next []).Settles := settles.resolve_left (by simp [BusOp.answers])
      refine .bind (follows_late h) ?_
      rintro ⟨_, bus⟩ ⟨rfl, kept⟩
      exact follows_run_late later kept

theorem follows_run_of_not_settles {r : Reaction} (polite : r.Polite) (unsettled : ¬ r.Settles)
    (closed : Closed n P) (ended : ¬ P .waiting) (h : bus.Follows n late P) :
    Yields (r.run bus) fun b => ∃ late, b.Follows n late P := by
  cases r with
  | done => exact .some ⟨late, h⟩
  | call op next =>
    rw [Reaction.Settles, not_or] at unsettled
    rcases polite with rfl | rfl | rfl
    · exact absurd rfl unsettled.1
    · exact absurd rfl unsettled.1
    · refine .bind (follows_late h) ?_
      rintro ⟨_, bus⟩ ⟨rfl, kept⟩
      exact (follows_run_neutral unsettled.2 closed ended kept).mono fun _ kept => ⟨true, kept⟩

/-! ## Several devices -/

theorem follows_runReactions_settled (rs : List Reaction) (h : bus.Follows n true Phase.Settled) :
    Yields (runReactions rs bus) (SystemBus.Follows n true Phase.Settled) := by
  induction rs generalizing bus with
  | nil => exact .some h
  | cons r rs ih => exact .bind (follows_run_settled r h) fun _ kept => ih kept

theorem follows_runReactions_of_settles {rs : List Reaction} (polite : ∀ r ∈ rs, r.Polite)
    (settles : ∃ r ∈ rs, r.Settles) (h : bus.Follows n late Phase.Ended) :
    Yields (runReactions rs bus) (SystemBus.Follows n true Phase.Settled) := by
  induction rs generalizing bus late with
  | nil => simp at settles
  | cons r rs ih =>
    have politeR := polite r List.mem_cons_self
    by_cases now : r.Settles
    · exact .bind (follows_run_of_settles politeR now h) fun _ kept =>
        follows_runReactions_settled rs kept
    · have later : ∃ r ∈ rs, r.Settles := by simpa [now] using settles
      refine .bind (follows_run_of_not_settles politeR now Phase.closed_ended (by simp [Phase.Ended]) h) ?_
      rintro bus ⟨late, kept⟩
      exact ih (fun r mem => polite r (List.mem_cons_of_mem _ mem)) later kept

theorem follows_runReactions_of_not_settles {rs : List Reaction} (polite : ∀ r ∈ rs, r.Polite)
    (unsettled : ∀ r ∈ rs, ¬ r.Settles) (closed : Closed n P) (ended : ¬ P .waiting)
    (h : bus.Follows n late P) :
    Yields (runReactions rs bus) fun b => ∃ late, b.Follows n late P := by
  induction rs generalizing bus late with
  | nil => exact .some ⟨late, h⟩
  | cons r rs ih =>
    refine .bind (follows_run_of_not_settles (polite r List.mem_cons_self)
      (unsettled r List.mem_cons_self) closed ended h) ?_
    rintro bus ⟨late, kept⟩
    exact ih (fun r mem => polite r (List.mem_cons_of_mem _ mem))
      (fun r mem => unsettled r (List.mem_cons_of_mem _ mem)) kept

end Bus

/-! ## Whether a command was processed -/

section Processed

variable {bus : SystemBus}

theorem processed_doPort (op : PortOp) (h : bus.commandProcessed = true) :
    Yields (bus.doPort op) fun b => b.commandProcessed = true := by
  have trivial : Yields (op.run bus.netSio) fun _ => True := fun _ _ => True.intro
  refine (yields_doPort (fun _ => True) trivial).mono ?_
  rintro _ ⟨t, _, rfl⟩
  exact h

theorem processed_reply (c : UInt8) :
    Yields ((bus.doPort (.write c)).bind fun bus =>
      (bus.doPort .flush).map (SystemBus.setCommandProcessed true))
      fun b => b.commandProcessed = true :=
  .bind (M := fun _ => True) (fun _ _ => trivial) fun _ _ => .map fun _ _ => rfl

theorem processed_busToComputer (buf : List UInt8) (err : Bool) (h : bus.commandProcessed = true) :
    Yields (bus.busToComputer buf err) fun b => b.commandProcessed = true := by
  have first : Yields (if err then bus.sioError else bus.sioComplete)
      fun b => b.commandProcessed = true := by
    split_ifs
    · exact processed_doPort _ h
    · exact processed_doPort _ h
  refine .bind first fun _ h => .bind (processed_doPort _ h) fun _ h => ?_
  exact .bind (processed_doPort _ h) fun _ h => processed_doPort _ h

theorem processed_busToPeripheral (buf : List UInt8) :
    Yields (bus.busToPeripheral buf) fun r => r.2.commandProcessed = true := by
  refine .bind (M := fun _ => True) (fun _ _ => trivial) fun _ _ => ?_
  refine .bind (M := fun _ => True) (fun _ _ => trivial) fun _ _ => ?_
  refine .bind (M := fun _ => True) (fun _ _ => trivial) fun _ _ => ?_
  refine .bind (M := fun _ => True) (fun _ _ => trivial) fun _ _ => .map ?_
  dsimp only
  split_ifs
  · exact processed_reply _
  · exact processed_reply _

theorem processed_silent {m : Option SystemBus} (h : Yields m fun b => b.commandProcessed = true) :
    Yields (m.map fun bus => (([] : List UInt8), bus)) fun r => r.2.commandProcessed = true :=
  .map h

theorem processed_sioLateAck : Yields bus.sioLateAck fun b => b.commandProcessed = true :=
  .map fun _ _ => rfl

/-- Nothing that a device calls takes back that the command was processed. -/
theorem processed_op (op : BusOp) (h : bus.commandProcessed = true) :
    Yields (op.run bus) fun r => r.2.commandProcessed = true := by
  cases op with
  | sioAck => exact processed_silent (processed_reply _)
  | sioNak => exact processed_silent (processed_reply _)
  | sioLateAck => exact processed_silent processed_sioLateAck
  | sioComplete => exact processed_silent (processed_doPort _ h)
  | sioError => exact processed_silent (processed_doPort _ h)
  | busToComputer buf err => exact processed_silent (processed_busToComputer buf err h)
  | busToPeripheral buf => exact processed_busToPeripheral buf
  | setBaudrate baud =>
    refine processed_silent ?_
    rw [SystemBus.setBaudrate]
    split_ifs
    · exact .some h
    · have same : ({ bus with sioBaud := baud } : SystemBus).commandProcessed = true := h
      exact processed_doPort _ same
  | readBytes length =>
    refine (yields_onPort (fun _ => True) fun _ _ => trivial).mono ?_
    rintro ⟨bytes, _⟩ ⟨t, _, rfl⟩
    exact h
  | write c => exact processed_silent (processed_doPort _ h)
  | writeBlock buffer => exact processed_silent (processed_doPort _ h)
  | flush => exact processed_silent (processed_doPort .flush h)
  | setProceed level => exact processed_silent (processed_doPort _ h)
  | setInterrupt level => exact processed_silent (processed_doPort _ h)
  | setPortBaudrate baud => exact processed_silent (processed_doPort (.setBaudrate baud) h)

theorem processed_run (r : Reaction) (h : bus.commandProcessed = true) :
    Yields (r.run bus) fun b => b.commandProcessed = true := by
  induction r generalizing bus with
  | done => exact .some h
  | call op next ih => exact .bind (processed_op op h) fun r kept => ih r.1 kept

theorem processed_runReactions (rs : List Reaction) (h : bus.commandProcessed = true) :
    Yields (runReactions rs bus) fun b => b.commandProcessed = true := by
  induction rs generalizing bus with
  | nil => exact .some h
  | cons r rs ih => exact .bind (processed_run r h) fun _ kept => ih kept

/-- A device that does not ignore the command has it processed. -/
theorem processed_of_polite {r : Reaction} (polite : r.Polite) (reacts : r ≠ .done) :
    Yields (r.run bus) fun b => b.commandProcessed = true := by
  cases r with
  | done => exact absurd rfl reacts
  | call op next =>
    refine .bind (M := fun r => r.2.commandProcessed = true) ?_ fun r kept => processed_run _ kept
    rcases polite with rfl | rfl | rfl
    · exact .map (processed_reply _)
    · exact .map (processed_reply _)
    · exact processed_silent processed_sioLateAck

theorem runReactions_done {rs : List Reaction} (ignored : ∀ r ∈ rs, r = .done) :
    runReactions rs bus = some bus := by
  induction rs with
  | nil => rfl
  | cons r rs ih =>
    obtain rfl := ignored r List.mem_cons_self
    exact ih fun r mem => ignored r (List.mem_cons_of_mem _ mem)

theorem processed_of_reacts {rs : List Reaction} (polite : ∀ r ∈ rs, r.Polite)
    (reacts : ∃ r ∈ rs, r ≠ .done) :
    Yields (runReactions rs bus) fun b => b.commandProcessed = true := by
  induction rs generalizing bus with
  | nil => simp at reacts
  | cons r rs ih =>
    by_cases ignores : r = .done
    · subst ignores
      have later : ∃ r ∈ rs, r ≠ .done := by simpa using reacts
      exact ih (fun r mem => polite r (List.mem_cons_of_mem _ mem)) later
    · exact .bind (processed_of_polite (polite r List.mem_cons_self) ignores)
        fun _ kept => processed_runReactions rs kept

end Processed

/-! ## A command frame -/

namespace SystemBus

/-- The computer has started a command frame on a link that is up, and stays up. -/
structure InCommand (bus : SystemBus) : Prop where
  initialized : bus.netSio.initialized = true
  fd : bus.netSio.fd = true
  asserted : bus.netSio.commandAsserted = true
  request : bus.netSio.syncRequestNum = none
  calm : ∀ p ∈ bus.netSio.polls, p.Calm
  writes : bus.netSio.writes = []
  wire : bus.netSio.wire = []

/-- A device that reacts comes to something that answers, or no device reacts. -/
def Handles (frame : CmdFrame) (bus : SystemBus) : Prop :=
  (∃ r ∈ bus.reactions frame, r.Settles) ∨ ∀ r ∈ bus.reactions frame, r = .done

/-- A frame comes in complete, and unless its checksum is wrong it does not end the boot from
CONFIG and is handled. -/
def Answers (bus : SystemBus) : Prop :=
  match bus.enter.netSio.arriving.take 5 with
  | [device, comnd, aux1, aux2, checksum] =>
    sioChecksum [device, comnd, aux1, aux2] = checksum →
      bus.endsConfigBoot ⟨device, comnd, aux1, aux2⟩ = false ∧
        bus.Handles ⟨device, comnd, aux1, aux2⟩
  | _ => False

end SystemBus

/-- What is to be shown of the phase at the end. -/
def Phase.Due (answers : Prop) (phase : Phase) : Prop :=
  (answers → phase ≠ pending) ∧ (¬ answers → phase ≠ answered)

section Frame

variable {n : UInt8} {late : Bool} {bus : SystemBus} {answers : Prop}

theorem due_of_settled (holds : answers) (h : bus.Follows n late Phase.Settled) :
    bus.Follows n late (Phase.Due answers) := by
  refine h.mono fun phase settled => ⟨fun _ => ?_, fun fails => absurd holds fails⟩
  rcases settled with rfl | rfl
  · simp
  · simp

theorem due_of_unanswered (fails : ¬ answers) (h : bus.Follows n late Phase.Unanswered) :
    bus.Follows n late (Phase.Due answers) :=
  h.mono fun _ unanswered => ⟨fun holds => absurd holds fails, fun _ => unanswered⟩

theorem follows_emptyAck (h : bus.Follows n late Phase.Ended)
    (processed : bus.commandProcessed = true → bus.Follows n late Phase.Settled) :
    Yields bus.emptyAck fun b => ∃ late, b.Follows n late Phase.Settled := by
  rw [SystemBus.emptyAck]
  split_ifs with handled
  · exact .some ⟨late, processed handled⟩
  · have sent : Yields (PortOp.sendEmptySync.run bus.netSio) fun r =>
        NetSIO.Follows n (some n) true Phase.Settled r.2.link := .map (follows_sendEmptySync h)
    exact (follows_doPort sent).mono fun _ kept => ⟨true, kept⟩

theorem follows_countBadFrame (h : bus.Follows n late Phase.Ended)
    (unprocessed : bus.commandProcessed = false) :
    Yields bus.countBadFrame fun b =>
      b.Follows n late Phase.Ended ∧ b.commandProcessed = false := by
  rw [SystemBus.countBadFrame]
  split_ifs
  · have kept : ∀ counter baud, ({ bus with commandFrameCounter := counter, sioBaud := baud } :
        SystemBus).Follows n late Phase.Ended := fun _ _ => h
    refine (follows_setBaudrate' (kept 0 _) _).and ?_
    refine (yields_doPort (fun _ => True) fun _ _ => trivial).mono ?_
    rintro _ ⟨t, _, rfl⟩
    exact unprocessed
  · exact .some ⟨h, unprocessed⟩

/-- The devices, and behind them the answer for a command that none of them has handled. -/
theorem follows_handled {frame : CmdFrame} (h : bus.Follows n false Phase.Unsettled)
    (unprocessed : bus.commandProcessed = false) (polite : ∀ r ∈ bus.reactions frame, r.Polite) :
    Yields ((runReactions (bus.reactions frame) bus).bind SystemBus.emptyAck) fun b =>
      ∃ late, b.Follows n late (Phase.Due (bus.Handles frame)) := by
  have ended : bus.Follows n false Phase.Ended := h.mono fun _ unsettled => by
    rcases unsettled with rfl | rfl <;> simp [Phase.Ended]
  by_cases settles : ∃ r ∈ bus.reactions frame, r.Settles
  · refine .bind (follows_runReactions_of_settles polite settles ended) fun b kept => ?_
    refine (follows_emptyAck (ended_of_settled kept) fun _ => kept).mono ?_
    rintro b ⟨late, kept⟩
    exact ⟨late, due_of_settled (.inl settles) kept⟩
  by_cases ignored : ∀ r ∈ bus.reactions frame, r = .done
  · rw [runReactions_done ignored, Option.bind_some]
    refine (follows_emptyAck ended fun processed => ?_).mono ?_
    · exact absurd (unprocessed.symm.trans processed) (by simp)
    · rintro b ⟨late, kept⟩
      exact ⟨late, due_of_settled (.inr ignored) kept⟩
  · have reacts : ∃ r ∈ bus.reactions frame, r ≠ .done := by simpa using ignored
    have unsettled : ∀ r ∈ bus.reactions frame, ¬ r.Settles := by simpa using settles
    refine .bind ((follows_runReactions_of_not_settles polite unsettled Phase.closed_unsettled
      (by simp [Phase.Unsettled]) h).and (processed_of_reacts polite reacts)) ?_
    rintro b ⟨⟨late, kept⟩, processed⟩
    rw [SystemBus.emptyAck, if_pos processed]
    refine .some ⟨late, due_of_unanswered (fun handles => handles.elim settles ignored) ?_⟩
    exact kept.mono fun _ unsettled => by
      rcases unsettled with rfl | rfl <;> simp [Phase.Unanswered]

/-- The rest of `_sio_process_cmd`, once the command has ended. -/
theorem follows_serve (frame : CmdFrame) (checksum : UInt8) {bus : SystemBus}
    (h : bus.Follows n false Phase.Unsettled) (unprocessed : bus.commandProcessed = false)
    (polite : ∀ r ∈ bus.reactions frame, r.Polite) :
    Yields (bus.serve frame checksum) fun b => ∃ late, b.Follows n late (Phase.Due
      (sioChecksum [frame.device, frame.comnd, frame.aux1, frame.aux2] = checksum →
        bus.endsConfigBoot frame = false ∧ bus.Handles frame)) := by
  have ended : bus.Follows n false Phase.Ended := h.mono fun _ unsettled => by
    rcases unsettled with rfl | rfl <;> simp [Phase.Ended]
  have counted : ({ bus with commandFrameCounter := 0 } : SystemBus).Follows n false
      Phase.Unsettled := h
  by_cases intact : sioChecksum [frame.device, frame.comnd, frame.aux1, frame.aux2] = checksum
  · have same : SystemBus.endsConfigBoot frame { bus with commandFrameCounter := 0 } =
        bus.endsConfigBoot frame := rfl
    simp only [SystemBus.serve, if_pos intact, same]
    cases exits : bus.endsConfigBoot frame with
    | true =>
      have unanswered : bus.Follows n false Phase.Unanswered := h.mono fun _ unsettled => by
        rcases unsettled with rfl | rfl <;> simp [Phase.Unanswered]
      exact .some ⟨false, due_of_unanswered (fun holds => Bool.noConfusion (holds intact).1) unanswered⟩
    | false =>
      refine (follows_handled counted unprocessed polite).mono ?_
      rintro b ⟨late, kept⟩
      refine ⟨late, kept.mono fun phase due => ⟨fun holds => due.1 (holds intact).2, fun fails => ?_⟩⟩
      exact due.2 fun handles => fails fun _ => ⟨rfl, handles⟩
  · simp only [SystemBus.serve, if_neg intact]
    refine .bind (follows_countBadFrame ended unprocessed) fun b kept => ?_
    refine (follows_emptyAck kept.1 fun processed => ?_).mono ?_
    · exact absurd (kept.2.symm.trans processed) (by simp)
    · rintro b ⟨late, kept⟩
      exact ⟨late, due_of_settled (fun intact' => absurd intact' intact) kept⟩

/-- While the computer holds the command line the request has not come, and when it is let go
it has. -/
theorem follows_deassert (h : bus.Follows n false Phase.Unanswered) (k : Nat) :
    Yields (Loop.run SystemBus.deassertPass k (0, bus)) fun r => ∃ t, r.2 = { bus with netSio := t } ∧
      Follows n (some n) false Phase.Unanswered t.link ∧
      (r.1 = true → Phase.Unsettled (phase n t.wire)) ∧
      (r.1 = false → phase n t.wire ≠ .pending) := by
  refine .run (I := fun state : Nat × SystemBus => ∃ t : NetSioPort,
    state.2 = { bus with netSio := t } ∧ Follows n (some n) false Phase.Unanswered t.link)
    ⟨bus.netSio, rfl, h⟩ ?_
  rintro ⟨i, _⟩ ⟨t, rfl, kept⟩
  rw [SystemBus.deassertPass]
  refine .map (.map ((follows_handleNetsio Phase.closed_unanswered start_unanswered kept).mono ?_))
  intro t kept
  have allowed : phase n t.wire ≠ .answered := kept.allowed
  dsimp only
  cases asserted : t.commandAsserted with
  | false =>
    refine ⟨t, rfl, kept, fun _ => ?_, nofun⟩
    cases course : phase n t.wire with
    | waiting => exact absurd ((kept.waiting course).2.symm.trans asserted) (by simp)
    | pending => exact .inl rfl
    | answered => exact absurd course allowed
    | outside => exact .inr rfl
  | true =>
    have unended : phase n t.wire ≠ .pending := by
      intro course
      exact absurd (asserted.symm.trans (kept.pending course).2.1) (by simp)
    rw [Bool.not_true, if_neg (by simp)]
    split_ifs
    · exact ⟨t, rfl, kept, nofun, fun _ => unended⟩
    · exact ⟨t, rfl, kept⟩

theorem follows_enter (h : bus.InCommand) : bus.enter.Follows n false Phase.Unanswered := by
  have start : bus.Follows n false Phase.Unanswered := by
    have waiting : phase n bus.netSio.wire = .waiting := by
      rw [h.wire]
      rfl
    refine ⟨h.initialized, h.fd, h.calm, h.writes, ?_, fun _ => ⟨?_, h.asserted⟩, ?_, ?_⟩
    · rw [show bus.netSio.link.wire = bus.netSio.wire from rfl, waiting]
      simp [Phase.Unanswered]
    · rw [show bus.netSio.link.wire = bus.netSio.wire from rfl, h.wire]
      rfl
    · intro pending
      exact absurd (waiting.symm.trans pending) (by simp)
    · intro answered
      exact absurd (waiting.symm.trans answered) (by simp)
  rw [SystemBus.enter]
  split_ifs
  · exact follows_setBaudrate start _
  · exact start

theorem request_enter (h : bus.InCommand) : bus.enter.netSio.syncRequestNum = none := by
  simp only [SystemBus.enter]
  split_ifs
  · simp only [setBaudrate]
    split_ifs
    · exact h.request
    · exact h.request
  · exact h.request

end Frame

theorem enter_eq (bus : SystemBus) : ∃ active t, bus.enter =
    { bus with commandProcessed := false, modemActive := active, netSio := t } := by
  rw [SystemBus.enter]
  split_ifs
  · exact ⟨_, _, rfl⟩
  · exact ⟨_, _, rfl⟩

/-- A whole call of `_sio_process_cmd`. -/
theorem follows_sioProcessCmd {n : UInt8} {bus : SystemBus} (inCommand : bus.InCommand)
    (polite : ∀ frame, ∀ r ∈ bus.reactions frame, r.Polite) :
    Yields bus.sioProcessCmd fun b =>
      (∃ late, b.Follows n late (Phase.Due bus.Answers)) ∨
        ∃ late, b.Follows n late fun phase => phase ≠ .pending ∧ phase ≠ .answered := by
  have frame : Yields (bus.enter.onPort (.readBytes 5)) fun r => ∃ t : NetSioPort,
      (Follows n (some n) false Phase.Unanswered t.link ∧
        r.1 = bus.enter.netSio.arriving.take 5) ∧ r.2 = { bus.enter with netSio := t } :=
    yields_onPort (fun r => Follows n (some n) false Phase.Unanswered r.2.link ∧
      r.1 = bus.enter.netSio.arriving.take 5)
      (readBytes_frame (follows_enter inCommand) (request_enter inCommand) 5)
  refine .bind frame ?_
  rintro ⟨bytes, _⟩ ⟨t, ⟨kept, rfl⟩, rfl⟩
  have unanswered : SystemBus.Follows n false Phase.Unanswered { bus.enter with netSio := t } := kept
  dsimp only
  split
  · next device comnd aux1 aux2 checksum complete =>
    have answers : bus.Answers ↔ (sioChecksum [device, comnd, aux1, aux2] = checksum →
        bus.endsConfigBoot ⟨device, comnd, aux1, aux2⟩ = false ∧
          bus.Handles ⟨device, comnd, aux1, aux2⟩) := by
      rw [SystemBus.Answers, complete]
    refine .bind (follows_deassert unanswered 101) ?_
    rintro ⟨deasserted, _⟩ ⟨t, rfl, kept, ended, unended⟩
    cases deasserted with
    | false => exact .some (.inr ⟨false, { kept with allowed := ⟨unended rfl, kept.allowed⟩ }⟩)
    | true =>
      have ready : Follows n (some n) false Phase.Unsettled t.link :=
        { kept with allowed := ended rfl }
      refine .bind (yields_doPort (fun t => Follows n (some n) false Phase.Unsettled t.link)
        (.map (follows_available Phase.closed_unsettled (by simp [Phase.Unsettled]) ready))) ?_
      rintro _ ⟨t, kept, rfl⟩
      obtain ⟨active, _, entered⟩ := enter_eq bus
      have unsettled : SystemBus.Follows n false Phase.Unsettled
        { bus with commandProcessed := false, modemActive := active, netSio := t } := kept
      have served := follows_serve ⟨device, comnd, aux1, aux2⟩ checksum unsettled rfl (polite _)
      rw [entered, answers]
      exact served.mono fun b due => .inl due
  · next short =>
    refine .some (.inl ⟨false, due_of_unanswered (fun answers => ?_) unanswered⟩)
    rw [SystemBus.Answers] at answers
    split at answers
    · next complete => exact short _ _ _ _ _ complete
    · exact answers

/-- The request that ends a command frame is answered, once, exactly if the frame comes in
complete and, unless its checksum is wrong, it does not end the boot from CONFIG and is handled
by a device that comes to something that answers, or by none. -/
theorem request_answered_iff {n : UInt8} {bus bus' : SystemBus} (inCommand : bus.InCommand)
    (polite : ∀ frame, ∀ r ∈ bus.reactions frame, r.Polite)
    (returned : bus.sioProcessCmd = some bus')
    (ended : phase n bus'.netSio.wire = .pending ∨ phase n bus'.netSio.wire = .answered) :
    responses n bus'.netSio.wire = 1 ↔ bus.Answers := by
  rcases follows_sioProcessCmd (n := n) inCommand polite bus' returned with ⟨late, kept⟩ | ⟨late, kept⟩
  · have due : Phase.Due bus.Answers (phase n bus'.netSio.wire) := kept.allowed
    rcases ended with pending | answered
    · have none : responses n bus'.netSio.wire = 0 := (kept.pending pending).1
      rw [none]
      exact ⟨nofun, fun answers => absurd pending (due.1 answers)⟩
    · have one : responses n bus'.netSio.wire = 1 := (kept.answered answered).1
      refine iff_of_true one (Classical.not_not.mp fun fails => ?_)
      exact due.2 fails answered
  · have neither : phase n bus'.netSio.wire ≠ .pending ∧ phase n bus'.netSio.wire ≠ .answered :=
      kept.allowed
    rcases ended with pending | answered
    · exact absurd pending neither.1
    · exact absurd answered neither.2

/-- A bus with one disk drive, in the middle of a command frame. What comes is the frame, which
reads the first sector, the request 7 and nothing more. -/
def readingSector (fujiDev : Option FujiDev) : SystemBus where
  netSio :=
    { NetSioPort.constructed
        [⟨true, none, [NETSIO_DATA_BLOCK, 0x31, 0x52, 0x01, 0x00, 0x84, 0], 0, .idle⟩,
          ⟨true, none, [NETSIO_COMMAND_OFF_SYNC, 7], 0, .idle⟩, ⟨true, none, [], 0, .idle⟩] [] with
      fd := true
      initialized := true
      commandAsserted := true }
  commandProcessed := false
  commandFrameCounter := 0
  sioBaud := SIO_STANDARD_BAUDRATE
  sioBaudHigh := SIO_STANDARD_BAUDRATE
  sioBaudUltraHigh := SIO_STANDARD_BAUDRATE
  useUltraHigh := false
  modemActive := false
  fujiDev
  daisyChain := [⟨0x31, false, fun _ => .call .sioAck fun _ => .done⟩]

theorem readingSector_inCommand (fujiDev : Option FujiDev) : (readingSector fujiDev).InCommand := by
  refine ⟨rfl, rfl, rfl, rfl, ?_, rfl, rfl⟩
  intro p mem
  have idle : ∀ p ∈ (readingSector none).netSio.polls, p.alive = .idle := by decide
  exact .inl (idle p mem)

theorem readingSector_polite {fujiDev : Option FujiDev}
    (polite : ∀ fuji ∈ fujiDev, ∀ frame, (fuji.bootdisk frame).Polite) (frame : CmdFrame) :
    ∀ r ∈ (readingSector fujiDev).reactions frame, r.Polite := by
  intro r mem
  have drive : ∀ device ∈ (readingSector fujiDev).addressed frame,
      (device.sioProcess frame).Polite := by
    intro device mem
    have attached : device ∈ (readingSector fujiDev).daisyChain := by
      rw [SystemBus.addressed] at mem
      split_ifs at mem
      · exact List.mem_of_mem_filter mem
      · exact List.mem_of_mem_filter mem
    obtain rfl := List.mem_singleton.mp attached
    exact .inl rfl
  rw [SystemBus.reactions] at mem
  cases boots : (readingSector fujiDev).bootsConfig frame with
  | none =>
    rw [boots] at mem
    obtain ⟨device, addressed, rfl⟩ := List.mem_map.mp mem
    exact drive device addressed
  | some fuji =>
    rw [boots] at mem
    obtain rfl := List.mem_singleton.mp mem
    exact polite fuji (Option.mem_filter_iff.mp boots).1 frame

/-- The read that ends the boot from CONFIG is not answered at all. -/
theorem config_boot_unanswered : ¬ ∀ (n : UInt8) (bus bus' : SystemBus), bus.InCommand →
    (∀ frame, ∀ r ∈ bus.reactions frame, r.Polite) → bus.sioProcessCmd = some bus' →
    (phase n bus'.netSio.wire = .pending ∨ phase n bus'.netSio.wire = .answered) →
    responses n bus'.netSio.wire = 1 := by
  intro always
  let bus := readingSector (some ⟨true, true, 5, fun _ => .done⟩)
  have ignores : ∀ fuji ∈ some (⟨true, true, 5, fun _ => .done⟩ : FujiDev),
      ∀ frame, (fuji.bootdisk frame).Polite := by
    rintro _ ⟨⟩ frame
    exact True.intro
  have polite := readingSector_polite ignores
  have run : (bus.sioProcessCmd).map (fun b => (phase 7 b.netSio.wire, responses 7 b.netSio.wire)) =
      some (.pending, 0) := by decide +kernel
  obtain ⟨bus', returned, left⟩ := Option.map_eq_some_iff.mp run
  obtain ⟨pending, none⟩ := Prod.mk.inj left
  have one := always 7 bus bus' (readingSector_inCommand _) polite returned (.inl pending)
  exact absurd (none.symm.trans one) (by decide)

/-- The drive of the example acknowledges, and the request is answered. -/
theorem sector_read_answered : ∃ bus', (readingSector none).sioProcessCmd = some bus' ∧
    (responses 7 bus'.netSio.wire = 1 ↔ (readingSector none).Answers) := by
  have run : ((readingSector none).sioProcessCmd).map (fun b => phase 7 b.netSio.wire) =
      some .answered := by decide +kernel
  obtain ⟨bus', returned, answered⟩ := Option.map_eq_some_iff.mp run
  exact ⟨bus', returned, request_answered_iff (readingSector_inCommand _)
    (readingSector_polite (by simp)) returned (.inr answered)⟩

end FujiNet.NetSIO
