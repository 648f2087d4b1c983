import FujiNet.Control.Yields
import FujiNet.Sio.NetSio

/-!
# The credit of the NetSIO port

The hub grants a number of messages at a time and says so in a credit update, which
replaces what was left. A ledger over the history of the link counts the messages since the
latest update. The count and what is left of the credit are together no more than what was
granted; this is kept by every poll, also while a sender waits, and by every operation.
-/

namespace FujiNet.NetSIO

/-- The messages that cost credit. -/
def creditKinds : List UInt8 :=
  [NETSIO_DATA_BYTE, NETSIO_DATA_BLOCK, NETSIO_PROCEED_OFF, NETSIO_PROCEED_ON,
    NETSIO_INTERRUPT_OFF, NETSIO_INTERRUPT_ON, NETSIO_SYNC_RESPONSE]

def takesCredit (datagram : List UInt8) : Bool := creditKinds.contains (datagram.headD 0)

/-- What was granted by the latest update, and what was sent since. -/
structure Ledger where
  granted : Int
  sent : Nat
deriving DecidableEq, Repr

def Ledger.next (ledger : Ledger) : Io → Ledger
  | .received (.creditUpdate credit) => ⟨credit.toNat, 0⟩
  | .sent datagram =>
    if takesCredit datagram then { ledger with sent := ledger.sent + 1 } else ledger
  | .received _ | .charged _ => ledger

/-- The ledger of a link on which `initial` messages are granted in front of the first
update. -/
def ledger (initial : Nat) (wire : List Io) : Ledger := wire.foldl Ledger.next ⟨initial, 0⟩

/-- At no time more is sent than was granted, and the credit never falls below zero. -/
structure InCredit (initial : Nat) (wire : List Io) : Prop where
  bounded : ∀ front, front <+: wire → (ledger initial front).sent ≤ (ledger initial front).granted
  charged : ∀ left, Io.charged left ∈ wire → 0 ≤ left

section Ledger

variable {initial : Nat} {wire : List Io} {io : Io}

theorem ledger_append : ledger initial (wire ++ [io]) = (ledger initial wire).next io := by
  rw [ledger, List.foldl_append]
  rfl

theorem InCredit.append (inCredit : InCredit initial wire)
    (bounded : ((ledger initial wire).next io).sent ≤ ((ledger initial wire).next io).granted)
    (charged : ∀ left, io = .charged left → 0 ≤ left) : InCredit initial (wire ++ [io]) := by
  constructor
  · intro front isPrefix
    rcases List.prefix_concat_iff.mp isPrefix with rfl | inside
    · rw [ledger_append]
      exact bounded
    · exact inCredit.bounded front inside
  · intro left mem
    rcases List.mem_append.mp mem with mem | mem
    · exact inCredit.charged left mem
    · exact charged left (List.mem_singleton.mp mem).symm

end Ledger

/-- Between a charge and the message it is for, `paid` messages are not sent yet. -/
structure Funded (paid : Nat) (s : NetSioPort) : Prop where
  inCredit : InCredit 3 s.wire
  covered : (ledger 3 s.wire).sent + paid + s.credit ≤ (ledger 3 s.wire).granted
  nonneg : 0 ≤ s.credit

/-- The invariant of the port. Without a connection there is no socket. -/
structure Covered (s : NetSioPort) : Prop extends Funded 0 s where
  closed : s.initialized = false → s.fd = false

namespace NetSioPort

variable {paid : Nat} {s t : NetSioPort} {d : List UInt8} {message : Message} {p : Poll}

theorem funded_of_same (h : Funded paid s) (wire : t.wire = s.wire) (credit : t.credit = s.credit) :
    Funded paid t := by
  refine ⟨?_, ?_, ?_⟩
  · rw [wire]
    exact h.inCredit
  · rw [wire, credit]
    exact h.covered
  · rw [credit]
    exact h.nonneg

/-- A line of the history that the ledger does not count. -/
theorem funded_log {io : Io} (h : Funded paid s)
    (quiet : (ledger 3 s.wire).next io = ledger 3 s.wire)
    (charged : ∀ left, io = .charged left → 0 ≤ left) : Funded paid (s.log io) := by
  have kept : ledger 3 (s.log io).wire = ledger 3 s.wire := by
    rw [log, ledger_append, quiet]
  refine ⟨h.inCredit.append ?_ charged, ?_, h.nonneg⟩
  · rw [quiet]
    exact h.inCredit.bounded _ (List.prefix_refl _)
  · rw [kept]
    exact h.covered

theorem funded_send (h : Funded paid s) (quiet : takesCredit d = false) :
    Funded paid (s.send d) :=
  funded_log h (by simp [Ledger.next, quiet]) (by simp)

theorem covered_of_same (h : Covered s) (wire : t.wire = s.wire) (credit : t.credit = s.credit)
    (closed : t.initialized = false → t.fd = false) : Covered t :=
  ⟨funded_of_same h.toFunded wire credit, closed⟩

theorem covered_send (h : Covered s) (quiet : takesCredit d = false) :
    Covered (s.send d) :=
  ⟨funded_send h.toFunded quiet, h.closed⟩

/-! ## Connecting -/

theorem covered_setBaudrate (h : Covered s) (baud : Nat) : Covered (s.setBaudrate baud) := by
  rw [setBaudrate]
  split_ifs
  · exact h
  · exact covered_of_same (covered_send (d := NETSIO_SPEED_CHANGE :: le32 baud) h rfl) rfl rfl
      h.closed

theorem covered_end (h : Funded 0 s) : Covered s.end' := by
  rw [end']
  by_cases fd : s.fd
  · simp only [if_pos fd]
    have sent := funded_send (d := [NETSIO_DEVICE_DISCONNECT]) h rfl
    exact ⟨funded_of_same sent rfl rfl, fun _ => rfl⟩
  · simp only [if_neg fd]
    exact ⟨funded_of_same h rfl rfl, fun _ => by simpa using fd⟩

theorem covered_suspend (h : Funded 0 s) : Covered s.suspend :=
  covered_end (funded_of_same h rfl rfl)

theorem covered_begin (h : Covered s) (outcome : Connect) (baud : Nat) :
    Covered (s.begin' outcome baud) := by
  have ended : Funded 0 (if s.initialized then s.end' else s) := by
    split_ifs
    · exact (covered_end h.toFunded).toFunded
    · exact h.toFunded
  cases outcome with
  | noSocket => exact covered_suspend (funded_of_same ended rfl rfl)
  | noHub => exact covered_suspend (funded_of_same ended rfl rfl)
  | connected =>
    refine covered_setBaudrate ⟨?_, fun offline => by simp at offline⟩ baud
    have opened := funded_of_same (t := { (if s.initialized then s.end' else s) with
      suspended := false
      commandAsserted := false
      motorAsserted := false
      rxbuf := []
      fd := true }) ended rfl rfl
    exact funded_of_same (funded_send (d := [NETSIO_DEVICE_CONNECT]) opened rfl) rfl rfl

theorem covered_resumeTest (h : Covered s) (resume : Option Connect) :
    Covered (s.resumeTest resume) := by
  simp only [resumeTest]
  split_ifs
  · exact h
  · cases resume with
    | none => exact h
    | some outcome => exact covered_begin h outcome s.baud
  · exact h

theorem covered_keepAlive (h : Covered s) (alive : Alive) : Covered (s.keepAlive alive) := by
  cases alive with
  | idle => exact h
  | request => exact covered_send h rfl
  | lost => exact covered_suspend h.toFunded
  | reconnect outcome => exact covered_begin (covered_end h.toFunded) outcome s.baud

/-! ## Messages -/

theorem covered_arrive (h : Covered s) (b : UInt8) : Covered (s.arrive b) :=
  covered_of_same h rfl rfl h.closed

theorem covered_foldl_arrive (h : Covered s) (bytes : List UInt8) :
    Covered (bytes.foldl arrive s) := by
  induction bytes generalizing s with
  | nil => exact h
  | cons b bytes ih => exact ih (covered_arrive h b)

/-- A credit update starts a new count; the other messages leave it as it is. -/
theorem covered_handleMessage (h : Covered s) (message : Message) :
    Yields ((s.log (.received message)).handleMessage message) Covered := by
  have logged : message ≠ .coldReset → (∀ credit, message ≠ .creditUpdate credit) →
      Covered (s.log (.received message)) := by
    intro _ noUpdate
    refine ⟨funded_log h.toFunded ?_ (by simp), h.closed⟩
    cases message with
    | creditUpdate credit => exact absurd rfl (noUpdate credit)
    | _ => rfl
  cases message with
  | creditUpdate credit =>
    refine .some ⟨⟨h.inCredit.append ?_ (by simp), ?_, ?_⟩, h.closed⟩
    · simp [Ledger.next]
    · simp only [log, ledger_append, Ledger.next]
      omega
    · exact Int.natCast_nonneg _
  | coldReset => exact .none
  | dataByte b => exact .some (covered_arrive (logged (by simp) (by simp)) b)
  | dataByteSync num b =>
    have kept := logged (by simp) (by simp)
    exact .some (covered_arrive (covered_of_same (t := { s.log (.received (.dataByteSync num b)) with
      syncRequestNum := some num }) kept rfl rfl kept.closed) b)
  | dataBlock bytes => exact .some (covered_foldl_arrive (logged (by simp) (by simp)) bytes)
  | _ =>
    have kept := logged (by simp) (by simp)
    exact .some (covered_of_same kept rfl rfl kept.closed)

theorem covered_handlePoll (h : Covered s) (p : Poll) : Yields (s.handlePoll p) Covered := by
  have resumed := covered_resumeTest h p.resume
  simp only [handlePoll]
  split_ifs with offline
  · exact .some resumed
  · cases p.message? with
    | none => exact .some (covered_keepAlive resumed p.alive)
    | some message =>
      exact .map ((covered_handleMessage resumed message).mono fun t kept =>
        covered_keepAlive kept p.alive)

theorem covered_handleNetsio (h : Covered s) : Yields s.handleNetsio Covered := by
  rw [handleNetsio]
  cases s.polls with
  | nil => exact .none
  | cons p polls =>
    exact covered_handlePoll (covered_of_same (t := { s with polls }) h rfl rfl h.closed) p

/-! ## Sending -/

/-- What a sender finds after `wait_for_credit`: its message is paid for, or the link is
down. -/
def Ready (granted : Bool) (s : NetSioPort) : Prop :=
  (s.initialized = false → s.fd = false) ∧ if granted then Funded 1 s else Funded 0 s ∧ s.fd = false

theorem ready_waitForCredit (h : Covered s) :
    Yields (s.waitForCredit 1) fun (granted, s) => Ready granted s := by
  refine .run h fun s h => ?_
  rw [creditPass]
  split_ifs with enough offline
  · refine .some ⟨h.closed, ?_⟩
    have left : 0 ≤ s.credit - 1 := by omega
    refine ⟨h.inCredit.append ?_ (by simpa using left), ?_, left⟩
    · exact h.inCredit.bounded _ (List.prefix_refl _)
    · have covered := h.covered
      simp only [log, ledger_append, Ledger.next]
      omega
  · exact .some ⟨h.closed, h.toFunded, h.closed (by simpa using offline)⟩
  · exact .map ((covered_handleNetsio (covered_send h rfl)).mono fun t kept => kept)

/-- A message that was paid for is sent. -/
theorem funded_sent (h : Funded 1 s) (costs : takesCredit d = true) :
    Funded 0 (s.send d) := by
  have covered := h.covered
  have nonneg := h.nonneg
  have counted : (ledger 3 s.wire).next (.sent d) =
      { ledger 3 s.wire with sent := (ledger 3 s.wire).sent + 1 } := if_pos costs
  refine ⟨h.inCredit.append ?_ (by simp), ?_, nonneg⟩
  · rw [counted]
    push_cast
    omega
  · simp only [send, log, ledger_append, counted]
    push_cast
    omega

theorem covered_writeSock {granted : Bool} (ready : Ready granted s)
    (costs : takesCredit d = true) : Covered (s.writeSock d).2 := by
  obtain ⟨closed, paid⟩ := ready
  have spent : Funded 1 s → Funded 0 s := by
    intro h
    have covered := h.covered
    exact ⟨h.inCredit, by omega, h.nonneg⟩
  rw [writeSock]
  by_cases fd : s.fd
  · rw [if_neg (by simp [fd])]
    have funded : Funded 1 s := by
      cases granted with
      | true => exact paid
      | false =>
        have down : s.fd = false := paid.2
        rw [down] at fd
        simp at fd
    cases s.writes with
    | nil => exact ⟨funded_sent funded costs, closed⟩
    | cons success writes =>
      have next := funded_of_same (t := { s with writes }) funded rfl rfl
      cases success with
      | true => exact ⟨funded_sent next costs, closed⟩
      | false => exact ⟨funded_of_same (spent funded) rfl rfl, closed⟩
  · rw [if_pos (by simpa using fd)]
    refine ⟨?_, closed⟩
    cases granted with
    | true => exact spent paid
    | false => exact paid.1

theorem covered_charge (h : Covered s) (costs : takesCredit d = true) :
    Yields (s.charge d) fun r => Covered r.2 :=
  .bind (ready_waitForCredit h) fun _ ready => .some (covered_writeSock ready costs)

theorem covered_sendSyncResponse (h : Covered s) (num responseType ackByte : UInt8) (size : Nat) :
    Yields (s.sendSyncResponse num responseType ackByte size) fun r => Covered r.2 :=
  .map (covered_charge (covered_of_same h rfl rfl h.closed) rfl)

theorem covered_sendEmptySync (h : Covered s) : Yields s.sendEmptySync Covered := by
  rw [sendEmptySync]
  cases s.syncRequestNum with
  | none => exact .some h
  | some num => exact .map (covered_sendSyncResponse h num NETSIO_EMPTY_SYNC 0 0)

theorem covered_setProceed (h : Covered s) (level : Bool) :
    Yields (s.setProceed level) Covered := by
  have unsent := covered_of_same (t := { s with lastProceed := some level }) h rfl rfl h.closed
  rw [setProceed]
  split_ifs
  · exact .some h
  · exact .some h
  · exact .map (covered_charge unsent rfl)
  · exact .map (covered_charge unsent rfl)

theorem covered_setInterrupt (h : Covered s) (level : Bool) :
    Yields (s.setInterrupt level) Covered := by
  have unsent := covered_of_same (t := { s with lastInterrupt := some level }) h rfl rfl h.closed
  rw [setInterrupt]
  split_ifs
  · exact .some h
  · exact .some h
  · exact .map (covered_charge unsent rfl)
  · exact .map (covered_charge unsent rfl)

theorem covered_writeData (h : Covered s) (c : UInt8) :
    Yields (s.writeData c) fun r => Covered r.2 := by
  refine .map ((ready_waitForCredit h).mono fun (granted, t) ready => ?_)
  cases granted with
  | false => exact ⟨ready.2.1, ready.1⟩
  | true => exact covered_writeSock (d := [NETSIO_DATA_BYTE, c]) ready rfl

theorem covered_write (h : Covered s) (c : UInt8) : Yields (s.write c) fun r => Covered r.2 := by
  rw [write]
  split_ifs
  · exact .some h
  · cases s.syncRequestNum with
    | none => exact covered_writeData h c
    | some num =>
      cases s.syncWriteSize with
      | none => exact covered_sendSyncResponse h num NETSIO_ACK_SYNC c 0
      | some size =>
        exact .bind (covered_sendSyncResponse h num NETSIO_ACK_SYNC s.syncAckByte size)
          fun _ kept => covered_writeData kept c

theorem covered_writeBlock (h : Covered s) (buffer : List UInt8) :
    Yields (s.writeBlock buffer) fun r => Covered r.2 := by
  rw [writeBlock]
  split_ifs
  · exact .some h
  · refine .run (I := fun state => Covered state.2.2) h fun (txbytes, rest, s) h => ?_
    simp only [blockPass]
    split_ifs
    · exact .some h
    · refine .map ((ready_waitForCredit h).mono fun (granted, t) ready => ?_)
      cases granted with
      | false => exact ⟨ready.2.1, ready.1⟩
      | true =>
        have sent := covered_writeSock (d := NETSIO_DATA_BLOCK :: rest.take 512) ready rfl
        dsimp only
        cases written : t.writeSock (NETSIO_DATA_BLOCK :: rest.take 512) with
        | mk success t' =>
          rw [written] at sent
          cases success with
          | true => exact sent
          | false => exact sent

/-! ## Reading -/

theorem covered_waitForData (h : Covered s) : Yields s.waitForData fun r => Covered r.2 := by
  refine .run h fun s h => ?_
  rw [dataPass]
  split_ifs
  · exact .some h
  · exact .some h
  · cases s.polls with
    | nil => exact .none
    | cons p polls =>
      dsimp only
      split_ifs
      · exact .some (covered_of_same h rfl rfl h.closed)
      · exact .map (covered_handleNetsio h)

theorem covered_read (h : Covered s) : Yields s.read fun r => Covered r.2 := by
  rw [read]
  split_ifs
  · exact .some h
  · refine .map ((covered_waitForData h).mono fun (ready, t) kept => ?_)
    dsimp only
    split_ifs
    · exact covered_of_same kept rfl rfl kept.closed
    · exact kept

theorem covered_readLoop (h : Covered s) (n : Nat) : Yields (readLoop n s) fun r => Covered r.2 := by
  induction n generalizing s with
  | zero => exact .some h
  | succ n ih =>
    refine .bind (covered_read h) fun (result, t) kept => ?_
    cases result with
    | none => exact .some kept
    | some b => exact .map (ih kept)

theorem covered_readBytes (h : Covered s) (n : Nat) :
    Yields (s.readBytes n) fun r => Covered r.2 := by
  rw [readBytes]
  split_ifs
  · exact .some h
  · split
    · exact .bind (covered_sendSyncResponse h _ _ _ _) fun _ kept => covered_readLoop kept n
    · exact covered_readLoop h n

theorem covered_flushInput (h : Covered s) : Covered s.flushInput := by
  rw [flushInput]
  split_ifs
  · exact covered_of_same h rfl rfl h.closed
  · exact h

theorem covered_available (h : Covered s) : Yields s.available fun r => Covered r.2 := by
  rw [available]
  split_ifs
  · exact .map (covered_handleNetsio h)
  · exact .some h

end NetSioPort

/-! ## Runs -/

section Runs

variable {s : NetSioPort}

open NetSioPort

theorem PortOp.covered_run (h : Covered s) (op : PortOp) :
    Yields (op.run s) fun r => Covered r.2 := by
  cases op with
  | setBaudrate baud => exact .some (covered_setBaudrate h baud)
  | setProceed level => exact .map (covered_setProceed h level)
  | setInterrupt level => exact .map (covered_setInterrupt h level)
  | flushInput => exact .some (covered_flushInput h)
  | flush => exact .some (covered_flushInput h)
  | available => exact .map (covered_available h)
  | isCommandAsserted => exact .map (.map (covered_handleNetsio h))
  | isMotorAsserted => exact .map (.map (covered_handleNetsio h))
  | read => exact .map (covered_read h)
  | readBytes length => exact covered_readBytes h length
  | write c => exact .map (covered_write h c)
  | writeBlock buffer => exact .map (covered_writeBlock h buffer)
  | setSyncAckByte ackByte => exact .some (covered_of_same h rfl rfl h.closed)
  | setSyncWriteSize writeSize => exact .some (covered_of_same h rfl rfl h.closed)
  | sendEmptySync => exact .map (covered_sendEmptySync h)

theorem Call.covered_run (h : Covered s) (call : Call) : Yields (call.run s) Covered := by
  cases call with
  | begin' outcome baud => exact .some (covered_begin h outcome baud)
  | end' => exact .some (covered_end h.toFunded)
  | perform op => exact .map (op.covered_run h)

theorem covered_runCalls (h : Covered s) (calls : List Call) :
    Yields (runCalls calls s) Covered := by
  induction calls generalizing s with
  | nil => exact .some h
  | cons call calls ih => exact .bind (call.covered_run h) fun _ kept => ih kept

theorem covered_constructed (polls : List Poll) (writes : List Bool) :
    Covered (constructed polls writes) := by
  refine ⟨⟨⟨?_, by simp [constructed]⟩, by simp [constructed, ledger], by simp [constructed]⟩,
    fun _ => rfl⟩
  intro front isPrefix
  obtain rfl : front = [] := List.prefix_nil.mp isPrefix
  decide

/-- In every run of calls, with whatever the hub sends and whenever the link drops, the
credit is never negative, and no more messages are sent after an update than it grants;
three are granted in front of the first one. -/
theorem credit_kept (polls : List Poll) (writes : List Bool) (calls : List Call) :
    ∀ s, runCalls calls (constructed polls writes) = some s →
      0 ≤ s.credit ∧ InCredit 3 s.wire := by
  intro s run
  have kept := covered_runCalls (covered_constructed polls writes) calls s run
  exact ⟨kept.nonneg, kept.inCredit⟩

/-- Four bytes are sent, the fourth after an update to two messages arrived. -/
theorem four_bytes_in_credit :
    ∃ s, runCalls (.begin' .connected 19200 :: [1, 2, 3, 4].map fun c => .perform (.write c))
        (constructed [⟨true, none, [NETSIO_CREDIT_UPDATE, 2], 0, .idle⟩] []) = some s ∧
      0 ≤ s.credit ∧ InCredit 3 s.wire := by
  have returns : (runCalls (.begin' .connected 19200 :: [1, 2, 3, 4].map fun c => .perform (.write c))
      (constructed [⟨true, none, [NETSIO_CREDIT_UPDATE, 2], 0, .idle⟩] [])).isSome = true := by
    decide +kernel
  obtain ⟨s, run⟩ := Option.isSome_iff_exists.mp returns
  exact ⟨s, run, credit_kept _ _ _ s run⟩

/-- After `begin` a byte is sent in front of any update. -/
theorem credit_before_update :
    ∃ s, runCalls [.begin' .connected 19200, .perform (.write 0x41)] (constructed [] []) = some s ∧
      (∀ credit, Io.received (.creditUpdate credit) ∉ s.wire) ∧ ¬ InCredit 0 s.wire := by
  have history : (runCalls [.begin' .connected 19200, .perform (.write 0x41)]
      (constructed [] [])).map (fun s => s.wire) =
      some [.sent [NETSIO_DEVICE_CONNECT], .sent [NETSIO_SPEED_CHANGE, 0x00, 0x4B, 0x00, 0x00],
        .charged 2, .sent [NETSIO_DATA_BYTE, 0x41]] := by
    decide +kernel
  obtain ⟨s, run, wire⟩ := Option.map_eq_some_iff.mp history
  refine ⟨s, run, ?_, ?_⟩
  · simp [wire]
  · intro inCredit
    have bounded := inCredit.bounded s.wire (List.prefix_refl _)
    rw [wire] at bounded
    exact absurd bounded (by decide)

end Runs

end FujiNet.NetSIO
