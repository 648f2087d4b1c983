import Mathlib.Order.Interval.Set.Nat
import FujiNet.Data.Matching
import FujiNet.FileSystem.HandleTable

/-!
# The places of the table and the open files

A file takes a place in the table when it is opened and gives it back when the
server answers the CLOSE. The handler is gone after a CLOSE in any case. So a place
stays behind for every CLOSE that is not answered, and there are as many places
taken as files open and answers lost.

The handles of the server need not be fresh for this. When two files stand in the
table under one handle, an operation may take the place of the other file for its
own, and the number is right all the same: the table has the handles of the open
files and of the lost ones, each as often.
-/

namespace FujiNet.FileSystem

open TNFS

/-- The handles in the table. -/
def slotHandles (m : MountInfo) (i : Fin maxFileHandles) : Option Int :=
  (m.fileHandles i).map fun f => f.handleId.toNat

/-- The handles of the open files. -/
def handlerHandles (handlers : Nat → Option FileHandlerTNFS) (key : Nat) : Option Int :=
  (handlers key).map FileHandlerTNFS.handle

section

variable {ν : Type} {tx : Transact ν} {m m' : MountInfo} {i : Fin maxFileHandles}

theorem slotHandles_eq_some_iff {h : UInt8} :
    slotHandles m i = some (h.toNat : Int) ↔ ∃ f, m.fileHandles i = some f ∧ f.handleId = h := by
  simp only [slotHandles, Option.map_eq_some_iff, Int.natCast_inj, UInt8.toNat_inj]

theorem slotHandles_congr (same : m'.fileHandles = m.fileHandles) :
    slotHandles m' = slotHandles m := by
  funext j
  simp only [slotHandles, same]

theorem slotHandles_of_update {o : Option FileHandleInfo}
    (table : m'.fileHandles = Function.update m.fileHandles i o) :
    slotHandles m' = Function.update (slotHandles m) i
      (o.map fun f => (f.handleId.toNat : Int)) := by
  funext j
  simp only [slotHandles, table]
  exact Function.apply_update
    (fun _ => Option.map fun f : FileHandleInfo => (f.handleId.toNat : Int)) _ _ _ _

theorem handlerHandles_update (handlers : Nat → Option FileHandlerTNFS) (key : Nat)
    (h : Option FileHandlerTNFS) :
    handlerHandles (Function.update handlers key h) =
      Function.update (handlerHandles handlers) key (h.map FileHandlerTNFS.handle) := by
  funext key'
  exact Function.apply_update (fun _ => Option.map FileHandlerTNFS.handle) _ _ _ _

/-- Reading and seeking leave the handles alone. -/
theorem slotHandles_of_rewrites {fileHandle : Int} (rewrites : Rewrites fileHandle m m') :
    slotHandles m' = slotHandles m := by
  obtain same | ⟨h, i, f, f', -, -, slot, handle, table⟩ := rewrites
  · exact slotHandles_congr same
  · rw [slotHandles_of_update table, Option.map_some, handle]
    apply Function.update_eq_self_iff.mpr
    simp [slotHandles, slot]

/-! ## One handler -/

variable {β : Type} [DecidableEq β] {others : β → Option Int} {b : β} {s s' : Handling ν}

/-- The table has the handles of the others and that of the handler. -/
def Paired (others : β → Option Int) (b : β) (s : Handling ν) : Prop :=
  SameValues (slotHandles s.client.mInfo) (Function.update others b (some s.handler.handle))

/-- The handle of the handler is found in the table. -/
theorem Paired.lookup (paired : Paired others b s) :
    ∃ (h : UInt8) (i : Fin maxFileHandles), s.handler.handle = h.toNat ∧
      s.client.mInfo.getFilehandleinfo h = some i ∧
      slotHandles s.client.mInfo i = some s.handler.handle := by
  obtain ⟨j, value⟩ := paired.exists_entry (Function.update_self b _ others)
  obtain ⟨f, slot, handle⟩ := Option.map_eq_some_iff.mp value
  have found : s.client.mInfo.getFilehandleinfo f.handleId ≠ none := by
    rw [ne_eq, MountInfo.getFilehandleinfo_eq_none_iff]
    intro all
    exact all j f slot rfl
  obtain ⟨i, found⟩ := Option.ne_none_iff_exists'.mp found
  refine ⟨f.handleId, i, handle.symm, found, ?_⟩
  rw [← handle, slotHandles_eq_some_iff]
  exact (MountInfo.getFilehandleinfo_eq_some_iff.mp found).1

/-- Reopening takes a new place and gives one back. -/
theorem Paired.recovery (keeps : KeepsTable tx) (paired : Paired others b s) {recovered : UInt8}
    (h : badFdRecovery tx s = some (recovered, s')) : Paired others b s' := by
  obtain ⟨id, i, handle, found, value⟩ := paired.lookup
  simp only [badFdRecovery, handle, toUint8_toNat, found, Option.bind_eq_bind,
    Option.bind_eq_some_iff, Prod.exists] at h
  obtain ⟨g, -, _, opened, c, hopen, h⟩ := h
  rcases openFile_table keeps hopen with ⟨rfl, same⟩ | ⟨k, new, rfl, free, table⟩
  · simp only [Option.some.injEq, Prod.mk.injEq] at h
    obtain ⟨-, rfl⟩ := h
    rw [Paired, slotHandles_congr same]
    exact paired
  · simp only [Option.bind_eq_some_iff, Prod.exists, Option.some.injEq, Prod.mk.injEq] at h
    obtain ⟨_, -, _, _, c'', seek, -, rfl⟩ := h
    have unused : slotHandles s.client.mInfo k = none := by simp [slotHandles, free]
    have elsewhere : k ≠ i := by
      rintro rfl
      simp [unused] at value
    have handles : slotHandles c''.mInfo = Function.update (Function.update
        (slotHandles s.client.mInfo) i none) k (some (new.handleId.toNat : Int)) := by
      rw [slotHandles_of_rewrites (tnfsLseek_table keeps seek), slotHandles_of_update rfl,
        slotHandles_of_update table, Function.update_comm elsewhere]
      rfl
    have erased := paired.erase value (Function.update_self b _ others)
    rw [Function.update_idem] at erased
    have inserted := erased.insert ((Function.update_of_ne elsewhere _ _).trans unused)
      (Function.update_self b _ others) (new.handleId.toNat : Int)
    rw [Function.update_idem, ← handles] at inserted
    exact inserted

theorem paired_invariant (keeps : KeepsTable tx) (others : β → Option Int) (b : β) :
    HandlingInvariant tx (Paired others b) where
  rewrites paired changed := by
    rw [Paired, slotHandles_of_rewrites changed]
    exact paired
  recovery h paired := paired.recovery keeps h

end

/-! ## The whole file system -/

/-- The table has the handles of the open files and of `lost` others. -/
def Accounts {ν : Type} (fs : FileSystemTNFS ν) (lost : List Int) : Prop :=
  SameValues (slotHandles fs.client.mInfo)
    (Sum.elim (handlerHandles fs.handlers) fun n : Nat => lost[n]?)

/-- The step is a CLOSE, and no answer to its request comes back. -/
def closeLost {ν : Type} (tx : Transact ν) (op : HandlerOp) (fs : FileSystemTNFS ν) : Bool :=
  match op with
  | .close key =>
    match fs.handlers key with
    | none => false
    | some h =>
      match tx (.request Cmd.close [toUint8 h.handle]) 1 fs.client with
      | some (none, _) => true
      | _ => false
  | _ => false

section

variable {ν : Type} {tx : Transact ν} {fs fs' : FileSystemTNFS ν} {lost : List Int} {key : Nat}
  {h : FileHandlerTNFS}

/-- A handler and its file, among the others. -/
theorem Accounts.paired (accounts : Accounts fs lost) (live : fs.handlers key = some h) :
    Paired (Sum.elim (handlerHandles fs.handlers) fun n : Nat => lost[n]?) (.inl key)
      ⟨h, fs.client, []⟩ := by
  have same : Function.update (Sum.elim (handlerHandles fs.handlers) fun n : Nat => lost[n]?)
      (.inl key) (some h.handle) = Sum.elim (handlerHandles fs.handlers) fun n => lost[n]? := by
    apply Function.update_eq_self_iff.mpr
    simp [handlerHandles, live]
  rw [Paired, same]
  exact accounts

theorem Accounts.of_paired {s : Handling ν}
    (paired : Paired (Sum.elim (handlerHandles fs.handlers) fun n : Nat => lost[n]?)
      (.inl key) s) :
    Accounts ⟨s.client, Function.update fs.handlers key (some s.handler)⟩ lost := by
  rw [Accounts, handlerHandles_update, ← Sum.update_elim_inl]
  exact paired

/-- Opening a file takes one place, or none. -/
theorem Accounts.open_ (keeps : KeepsTable tx) (accounts : Accounts fs lost)
    (unused : fs.handlers key = none) {path : List UInt8} {mode : List Char} {c : Client ν}
    {result : Int} {opened : Option (FileHandlerTNFS × Opening)}
    (hopen : filehandlerOpen tx path mode fs.client = some ((result, opened), c)) :
    Accounts ⟨c, match opened with
      | none => fs.handlers
      | some (handler, _) => Function.update fs.handlers key (some handler)⟩ lost := by
  simp only [filehandlerOpen] at hopen
  split_ifs at hopen
  · simp only [Option.some.injEq, Prod.mk.injEq] at hopen
    obtain ⟨⟨-, rfl⟩, rfl⟩ := hopen
    exact accounts
  · rcases openFile_table keeps hopen with ⟨rfl, same⟩ | ⟨i, f, rfl, free, table⟩
    · rw [Accounts, slotHandles_congr same]
      exact accounts
    · rw [Accounts, handlerHandles_update, ← Sum.update_elim_inl, slotHandles_of_update table]
      apply accounts.insert
      · simp [slotHandles, free]
      · simp [handlerHandles, unused]

/-- A CLOSE that is answered gives the place back. -/
theorem Accounts.close (accounts : Accounts fs lost) (live : fs.handlers key = some h)
    {i : Fin maxFileHandles} (value : slotHandles fs.client.mInfo i = some h.handle)
    {c : Client ν}
    (table : c.mInfo.fileHandles = Function.update fs.client.mInfo.fileHandles i none) :
    Accounts ⟨c, Function.update fs.handlers key none⟩ lost := by
  rw [Accounts, handlerHandles_update, ← Sum.update_elim_inl, slotHandles_of_update table]
  apply accounts.erase value
  simp [handlerHandles, live]

/-- One that is not leaves the place behind. -/
theorem Accounts.leak (accounts : Accounts fs lost) (live : fs.handlers key = some h)
    {c : Client ν} (table : c.mInfo.fileHandles = fs.client.mInfo.fileHandles) :
    Accounts ⟨c, Function.update fs.handlers key none⟩ (lost ++ [h.handle]) := by
  have longer : (fun n : Nat => (lost ++ [h.handle])[n]?) =
      Function.update (fun n : Nat => lost[n]?) lost.length (some h.handle) := by
    funext n
    by_cases last : n = lost.length
    · simp [last]
    · rw [Function.update_of_ne last, List.getElem?_append]
      split
      · rfl
      · rw [List.getElem?_eq_none (by simp; omega), List.getElem?_eq_none (by omega)]
  rw [Accounts, handlerHandles_update, slotHandles_congr table, longer, ← Sum.update_elim_inr,
    ← Sum.update_elim_inl]
  apply accounts.move
  · simp [handlerHandles, live]
  · simp

theorem Accounts.step (keeps : KeepsTable tx) {fuel : Nat} (accounts : Accounts fs lost)
    {op : HandlerOp} {answer : HandlerAnswer}
    (performed : op.perform tx fuel fs = some (answer, fs')) :
    ∃ lost', lost'.length = lost.length + (closeLost tx op fs).toNat ∧ Accounts fs' lost' := by
  cases op with
  | open_ key path mode =>
      simp only [HandlerOp.perform] at performed
      split at performed
      · exact absurd performed (by simp)
      · next unused =>
        simp only [Option.bind_eq_bind, Option.bind_eq_some_iff, Prod.exists] at performed
        obtain ⟨_, opened, c, hopen, performed⟩ := performed
        have opened_ := accounts.open_ keeps unused hopen
        refine ⟨lost, rfl, ?_⟩
        cases opened with
        | none =>
            simp only [Option.some.injEq, Prod.mk.injEq] at performed
            obtain ⟨-, rfl⟩ := performed
            exact opened_
        | some opened =>
            simp only [Option.some.injEq, Prod.mk.injEq] at performed
            obtain ⟨-, rfl⟩ := performed
            exact opened_
  | read key buffer size count =>
      simp only [HandlerOp.perform, Option.bind_eq_bind, Option.bind_eq_some_iff, Prod.exists,
        Option.some.injEq, Prod.mk.injEq] at performed
      obtain ⟨h, live, _, s, read, rfl, rfl⟩ := performed
      refine ⟨lost, rfl, Accounts.of_paired ?_⟩
      exact (paired_invariant keeps _ _).read keeps (accounts.paired live) read
  | seek key off whence =>
      simp only [HandlerOp.perform, Option.bind_eq_bind, Option.bind_eq_some_iff, Prod.exists,
        Option.some.injEq, Prod.mk.injEq] at performed
      obtain ⟨h, live, _, _, s, seek, rfl, rfl⟩ := performed
      refine ⟨lost, rfl, Accounts.of_paired ?_⟩
      exact (paired_invariant keeps _ _).seek keeps (accounts.paired live) seek
  | close key =>
      simp only [HandlerOp.perform, Option.bind_eq_bind, Option.bind_eq_some_iff, Prod.exists,
        Option.some.injEq, Prod.mk.injEq] at performed
      obtain ⟨h, live, _, c, hclose, rfl, rfl⟩ := performed
      obtain ⟨id, i, handle, found, value⟩ := (accounts.paired live).lookup
      have handle : h.handle = id.toNat := handle
      simp only [FileSystem.close, handle] at hclose
      rw [if_pos (by omega)] at hclose
      obtain ⟨reply, c₁, htx, table⟩ := 
        tnfsClose_table_of_found keeps (validAsUint8_toNat id) found hclose
      have lostIff : closeLost tx (.close key) fs = reply.isNone := by
        simp only [closeLost, live, handle, toUint8_toNat, htx]
        cases reply <;> rfl
      rw [lostIff]
      cases reply with
      | none => exact ⟨lost ++ [h.handle], by simp, accounts.leak live table⟩
      | some packet => exact ⟨lost, rfl, accounts.close live value table⟩

/-! ## Runs -/

/-- How many CLOSE requests of a run are not answered. -/
def lostCloses (tx : Transact ν) (fuel : Nat) : List HandlerOp → FileSystemTNFS ν → Nat
  | [], _ => 0
  | op :: ops, fs =>
    (closeLost tx op fs).toNat +
      match op.perform tx fuel fs with
      | none => 0
      | some (_, fs) => lostCloses tx fuel ops fs

/-- The places of the table that are taken. -/
def occupiedSlots (fs : FileSystemTNFS ν) : Nat :=
  (Finset.univ.filter fun i => (fs.client.mInfo.fileHandles i).isSome).card

/-- The number of handlers that are open. -/
noncomputable def openFiles (fs : FileSystemTNFS ν) : Nat :=
  {key | (fs.handlers key).isSome}.ncard

theorem Accounts.run (keeps : KeepsTable tx) {fuel : Nat} {ops : List HandlerOp}
    {answers : List HandlerAnswer} (accounts : Accounts fs lost)
    (ran : Machine.run (HandlerOp.perform tx fuel) ops fs = some (answers, fs')) :
    ∃ lost', lost'.length = lost.length + lostCloses tx fuel ops fs ∧ Accounts fs' lost' := by
  induction ops generalizing fs lost answers with
  | nil =>
      simp only [Machine.run, Option.some.injEq, Prod.mk.injEq] at ran
      obtain ⟨-, rfl⟩ := ran
      exact ⟨lost, rfl, accounts⟩
  | cons op ops ih =>
      simp only [Machine.run, Option.bind_eq_some_iff, Option.map_eq_some_iff, Prod.exists,
        Prod.mk.injEq] at ran
      obtain ⟨answer, fs₁, performed, answers', _, ran, -, rfl⟩ := ran
      obtain ⟨lost₁, length₁, accounts₁⟩ := accounts.step keeps performed
      obtain ⟨lost₂, length₂, accounts₂⟩ := ih accounts₁ ran
      refine ⟨lost₂, ?_, accounts₂⟩
      calc lost₂.length
          = lost.length + (closeLost tx op fs).toNat + lostCloses tx fuel ops fs₁ := by
            rw [length₂, length₁]
        _ = lost.length + lostCloses tx fuel (op :: ops) fs := by
            rw [lostCloses, performed, Nat.add_assoc]

theorem Accounts.occupiedSlots_eq (accounts : Accounts fs lost) :
    occupiedSlots fs = openFiles fs + lost.length := by
  have slots : {i | (slotHandles fs.client.mInfo i).isSome}.ncard = occupiedSlots fs := by
    rw [occupiedSlots, ← Set.ncard_coe_finset]
    simp [slotHandles]
  have handlers : {key | (handlerHandles fs.handlers key).isSome}.ncard = openFiles fs := by
    simp [handlerHandles, openFiles]
  have leaks : {n : Nat | (lost[n]?).isSome}.ncard = lost.length := by
    have below : {n : Nat | (lost[n]?).isSome} = Set.Iio lost.length := by
      ext n
      simp
    rw [below, Set.ncard_Iio_nat]
  rw [← slots, ← handlers, accounts.ncard_eq_add, leaks]

theorem newFilehandleinfo_of_occupied (room : occupiedSlots fs < maxFileHandles) :
    ∃ place, fs.client.mInfo.newFilehandleinfo = some place := by
  apply Option.ne_none_iff_exists'.mp
  rw [ne_eq, MountInfo.newFilehandleinfo_eq_none_iff]
  intro all
  apply Nat.ne_of_lt room
  rw [occupiedSlots, Finset.filter_true_of_mem (fun i _ => all i)]
  rfl

/-- After any run there are as many places taken as files open if and only if every CLOSE
was answered. If so, a file can be opened as long as fewer are open than there are places. -/
theorem slots_match_open_files_iff (net : Net ν) (fuel : Nat)
    (noFiles : ∀ i, fs.client.mInfo.fileHandles i = none) (noHandlers : ∀ key, fs.handlers key = none)
    {ops : List HandlerOp} {answers : List HandlerAnswer}
    (ran : Machine.run (HandlerOp.perform (transaction net fuel) fuel) ops fs =
      some (answers, fs')) :
    (occupiedSlots fs' = openFiles fs' ↔ lostCloses (transaction net fuel) fuel ops fs = 0) ∧
    (lostCloses (transaction net fuel) fuel ops fs = 0 → openFiles fs' < maxFileHandles →
      ∃ place, fs'.client.mInfo.newFilehandleinfo = some place) := by
  have initial : Accounts fs [] := by
    apply SameValues.of_empty
    · intro i
      simp [slotHandles, noFiles]
    · rintro (key | n)
      · simp [handlerHandles, noHandlers]
      · simp
  obtain ⟨lost, length, accounts⟩ := initial.run (keepsTable_transaction net fuel) ran
  have count : occupiedSlots fs' =
      openFiles fs' + lostCloses (transaction net fuel) fuel ops fs := by
    rw [accounts.occupiedSlots_eq, length, List.length_nil, Nat.zero_add]
  constructor
  · omega
  · intro answered room
    apply newFilehandleinfo_of_occupied
    omega

end

/-! ## One file, opened and closed -/

/-- The file is read and closed, and every answer comes back. -/
theorem slots_match_open_files_iff_of_answered_close :
    ∃ (answers : List HandlerAnswer) (fs' : FileSystemTNFS FileServer),
      Machine.run (HandlerOp.perform (transaction (FileServer.net (expiringRead 0 id)) 1052) 1052)
        [.open_ 0 [0x61] ['r'], .read 0 [0] 1 1, .close 0] twoFiles = some (answers, fs') ∧
      occupiedSlots fs' = openFiles fs' := by
  have computed : (Machine.run
      (HandlerOp.perform (transaction (FileServer.net (expiringRead 0 id)) 1052) 1052)
      [.open_ 0 [0x61] ['r'], .read 0 [0] 1 1, .close 0] twoFiles).isSome ∧
    lostCloses (transaction (FileServer.net (expiringRead 0 id)) 1052) 1052
      [.open_ 0 [0x61] ['r'], .read 0 [0] 1 1, .close 0] twoFiles = 0 := by
    decide +kernel
  obtain ⟨⟨answers, fs'⟩, ran⟩ := Option.isSome_iff_exists.mp computed.1
  have counted := slots_match_open_files_iff (FileServer.net (expiringRead 0 id)) 1052
    (fun _ => rfl) (fun _ => rfl) ran
  exact ⟨answers, fs', ran, counted.1.mpr computed.2⟩

/-- The requests to close a file do not arrive. -/
def lostClose : Policy := fun command t =>
  if command = Cmd.close then .lose else .grant (if command = Cmd.open_ then t else 512)

/-- Open a file and close it again, `n` times. -/
def openAndClose (n : Nat) : List HandlerOp :=
  (List.range n).flatMap fun key => [.open_ key [0x61] ['r'], .close key]

def HandlerOp.key : HandlerOp → Nat
  | .open_ key _ _ | .read key _ _ _ | .seek key _ _ | .close key => key

/-- An operation leaves the other handlers alone. -/
theorem HandlerOp.perform_handlers {ν : Type} {tx : Transact ν} {fuel : Nat} {op : HandlerOp}
    {fs fs' : FileSystemTNFS ν} {answer : HandlerAnswer}
    (performed : op.perform tx fuel fs = some (answer, fs')) {key : Nat} (other : key ≠ op.key) :
    fs'.handlers key = fs.handlers key := by
  cases op with
  | open_ key' path mode =>
      simp only [HandlerOp.perform] at performed
      split at performed
      · exact absurd performed (by simp)
      · simp only [Option.bind_eq_bind, Option.bind_eq_some_iff, Prod.exists] at performed
        obtain ⟨_, opened, c, -, performed⟩ := performed
        cases opened with
        | none => rw [← (Prod.mk.inj (Option.some.inj performed)).2]
        | some opened =>
            rw [← (Prod.mk.inj (Option.some.inj performed)).2]
            exact Function.update_of_ne other _ _
  | read key' buffer size count =>
      simp only [HandlerOp.perform, Option.bind_eq_bind, Option.bind_eq_some_iff, Prod.exists,
        Option.some.injEq, Prod.mk.injEq] at performed
      obtain ⟨_, -, _, s, -, -, rfl⟩ := performed
      exact Function.update_of_ne other _ _
  | seek key' off whence =>
      simp only [HandlerOp.perform, Option.bind_eq_bind, Option.bind_eq_some_iff, Prod.exists,
        Option.some.injEq, Prod.mk.injEq] at performed
      obtain ⟨_, -, _, _, s, -, -, rfl⟩ := performed
      exact Function.update_of_ne other _ _
  | close key' =>
      simp only [HandlerOp.perform, Option.bind_eq_bind, Option.bind_eq_some_iff, Prod.exists,
        Option.some.injEq, Prod.mk.injEq] at performed
      obtain ⟨_, -, _, c, -, -, rfl⟩ := performed
      exact Function.update_of_ne other _ _

theorem run_handlers {ν : Type} {tx : Transact ν} {fuel : Nat} {ops : List HandlerOp}
    {fs fs' : FileSystemTNFS ν} {answers : List HandlerAnswer}
    (ran : Machine.run (HandlerOp.perform tx fuel) ops fs = some (answers, fs')) {key : Nat}
    (others : ∀ op ∈ ops, key ≠ op.key) : fs'.handlers key = fs.handlers key := by
  induction ops generalizing fs answers with
  | nil =>
      simp only [Machine.run, Option.some.injEq, Prod.mk.injEq] at ran
      rw [ran.2]
  | cons op ops ih =>
      simp only [Machine.run, Option.bind_eq_some_iff, Option.map_eq_some_iff, Prod.exists,
        Prod.mk.injEq] at ran
      obtain ⟨answer, fs₁, performed, answers', _, ran, -, rfl⟩ := ran
      have rest := ih ran fun op mem => others op (List.mem_cons_of_mem _ mem)
      rw [rest, op.perform_handlers performed (others op List.mem_cons_self)]

/-- A file is opened and closed eight times, and none of the CLOSE requests is answered.
Then all places are taken, no file is open, and the next one is refused. -/
theorem lost_closes_fill_table :
    ∃ (answers : List HandlerAnswer) (fs' : FileSystemTNFS FileServer),
      Machine.run (HandlerOp.perform (transaction (FileServer.net lostClose) 20) 20)
        (openAndClose 8 ++ [.open_ 8 [0x61] ['r']]) twoFiles = some (answers, fs') ∧
      occupiedSlots fs' = maxFileHandles ∧ openFiles fs' = 0 ∧
      answers.getLast?.map HandlerAnswer.result = some (code Result.tooManyFilesOpen) := by
  have computed : ((Machine.run
        (HandlerOp.perform (transaction (FileServer.net lostClose) 20) 20)
        (openAndClose 8 ++ [.open_ 8 [0x61] ['r']]) twoFiles).map fun (answers, fs) =>
      (occupiedSlots fs, (List.range 9).all fun key => (fs.handlers key).isNone,
        answers.getLast?.map HandlerAnswer.result)) =
      some (maxFileHandles, true, some (code Result.tooManyFilesOpen)) := by
    decide +kernel
  obtain ⟨⟨answers, fs'⟩, ran, computed⟩ := Option.map_eq_some_iff.mp computed
  obtain ⟨occupied, closed, refused⟩ := by simpa only [Prod.mk.injEq] using computed
  refine ⟨answers, fs', ran, occupied, ?_, refused⟩
  have keys : ∀ op ∈ openAndClose 8 ++ [.open_ 8 [0x61] ['r']], op.key < 9 := by decide
  have none_ : ∀ key, fs'.handlers key = none := by
    intro key
    rcases Nat.lt_or_ge key 9 with used | unused
    · exact Option.isNone_iff_eq_none.mp
        (List.all_eq_true.mp closed key (List.mem_range.mpr used))
    · exact run_handlers ran fun op mem => Nat.ne_of_gt (Nat.lt_of_lt_of_le (keys op mem) unused)
  simp [openFiles, none_]

example : lostCloses (transaction (FileServer.net lostClose) 20) 20 (openAndClose 2) twoFiles = 2 := by
  decide +kernel

end FujiNet.FileSystem
