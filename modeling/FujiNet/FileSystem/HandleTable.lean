import FujiNet.Control.Machine
import FujiNet.TNFSlib.FileRun
import FujiNet.TNFSlib.Table
import FujiNet.FileSystem.FileTNFS

/-!
# The handles of several files

All handlers of a file system look their file up by the server's handle, in one
table. The table outlives a session: after it has expired, the files that have not
been opened again still stand there under their old handles, and so does a file
whose CLOSE was not answered. A handle that the server gives out is only right for
the table if no other file stands there under it, and this is all that is needed:
`handle_table_coherent` is about every network and every run of operations.
-/

namespace FujiNet.FileSystem

open TNFS

theorem toUint8_toNat (h : UInt8) : toUint8 h.toNat = h := by
  have := h.toNat_lt
  simp only [toUint8]
  rw [show ((h.toNat : Int) % 256).toNat = h.toNat by omega, UInt8.ofNat_toNat]

/-- The new handle is not one under which another file stands in the table. -/
def Opening.Fresh (o : Opening) : Prop :=
  ∀ j f, o.table j = some f → o.replaces ≠ some j → f.handleId ≠ o.handleId

instance (o : Opening) : Decidable o.Fresh :=
  decidable_of_iff (∀ j, ∀ f ∈ o.table j, o.replaces ≠ some j → f.handleId ≠ o.handleId) Iff.rfl

/-- A file is opened in a free place of the table, or the table stays as it is. -/
theorem openFile_table {ν : Type} {tx : Transact ν} (keeps : KeepsTable tx) {path : List UInt8}
    {mode perms : UInt16} {replaces : Option (Fin maxFileHandles)} {c c' : Client ν} {result : Int}
    {opened : Option (FileHandlerTNFS × Opening)}
    (h : openFile tx path mode perms replaces c = some ((result, opened), c')) :
    opened = none ∧ c'.mInfo.fileHandles = c.mInfo.fileHandles ∨
    ∃ i f, opened = some (⟨f.handleId.toNat, i⟩, ⟨c.mInfo.fileHandles, replaces, f.handleId⟩) ∧
      c.mInfo.fileHandles i = none ∧
      c'.mInfo.fileHandles = Function.update c.mInfo.fileHandles i (some f) := by
  simp only [openFile, Option.bind_eq_bind, Option.bind_eq_some_iff, Prod.exists,
    Option.some.injEq, Prod.mk.injEq] at h
  obtain ⟨code, handle, _, hopen, ⟨rfl, rfl⟩, rfl⟩ := h
  rcases tnfsOpen_table keeps hopen with ⟨failed, same⟩ | ⟨rfl, i, f, place, free, rfl, table⟩
  · exact .inl ⟨if_pos failed, same⟩
  · refine .inr ⟨i, f, ?_, free, table⟩
    rw [if_neg (by simp), place, toUint8_toNat]
    rfl

/-! ## One handler and the rest of the table -/

/-- The handler's file is `f`, and the other places of the table are those of `base`. -/
structure Holds {ν : Type} (base : Fin maxFileHandles → Option FileHandleInfo) (s : Handling ν)
    (f : FileHandleInfo) : Prop where
  table : s.client.mInfo.fileHandles = Function.update base s.handler.slot (some f)
  free : base s.handler.slot = none
  handle : s.handler.handle = f.handleId.toNat
  apart : ∀ j g, base j = some g → g.handleId ≠ f.handleId

/-- The handler holds its file as long as the handles given out are fresh. -/
def HoldsIfFresh {ν : Type} (base : Fin maxFileHandles → Option FileHandleInfo)
    (s : Handling ν) : Prop :=
  (∀ o ∈ s.openings, o.Fresh) → ∃ f, Holds base s f

section

variable {ν : Type} {tx : Transact ν} {base : Fin maxFileHandles → Option FileHandleInfo}
  {s s' : Handling ν} {f : FileHandleInfo}

theorem Holds.lookup (holds : Holds base s f) :
    s.client.mInfo.getFilehandleinfo f.handleId = some s.handler.slot := by
  rw [MountInfo.getFilehandleinfo_eq_some_iff, holds.table]
  refine ⟨⟨f, Function.update_self .., rfl⟩, fun j before g hg => ?_⟩
  rw [Function.update_of_ne (Fin.ne_of_lt before)] at hg
  exact holds.apart j g hg

/-- An operation on the handler's file changes nothing else. -/
theorem Holds.rewrites (holds : Holds base s f) {c : Client ν}
    (rewrites : Rewrites s.handler.handle s.client.mInfo c.mInfo) :
    ∃ f', Holds base { s with client := c } f' := by
  rcases rewrites with same | ⟨h, i, g, f', valid, found, slot, handle, written⟩
  · exact ⟨f, same.trans holds.table, holds.free, holds.handle, holds.apart⟩
  · rw [holds.handle, validAsUint8_toNat, Option.some.injEq] at valid
    subst valid
    rw [holds.lookup, Option.some.injEq] at found
    subst found
    rw [holds.table, Function.update_self, Option.some.injEq] at slot
    subst slot
    refine ⟨f', ?_, holds.free, by rw [handle]; exact holds.handle, fun j g hg => ?_⟩
    · rw [written, holds.table, Function.update_idem]
    · rw [handle]
      exact holds.apart j g hg

/-- A new file takes the place of the handler's. -/
theorem Holds.reopen (holds : Holds base s f) {i : Fin maxFileHandles} {f' : FileHandleInfo}
    {c : Client ν} (free : s.client.mInfo.fileHandles i = none)
    (table : c.mInfo.fileHandles = Function.update s.client.mInfo.fileHandles i (some f'))
    (apart : ∀ j g, base j = some g → g.handleId ≠ f'.handleId) (openings : List Opening) :
    Holds base ⟨⟨f'.handleId.toNat, i⟩,
      { c with mInfo := c.mInfo.deleteFilehandleinfo s.handler.slot }, openings⟩ f' := by
  have elsewhere : i ≠ s.handler.slot := by
    rintro rfl
    rw [holds.table, Function.update_self] at free
    exact absurd free (by simp)
  refine ⟨?_, ?_, rfl, apart⟩
  · simp only [MountInfo.deleteFilehandleinfo, table, holds.table]
    rw [Function.update_comm elsewhere, Function.update_idem, ← holds.free,
      Function.update_eq_self]
  · rw [holds.table, Function.update_of_ne elsewhere] at free
    exact free

/-- Under a fresh handle the new file stands apart from those of the others. -/
theorem Holds.apart_of_fresh (holds : Holds base s f) {h : UInt8}
    (fresh : Opening.Fresh ⟨s.client.mInfo.fileHandles, some s.handler.slot, h⟩) :
    ∀ j g, base j = some g → g.handleId ≠ h := by
  intro j g hg
  have other : j ≠ s.handler.slot := by
    rintro rfl
    rw [holds.free] at hg
    exact absurd hg (by simp)
  refine fresh j g ?_ (by simpa using other.symm)
  simp only [holds.table, Function.update_of_ne other, hg]

/-- Reopening moves the handler's file to another place. -/
theorem Holds.recovery (keeps : KeepsTable tx) (holds : Holds base s f) {recovered : UInt8}
    (h : badFdRecovery tx s = some (recovered, s')) :
    s'.openings = s.openings ∧ (∃ f', Holds base s' f') ∨
    ∃ o, s'.openings = o :: s.openings ∧ (o.Fresh → ∃ f', Holds base s' f') := by
  simp only [badFdRecovery, holds.handle, toUint8_toNat, holds.lookup, Option.bind_eq_bind,
    Option.bind_eq_some_iff, Prod.exists] at h
  obtain ⟨g, -, _, opened, c, hopen, h⟩ := h
  rcases openFile_table keeps hopen with ⟨rfl, same⟩ | ⟨i, new, rfl, free, table⟩
  · simp only [Option.some.injEq, Prod.mk.injEq] at h
    obtain ⟨-, rfl⟩ := h
    exact .inl ⟨rfl, f, same.trans holds.table, holds.free, holds.handle, holds.apart⟩
  · simp only [Option.bind_eq_some_iff, Prod.exists, Option.some.injEq, Prod.mk.injEq] at h
    obtain ⟨_, -, _, _, c'', seek, -, rfl⟩ := h
    refine .inr ⟨_, rfl, fun fresh => ?_⟩
    have reopened := holds.reopen free table (holds.apart_of_fresh fresh) []
    obtain ⟨f', moved⟩ := reopened.rewrites (tnfsLseek_table keeps seek)
    exact ⟨f', moved.table, moved.free, moved.handle, moved.apart⟩

/-! ## The operations of a handler -/

/-- Recovery only adds to the files opened. -/
theorem mem_openings_recovery {recovered : UInt8} (h : badFdRecovery tx s = some (recovered, s'))
    {o : Opening} (ho : o ∈ s.openings) : o ∈ s'.openings := by
  simp only [badFdRecovery] at h
  split at h
  · rw [← (Prod.mk.inj (Option.some.inj h)).2]
    exact ho
  · simp only [Option.bind_eq_bind, Option.bind_eq_some_iff, Prod.exists] at h
    obtain ⟨_, -, _, opened, c, -, h⟩ := h
    cases opened with
    | none =>
        rw [← (Prod.mk.inj (Option.some.inj h)).2]
        exact ho
    | some opened =>
        simp only [Option.bind_eq_some_iff, Prod.exists, Option.some.injEq, Prod.mk.injEq] at h
        obtain ⟨_, -, _, _, _, -, -, rfl⟩ := h
        exact List.mem_cons_of_mem _ ho

theorem HoldsIfFresh.recovery (keeps : KeepsTable tx) (inv : HoldsIfFresh base s)
    {recovered : UInt8} (h : badFdRecovery tx s = some (recovered, s')) :
    HoldsIfFresh base s' := by
  intro fresh
  obtain ⟨f, holds⟩ := inv fun o ho => fresh o (mem_openings_recovery h ho)
  rcases holds.recovery keeps h with ⟨-, holds'⟩ | ⟨o, opened, holds'⟩
  · exact holds'
  · exact holds' (fresh o (opened ▸ List.mem_cons_self))

theorem HoldsIfFresh.rewrites (inv : HoldsIfFresh base s) {c : Client ν}
    (rewrites : Rewrites s.handler.handle s.client.mInfo c.mInfo) :
    HoldsIfFresh base { s with client := c } := by
  intro fresh
  obtain ⟨f, holds⟩ := inv fresh
  exact holds.rewrites rewrites

/-- What both the operation and the recovery preserve. -/
theorem withRecovery_invariant {σ : Type} (inv : σ → Prop) {op : σ → Option (Int × σ)}
    {recovery : σ → Option (UInt8 × σ)} {t t' : σ} {result : Int}
    (h : withRecovery op recovery t = some (result, t')) (initial : inv t)
    (opKeeps : ∀ {t result t'}, op t = some (result, t') → inv t → inv t')
    (recoveryKeeps : ∀ {t recovered t'}, recovery t = some (recovered, t') → inv t → inv t') :
    inv t' := by
  simp only [withRecovery, Option.bind_eq_bind, Option.bind_eq_some_iff, Prod.exists] at h
  obtain ⟨first, t₁, hop, h⟩ := h
  have inv₁ := opKeeps hop initial
  split_ifs at h
  · simp only [Option.bind_eq_some_iff, Prod.exists] at h
    obtain ⟨recovered, t₂, hrecovery, h⟩ := h
    have inv₂ := recoveryKeeps hrecovery inv₁
    split_ifs at h
    · exact opKeeps h inv₂
    · rw [← (Prod.mk.inj (Option.some.inj h)).2]
      exact inv₂
  · rw [← (Prod.mk.inj (Option.some.inj h)).2]
    exact inv₁

/-- A property of a handler that survives requests for its file and recovery. -/
structure HandlingInvariant (tx : Transact ν) (inv : Handling ν → Prop) : Prop where
  rewrites : ∀ {s : Handling ν} {c : Client ν}, inv s →
    Rewrites s.handler.handle s.client.mInfo c.mInfo → inv { s with client := c }
  recovery : ∀ {s : Handling ν} {recovered : UInt8} {s' : Handling ν},
    badFdRecovery tx s = some (recovered, s') → inv s → inv s'

section Invariant

variable {inv : Handling ν → Prop}

theorem HandlingInvariant.seek (invariant : HandlingInvariant tx inv) (keeps : KeepsTable tx)
    (initial : inv s) {off whence : Int} {answer : Int × Int}
    (h : seek tx off whence s = some (answer, s')) : inv s' := by
  simp only [FileSystem.seek, Option.map_eq_some_iff, Prod.exists] at h
  obtain ⟨result, s₁, tried, h⟩ := h
  have inv₁ : inv s₁ := by
    refine withRecovery_invariant inv tried initial ?_ invariant.recovery
    intro t result t' h inv
    simp only [seekRequest, Option.map_eq_some_iff, Prod.exists, Prod.mk.injEq] at h
    obtain ⟨_, _, c, seek, -, rfl⟩ := h
    exact invariant.rewrites inv (tnfsLseek_table keeps seek)
  split_ifs at h <;> rw [← (Prod.mk.inj h).2] <;> exact inv₁

/-- One pass of the loop of `read`. -/
theorem HandlingInvariant.readPass (invariant : HandlingInvariant tx inv)
    (keeps : KeepsTable tx) {fuel bytesRequested : Nat} {t : Transfer ν} (initial : inv t.handling)
    {next : Transfer ν ⊕ (Option Int × Transfer ν)}
    (h : readPass tx fuel bytesRequested t = some next) :
    inv (next.elim Transfer.handling (Transfer.handling ∘ Prod.snd)) := by
  simp only [FileSystem.readPass] at h
  split_ifs at h
  · simp only [Option.bind_eq_some_iff, Prod.exists] at h
    obtain ⟨result, t₁, tried, h⟩ := h
    have inv₁ : inv t₁.handling := by
      refine withRecovery_invariant (fun t => inv t.handling) tried initial ?_ ?_
      · intro t result t' h inv
        simp only [readRequest, Option.map_eq_some_iff, Prod.exists, Prod.mk.injEq] at h
        obtain ⟨_, _, c, read, -, rfl⟩ := h
        exact invariant.rewrites inv (tnfsRead_table keeps read)
      · intro t recovered t' h inv
        simp only [readRecovery, Option.map_eq_some_iff, Prod.exists, Prod.mk.injEq] at h
        obtain ⟨_, s, recovery, -, rfl⟩ := h
        exact invariant.recovery recovery inv
    split_ifs at h <;> rw [← Option.some.inj h] <;> exact inv₁
  · rw [← Option.some.inj h]
    exact initial

theorem HandlingInvariant.read (invariant : HandlingInvariant tx inv) (keeps : KeepsTable tx)
    (initial : inv s) {fuel : Nat} {buffer : List UInt8} {size count : Nat} {answer : ReadAnswer}
    (h : read tx fuel buffer size count s = some (answer, s')) : inv s' := by
  simp only [FileSystem.read] at h
  split_ifs at h
  · rw [← (Prod.mk.inj (Option.some.inj h)).2]
    exact initial
  · simp only [Option.map_eq_some_iff, Prod.exists, Prod.mk.injEq] at h
    obtain ⟨errno, t, hrun, -, rfl⟩ := h
    refine Loop.run_post (fun t => inv t.handling) (fun b => inv b.2.handling) hrun initial ?_ ?_
    · intro t t' kept pass
      exact invariant.readPass keeps kept pass
    · intro t b kept pass
      exact invariant.readPass keeps kept pass

end Invariant

theorem holdsIfFresh_invariant (keeps : KeepsTable tx) :
    HandlingInvariant tx (HoldsIfFresh base) where
  rewrites inv changed := inv.rewrites changed
  recovery h inv := inv.recovery keeps h

end

/-! ## The whole file system -/

/-- The files in the table have different handles, and every handler has a file of its
own there. -/
structure Coherent {ν : Type} (fs : FileSystemTNFS ν) : Prop where
  distinct : ∀ i j f g, fs.client.mInfo.fileHandles i = some f →
    fs.client.mInfo.fileHandles j = some g → f.handleId = g.handleId → i = j
  own : ∀ key h, fs.handlers key = some h →
    ∃ f, fs.client.mInfo.fileHandles h.slot = some f ∧ h.handle = f.handleId.toNat
  apart : ∀ key key' h h', fs.handlers key = some h → fs.handlers key' = some h' →
    h.slot = h'.slot → key = key'

section

variable {ν : Type} {tx : Transact ν} {fs fs' : FileSystemTNFS ν} {key : Nat}
  {h : FileHandlerTNFS}

theorem Coherent.lookup (coherent : Coherent fs) (live : fs.handlers key = some h) :
    fs.client.mInfo.getFilehandleinfo (toUint8 h.handle) = some h.slot := by
  obtain ⟨f, slot, handle⟩ := coherent.own key h live
  rw [handle, toUint8_toNat, MountInfo.getFilehandleinfo_eq_some_iff]
  refine ⟨⟨f, slot, rfl⟩, fun j before g hg same => ?_⟩
  exact Fin.ne_of_lt before (coherent.distinct j h.slot g f hg slot same)

/-- Only the table matters of a client. -/
theorem Coherent.congr (coherent : Coherent fs) {c : Client ν}
    (same : c.mInfo.fileHandles = fs.client.mInfo.fileHandles) : Coherent ⟨c, fs.handlers⟩ :=
  ⟨by simpa only [same] using coherent.distinct, by simpa only [same] using coherent.own,
    coherent.apart⟩

/-- A handler gives up its file, which may stay in the table. -/
theorem Coherent.remove (coherent : Coherent fs) (live : fs.handlers key = some h) {c : Client ν}
    (table : c.mInfo.fileHandles = fs.client.mInfo.fileHandles ∨
      c.mInfo.fileHandles = Function.update fs.client.mInfo.fileHandles h.slot none) :
    Coherent ⟨c, Function.update fs.handlers key none⟩ := by
  have others {key' : Nat} {h' : FileHandlerTNFS}
      (live' : Function.update fs.handlers key none key' = some h') :
      key' ≠ key ∧ fs.handlers key' = some h' := by
    by_cases same : key' = key
    · rw [same, Function.update_self] at live'
      exact absurd live' (by simp)
    · rw [Function.update_of_ne same] at live'
      exact ⟨same, live'⟩
  have smaller {j : Fin maxFileHandles} {f : FileHandleInfo}
      (hf : c.mInfo.fileHandles j = some f) : fs.client.mInfo.fileHandles j = some f := by
    rcases table with same | cleared
    · rw [← same, hf]
    · rw [cleared] at hf
      by_cases hj : j = h.slot
      · rw [hj, Function.update_self] at hf
        exact absurd hf (by simp)
      · rwa [Function.update_of_ne hj] at hf
  refine ⟨?_, ?_, ?_⟩
  · intro i j f g hf hg
    exact coherent.distinct i j f g (smaller hf) (smaller hg)
  · intro key' h' live'
    obtain ⟨ne, live'⟩ := others live'
    obtain ⟨f, slot, handle⟩ := coherent.own key' h' live'
    refine ⟨f, ?_, handle⟩
    rcases table with same | cleared
    · rw [same, slot]
    · rw [cleared, Function.update_of_ne, slot]
      exact fun same => ne (coherent.apart key' key h' h live' live same)
  · intro key₁ key₂ h₁ h₂ live₁ live₂
    exact coherent.apart key₁ key₂ h₁ h₂ (others live₁).2 (others live₂).2

/-- A handler comes to hold a file beside the others. -/
theorem Coherent.insert (coherent : Coherent fs) (unused : fs.handlers key = none)
    {s : Handling ν} {f : FileHandleInfo} (holds : Holds fs.client.mInfo.fileHandles s f) :
    Coherent ⟨s.client, Function.update fs.handlers key (some s.handler)⟩ := by
  -- the places of the other files are not the new one, which was free
  have place {j : Fin maxFileHandles} {g : FileHandleInfo}
      (hg : s.client.mInfo.fileHandles j = some g) :
      j = s.handler.slot ∧ g = f ∨ fs.client.mInfo.fileHandles j = some g ∧
        g.handleId ≠ f.handleId := by
    rw [holds.table] at hg
    by_cases hj : j = s.handler.slot
    · rw [hj, Function.update_self, Option.some.injEq] at hg
      exact .inl ⟨hj, hg.symm⟩
    · rw [Function.update_of_ne hj] at hg
      exact .inr ⟨hg, holds.apart j g hg⟩
  have older {key' : Nat} {h' : FileHandlerTNFS} (live' : fs.handlers key' = some h') :
      h'.slot ≠ s.handler.slot := by
    obtain ⟨g, slot, -⟩ := coherent.own key' h' live'
    intro same
    rw [same, holds.free] at slot
    exact absurd slot (by simp)
  have handlers {key' : Nat} {h' : FileHandlerTNFS}
      (live' : Function.update fs.handlers key (some s.handler) key' = some h') :
      key' = key ∧ h' = s.handler ∨ fs.handlers key' = some h' := by
    by_cases same : key' = key
    · rw [same, Function.update_self, Option.some.injEq] at live'
      exact .inl ⟨same, live'.symm⟩
    · rw [Function.update_of_ne same] at live'
      exact .inr live'
  refine ⟨?_, ?_, ?_⟩
  · intro i j g g' hg hg' same
    rcases place hg with ⟨rfl, rfl⟩ | ⟨old, ne⟩ <;> rcases place hg' with ⟨rfl, rfl⟩ | ⟨old', ne'⟩
    · rfl
    · exact absurd same.symm ne'
    · exact absurd same ne
    · exact coherent.distinct i j g g' old old' same
  · intro key' h' live'
    rcases handlers live' with ⟨rfl, rfl⟩ | live'
    · exact ⟨f, by simp only [holds.table, Function.update_self], holds.handle⟩
    · obtain ⟨g, slot, handle⟩ := coherent.own key' h' live'
      exact ⟨g, by simp only [holds.table, Function.update_of_ne (older live'), slot], handle⟩
  · intro key₁ key₂ h₁ h₂ live₁ live₂ same
    rcases handlers live₁ with ⟨rfl, rfl⟩ | old₁ <;> rcases handlers live₂ with ⟨rfl, rfl⟩ | old₂
    · rfl
    · exact absurd same.symm (older old₂)
    · exact absurd same (older old₁)
    · exact coherent.apart key₁ key₂ h₁ h₂ old₁ old₂ same

/-- The handler found under a key holds its file. -/
theorem Coherent.holds (coherent : Coherent fs) (live : fs.handlers key = some h) :
    ∃ f, Holds (Function.update fs.client.mInfo.fileHandles h.slot none)
      ⟨h, fs.client, []⟩ f := by
  obtain ⟨f, slot, handle⟩ := coherent.own key h live
  refine ⟨f, ?_, Function.update_self .., handle, fun j g hg same => ?_⟩
  · rw [Function.update_idem, ← slot, Function.update_eq_self]
  · by_cases hj : j = h.slot
    · rw [hj, Function.update_self] at hg
      exact absurd hg (by simp)
    · rw [Function.update_of_ne hj] at hg
      exact hj (coherent.distinct j h.slot g f hg slot same)

/-- An operation of one handler, whatever it opened. -/
theorem Coherent.handling (coherent : Coherent fs) (live : fs.handlers key = some h)
    {s : Handling ν} (fresh : ∀ o ∈ s.openings, o.Fresh)
    (inv : ∀ {base}, HoldsIfFresh base ⟨h, fs.client, []⟩ → HoldsIfFresh base s) :
    Coherent ⟨s.client, Function.update fs.handlers key (some s.handler)⟩ := by
  obtain ⟨f, holds⟩ := inv (fun _ => coherent.holds live) fresh
  have removed := coherent.remove live (c := { fs.client with
    mInfo := fs.client.mInfo.deleteFilehandleinfo h.slot }) (.inr rfl)
  have unused : Function.update fs.handlers key none key = none := Function.update_self ..
  have inserted := removed.insert unused holds
  rwa [Function.update_idem] at inserted

/-! ## Runs -/

/-- Every handle given out during a step is fresh. -/
def FreshHandles (_ : HandlerOp) (_ : FileSystemTNFS ν) (answer : HandlerAnswer)
    (_ : FileSystemTNFS ν) : Prop :=
  ∀ o ∈ answer.openings, o.Fresh

/-- `filehandler_open` brings no handler, or one that holds its file beside the others. -/
theorem filehandlerOpen_table (keeps : KeepsTable tx) {path : List UInt8} {mode : List Char}
    {c c' : Client ν} {result : Int} {opened : Option (FileHandlerTNFS × Opening)}
    (hopen : filehandlerOpen tx path mode c = some ((result, opened), c')) :
    opened = none ∧ c'.mInfo.fileHandles = c.mInfo.fileHandles ∨
    ∃ handler o, opened = some (handler, o) ∧
      (o.Fresh → ∃ f, Holds c.mInfo.fileHandles ⟨handler, c', []⟩ f) := by
  simp only [filehandlerOpen] at hopen
  split_ifs at hopen
  · simp only [Option.some.injEq, Prod.mk.injEq] at hopen
    obtain ⟨⟨-, rfl⟩, rfl⟩ := hopen
    exact .inl ⟨rfl, rfl⟩
  · rcases openFile_table keeps hopen with unopened | ⟨i, f, rfl, free, table⟩
    · exact .inl unopened
    · refine .inr ⟨_, _, rfl, fun fresh => ⟨f, table, free, rfl, ?_⟩⟩
      intro j g hg same
      exact fresh j g hg (by simp) same

theorem Coherent.step (keeps : KeepsTable tx) {fuel : Nat} (coherent : Coherent fs)
    {op : HandlerOp} {answer : HandlerAnswer} (performed : op.perform tx fuel fs = some (answer, fs'))
    (fresh : FreshHandles op fs answer fs') : Coherent fs' := by
  cases op with
  | open_ key path mode =>
      simp only [HandlerOp.perform] at performed
      split at performed
      · exact absurd performed (by simp)
      rename_i unused
      simp only [Option.bind_eq_bind, Option.bind_eq_some_iff, Prod.exists] at performed
      obtain ⟨_, opened, c, hopen, performed⟩ := performed
      rcases filehandlerOpen_table keeps hopen with ⟨rfl, same⟩ | ⟨handler, o, rfl, holds⟩
      · simp only [Option.some.injEq, Prod.mk.injEq] at performed
        obtain ⟨-, rfl⟩ := performed
        exact coherent.congr same
      · simp only [Option.some.injEq, Prod.mk.injEq] at performed
        obtain ⟨rfl, rfl⟩ := performed
        obtain ⟨f, holds⟩ := holds (fresh o List.mem_cons_self)
        exact coherent.insert unused holds
  | read key buffer size count =>
      simp only [HandlerOp.perform, Option.bind_eq_bind, Option.bind_eq_some_iff, Prod.exists,
        Option.some.injEq, Prod.mk.injEq] at performed
      obtain ⟨h, live, _, s, read, rfl, rfl⟩ := performed
      exact coherent.handling live fresh fun inv =>
        (holdsIfFresh_invariant keeps).read keeps inv read
  | seek key off whence =>
      simp only [HandlerOp.perform, Option.bind_eq_bind, Option.bind_eq_some_iff, Prod.exists,
        Option.some.injEq, Prod.mk.injEq] at performed
      obtain ⟨h, live, _, _, s, seek, rfl, rfl⟩ := performed
      exact coherent.handling live fresh fun inv =>
        (holdsIfFresh_invariant keeps).seek keeps inv seek
  | close key =>
      simp only [HandlerOp.perform, Option.bind_eq_bind, Option.bind_eq_some_iff, Prod.exists,
        Option.some.injEq, Prod.mk.injEq] at performed
      obtain ⟨h, live, _, c, hclose, rfl, rfl⟩ := performed
      obtain ⟨f, slot, handle⟩ := coherent.own key h live
      have lookup := coherent.lookup live
      rw [handle, toUint8_toNat] at lookup
      simp only [close, handle] at hclose
      rw [if_pos (by omega)] at hclose
      refine coherent.remove live ?_
      rcases tnfsClose_table keeps hclose with same | ⟨id, i, valid, found, cleared⟩
      · exact .inl same
      · rw [validAsUint8_toNat, Option.some.injEq] at valid
        rw [← valid, lookup, Option.some.injEq] at found
        exact .inr (found ▸ cleared)

/-- The files in the table have different handles and every handler finds its own file,
in every state that a run reaches from a file system without open files. -/
theorem handle_table_coherent (net : Net ν) (fuel : Nat)
    (noFiles : ∀ i, fs.client.mInfo.fileHandles i = none) (noHandlers : ∀ key, fs.handlers key = none)
    (reached : Machine.Reaches (HandlerOp.perform (transaction net fuel) fuel) FreshHandles fs fs') :
    (∀ i j f g, fs'.client.mInfo.fileHandles i = some f →
      fs'.client.mInfo.fileHandles j = some g → f.handleId = g.handleId → i = j) ∧
    ∀ key h, fs'.handlers key = some h →
      fs'.client.mInfo.getFilehandleinfo (toUint8 h.handle) = some h.slot := by
  have initial : Coherent fs := by
    refine ⟨fun i j f g hf => ?_, fun key h live => ?_, fun key key' h h' live => ?_⟩
    · rw [noFiles] at hf
      exact absurd hf (by simp)
    · rw [noHandlers] at live
      exact absurd live (by simp)
    · rw [noHandlers] at live
      exact absurd live (by simp)
  have coherent : Coherent fs' := reached.invariant Coherent initial
    fun op fs answer fs' inv performed fresh =>
      inv.step (keepsTable_transaction net fuel) performed fresh
  exact ⟨coherent.distinct, fun key h live => coherent.lookup live⟩

end

/-! ## Two files and an expired session -/

/-- The session expires at one READ, and OPEN gives out the handle chosen by `handle`. -/
def expiringRead (time : Nat) (handle : Nat → Nat) : Policy := fun command t =>
  if command = Cmd.read ∧ t = time then .expire
  else .grant (if command = Cmd.open_ then handle t else 512)

/-- A file system with two files that has just been mounted. -/
def twoFiles : FileSystemTNFS FileServer :=
  ⟨freshClient fun path => if path = [0x2F, 0x61] then some [1] else some [2], fun _ => none⟩

example : twoFiles.client.mInfo.getFilehandleinfo (toUint8 0) = none := by decide +kernel

/-- The session expires while the second of two files is read. It is opened again under a
handle that is new, in the third place of the table, and found there. -/
theorem handle_table_coherent_of_new_handle :
    ∃ fs' : FileSystemTNFS FileServer,
      Machine.Reaches (HandlerOp.perform (transaction (FileServer.net (expiringRead 4 id)) 1052) 1052)
        FreshHandles twoFiles fs' ∧
      fs'.client.net.incidents.map Incident.choice = [.expire] ∧
      fs'.handlers 1 = some ⟨6, 2⟩ ∧ fs'.client.mInfo.getFilehandleinfo 6 = some 2 := by
  have computed : (((HandlerOp.open_ 0 [0x61] ['r']).perform
      (transaction (FileServer.net (expiringRead 4 id)) 1052) 1052 twoFiles).bind fun (a₁, fs₁) =>
    ((HandlerOp.open_ 1 [0x62] ['r']).perform
      (transaction (FileServer.net (expiringRead 4 id)) 1052) 1052 fs₁).bind fun (a₂, fs₂) =>
    ((HandlerOp.read 1 [0] 1 1).perform
      (transaction (FileServer.net (expiringRead 4 id)) 1052) 1052 fs₂).map fun (a₃, fs₃) =>
    ([a₁, a₂, a₃].map fun a => decide (∀ o ∈ a.openings, o.Fresh),
      fs₃.client.net.incidents.map Incident.choice, fs₃.handlers 1)) =
      some ([true, true, true], [.expire], some ⟨6, 2⟩) := by
    decide +kernel
  simp only [Option.bind_eq_some_iff, Option.map_eq_some_iff, Prod.exists, Prod.mk.injEq,
    List.map_cons, List.map_nil, List.cons.injEq, and_true, decide_eq_true_eq] at computed
  obtain ⟨a₁, fs₁, h₁, a₂, fs₂, h₂, a₃, fs₃, h₃, ⟨fresh₁, fresh₂, fresh₃⟩, expired, handler⟩ :=
    computed
  have reached : Machine.Reaches (HandlerOp.perform
      (transaction (FileServer.net (expiringRead 4 id)) 1052) 1052) FreshHandles twoFiles fs₃ :=
    ((Machine.Reaches.refl.next h₁ fresh₁).next h₂ fresh₂).next h₃ fresh₃
  have lookup := (handle_table_coherent (FileServer.net (expiringRead 4 id)) 1052 (fun _ => rfl)
    (fun _ => rfl) reached).2 1 ⟨6, 2⟩ handler
  exact ⟨fs₃, reached, expired, handler, lookup⟩

/-- A server that gives out the least free handle. After the session has expired during a
read of the second file, that file is opened again under the handle of the first, and its
handler finds the first one. -/
theorem handle_table_collides :
    ∃ (answers : List HandlerAnswer) (fs' : FileSystemTNFS FileServer) (f g : FileHandleInfo),
      Machine.run (HandlerOp.perform
          (transaction (FileServer.net (expiringRead 4 fun _ => 0)) 1052) 1052)
        [.open_ 0 [0x61] ['r'], .open_ 1 [0x62] ['r'], .read 1 [0] 1 1] twoFiles =
          some (answers, fs') ∧
      fs'.client.mInfo.fileHandles 0 = some f ∧ fs'.client.mInfo.fileHandles 2 = some g ∧
      f.handleId = g.handleId ∧ fs'.handlers 1 = some ⟨0, 2⟩ ∧
      fs'.client.mInfo.getFilehandleinfo (toUint8 0) = some 0 := by
  have computed : ((Machine.run (HandlerOp.perform
          (transaction (FileServer.net (expiringRead 4 fun _ => 0)) 1052) 1052)
        [.open_ 0 [0x61] ['r'], .open_ 1 [0x62] ['r'], .read 1 [0] 1 1] twoFiles).map
      fun (_, fs) => ((fs.client.mInfo.fileHandles 0).map FileHandleInfo.handleId,
        (fs.client.mInfo.fileHandles 2).map FileHandleInfo.handleId, fs.handlers 1,
        fs.client.mInfo.getFilehandleinfo (toUint8 0))) =
      some (some 0, some 0, some ⟨0, 2⟩, some 0) := by
    decide +kernel
  simp only [Option.map_eq_some_iff, Prod.exists, Prod.mk.injEq] at computed
  obtain ⟨answers, fs', hrun, ⟨f, first, hf⟩, ⟨g, third, hg⟩, handler, lookup⟩ := computed
  exact ⟨answers, fs', f, g, hrun, first, third, hf.trans hg.symm, handler, lookup⟩

example : twoFiles.client.mInfo.newFilehandleinfo.isSome = true := by decide +kernel

end FujiNet.FileSystem
