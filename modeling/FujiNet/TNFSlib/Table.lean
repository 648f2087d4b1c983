import FujiNet.TNFSlib.Keeps

/-!
# What the operations do to the table of open files

Nothing is assumed here about the server or the network. A transaction does not
touch the table, `tnfs_read` and `tnfs_lseek` write at most to the record of their
file and leave its handle alone, and `tnfs_open` and `tnfs_close` fill and clear one
place.
-/

namespace FujiNet.TNFS

/-- A transaction function that does not touch the table. -/
def KeepsTable {ν : Type} (tx : Transact ν) : Prop :=
  ∀ {pkt size c reply c'}, tx pkt size c = some (reply, c') →
    c'.mInfo.fileHandles = c.mInfo.fileHandles

theorem untouched_fileHandles (table : Fin maxFileHandles → Option FileHandleInfo) :
    Untouched fun m => m.fileHandles = table where
  session _ holds := holds
  sequence _ holds := holds
  prepareMount holds := holds
  mounted _ holds := holds

/-- Transactions do not touch the table, whatever the network does. -/
theorem keepsTable_transaction {ν : Type} (net : Net ν) (fuel : Nat) :
    KeepsTable (transaction net fuel) :=
  fun ran => (untouched_fileHandles _).transaction net fuel ran rfl

section

variable {ν : Type} {tx : Transact ν} {c c' : Client ν}

/-! ## Reading and seeking -/

/-- At most the record found for a handle has changed, and not its handle. -/
def Rewrites (fileHandle : Int) (m m' : MountInfo) : Prop :=
  m'.fileHandles = m.fileHandles ∨ ∃ h i f f', validAsUint8 fileHandle = some h ∧
    m.getFilehandleinfo h = some i ∧ m.fileHandles i = some f ∧ f'.handleId = f.handleId ∧
    m'.fileHandles = Function.update m.fileHandles i (some f')

theorem fillPass_table (keeps : KeepsTable tx) {s : Filling ν}
    {next : Filling ν ⊕ (Int × Filling ν)} (h : fillPass tx s = some next) :
    (next.elim Filling.client (Filling.client ∘ Prod.snd)).mInfo.fileHandles =
        s.client.mInfo.fileHandles ∧
      (next.elim Filling.file (Filling.file ∘ Prod.snd)).handleId = s.file.handleId := by
  simp only [fillPass] at h
  split_ifs at h
  · rw [← Option.some.inj h]
    exact ⟨rfl, rfl⟩
  · simp only [Option.bind_eq_some_iff, Prod.exists] at h
    obtain ⟨reply, c₁, htx, h⟩ := h
    have same := keeps htx
    cases reply with
    | none =>
        rw [← Option.some.inj h]
        exact ⟨same, rfl⟩
    | some packet =>
        simp only at h
        split_ifs at h <;> rw [← Option.some.inj h] <;> exact ⟨same, rfl⟩

theorem fillCache_table (keeps : KeepsTable tx) {fuel : Nat} {f f' : FileHandleInfo} {result : Int}
    (h : fillCache tx fuel f c = some (result, f', c')) :
    c'.mInfo.fileHandles = c.mInfo.fileHandles ∧ f'.handleId = f.handleId := by
  simp only [fillCache, Option.bind_eq_bind, Option.bind_eq_some_iff, Prod.exists] at h
  obtain ⟨error, s, hrun, h⟩ := h
  have kept : s.client.mInfo.fileHandles = c.mInfo.fileHandles ∧
      s.file.handleId = f.handleId := by
    refine Loop.run_post
      (fun s : Filling ν => s.client.mInfo.fileHandles = c.mInfo.fileHandles ∧
        s.file.handleId = f.handleId)
      (fun b => b.2.client.mInfo.fileHandles = c.mInfo.fileHandles ∧
        b.2.file.handleId = f.handleId) hrun ⟨rfl, rfl⟩ ?_ ?_
    · intro s t inv pass
      obtain ⟨table, handle⟩ := fillPass_table keeps pass
      exact ⟨table.trans inv.1, handle.trans inv.2⟩
    · intro s b inv pass
      obtain ⟨table, handle⟩ := fillPass_table keeps pass
      exact ⟨table.trans inv.1, handle.trans inv.2⟩
  split_ifs at h <;> simp only [Option.some.injEq, Prod.mk.injEq] at h <;>
    obtain ⟨-, rfl, rfl⟩ := h <;> exact kept

theorem readPass_table (keeps : KeepsTable tx) {fuel n : Nat} {s : Reading ν}
    {next : Reading ν ⊕ (Int × Reading ν)} (h : readPass tx fuel n s = some next) :
    (next.elim Reading.client (Reading.client ∘ Prod.snd)).mInfo.fileHandles =
        s.client.mInfo.fileHandles ∧
      (next.elim Reading.file (Reading.file ∘ Prod.snd)).handleId = s.file.handleId := by
  have cached : (readFromCache s.file (n - s.data.length)).2.2.handleId = s.file.handleId := by
    simp only [readFromCache]
    split_ifs <;> rfl
  simp only [readPass] at h
  split_ifs at h
  · rw [← Option.some.inj h]
    exact ⟨rfl, cached⟩
  · simp only [Option.bind_eq_some_iff, Prod.exists] at h
    obtain ⟨result, f, c₁, filled, h⟩ := h
    obtain ⟨table, handle⟩ := fillCache_table keeps filled
    split_ifs at h <;> rw [← Option.some.inj h] <;> exact ⟨table, handle.trans cached⟩

theorem tnfsRead_table (keeps : KeepsTable tx) {fuel n : Nat} {fileHandle : Int}
    {answer : Int × List UInt8} (h : tnfsRead tx fuel fileHandle n c = some (answer, c')) :
    Rewrites fileHandle c.mInfo c'.mInfo := by
  simp only [tnfsRead] at h
  split at h
  · rw [← (Prod.mk.inj (Option.some.inj h)).2]
    exact .inl rfl
  rename_i id valid
  split_ifs at h
  · rw [← (Prod.mk.inj (Option.some.inj h)).2]
    exact .inl rfl
  split at h
  · rw [← (Prod.mk.inj (Option.some.inj h)).2]
    exact .inl rfl
  rename_i i found
  simp only [Option.bind_eq_bind, Option.bind_eq_some_iff, Prod.exists, Option.some.injEq,
    Prod.mk.injEq] at h
  obtain ⟨f, slot, result, s, hrun, -, rfl⟩ := h
  have kept : s.client.mInfo.fileHandles = c.mInfo.fileHandles ∧
      s.file.handleId = f.handleId := by
    refine Loop.run_post
      (fun s : Reading ν => s.client.mInfo.fileHandles = c.mInfo.fileHandles ∧
        s.file.handleId = f.handleId)
      (fun b => b.2.client.mInfo.fileHandles = c.mInfo.fileHandles ∧
        b.2.file.handleId = f.handleId) hrun ⟨rfl, rfl⟩ ?_ ?_
    · intro s t inv pass
      obtain ⟨table, handle⟩ := readPass_table keeps pass
      exact ⟨table.trans inv.1, handle.trans inv.2⟩
    · intro s b inv pass
      obtain ⟨table, handle⟩ := readPass_table keeps pass
      exact ⟨table.trans inv.1, handle.trans inv.2⟩
  refine .inr ⟨id, i, f, s.file, valid, found, slot, kept.2, ?_⟩
  simp only [MountInfo.setFile, kept.1]

theorem cacheSeek_handleId {f f' : FileHandleInfo} {position : Int} {type : UInt8}
    (h : cacheSeek f position type = some f') : f'.handleId = f.handleId := by
  simp only [cacheSeek] at h
  split_ifs at h
  rw [← Option.some.inj h]

theorem tnfsLseek_table (keeps : KeepsTable tx) {fileHandle position : Int} {type : UInt8}
    {skipCache : Bool} {answer : Int × Option Nat}
    (h : tnfsLseek tx fileHandle position type skipCache c = some (answer, c')) :
    Rewrites fileHandle c.mInfo c'.mInfo := by
  simp only [tnfsLseek] at h
  split at h
  · rw [← (Prod.mk.inj (Option.some.inj h)).2]
    exact .inl rfl
  rename_i id valid
  by_cases unknown : type ≠ seekSet ∧ type ≠ seekCur ∧ type ≠ seekEnd
  · rw [if_pos unknown] at h
    rw [← (Prod.mk.inj (Option.some.inj h)).2]
    exact .inl rfl
  rw [if_neg unknown] at h
  split at h
  · rw [← (Prod.mk.inj (Option.some.inj h)).2]
    exact .inl rfl
  rename_i i found
  simp only [Option.bind_eq_bind, Option.bind_eq_some_iff] at h
  obtain ⟨f, slot, h⟩ := h
  split at h
  · rename_i f' hit
    rw [← (Prod.mk.inj (Option.some.inj h)).2]
    refine .inr ⟨id, i, f, f', valid, found, slot, ?_, rfl⟩
    split_ifs at hit
    exact cacheSeek_handleId hit
  · simp only [Option.bind_eq_some_iff, Prod.exists] at h
    obtain ⟨reply, c₁, htx, h⟩ := h
    have same := keeps htx
    have rewrites (f' : FileHandleInfo) (handle : f'.handleId = f.handleId) :
        Rewrites fileHandle c.mInfo (c₁.mInfo.setFile i f') :=
      .inr ⟨id, i, f, f', valid, found, slot, handle, by simp only [MountInfo.setFile, same]⟩
    cases reply with
    | none =>
        rw [← (Prod.mk.inj (Option.some.inj h)).2]
        exact rewrites _ rfl
    | some packet =>
        simp only at h
        split_ifs at h <;> rw [← (Prod.mk.inj (Option.some.inj h)).2] <;> exact rewrites _ rfl

/-! ## Opening and closing -/

theorem KeepsTable.tnfsStat (keeps : KeepsTable tx) {filepath : List UInt8}
    {answer : Int × Option Stat} (h : tnfsStat tx filepath c = some (answer, c')) :
    c'.mInfo.fileHandles = c.mInfo.fileHandles :=
  Preserves.tnfsStat (P := fun m => m.fileHandles = c.mInfo.fileHandles)
    (fun ran same => (keeps ran).trans same) h rfl

/-- `tnfs_open` leaves the table alone, or puts the new file in a free place. -/
theorem tnfsOpen_table (keeps : KeepsTable tx) {filepath : List UInt8} {mode perms : UInt16}
    {result handle : Int} (h : tnfsOpen tx filepath mode perms c = some ((result, handle), c')) :
    result ≠ code Result.success ∧ c'.mInfo.fileHandles = c.mInfo.fileHandles ∨
    result = code Result.success ∧ ∃ i f, c.mInfo.newFilehandleinfo.map Prod.fst = some i ∧
      c.mInfo.fileHandles i = none ∧ handle = f.handleId.toNat ∧
      c'.mInfo.fileHandles = Function.update c.mInfo.fileHandles i (some f) := by
  simp only [tnfsOpen] at h
  split at h
  · simp only [Option.some.injEq, Prod.mk.injEq] at h
    obtain ⟨⟨rfl, -⟩, rfl⟩ := h
    exact .inl ⟨by decide, rfl⟩
  rename_i i m new
  obtain ⟨free, rfl⟩ := MountInfo.newFilehandleinfo_eq_some new
  simp only [Option.bind_eq_bind, Option.bind_eq_some_iff, Prod.exists] at h
  obtain ⟨rs, stat, c₁, hstat, h⟩ := h
  have taken := keeps.tnfsStat hstat
  have given {c₂ : Client ν} (same : c₂.mInfo.fileHandles = c₁.mInfo.fileHandles) :
      (c₂.mInfo.deleteFilehandleinfo i).fileHandles = c.mInfo.fileHandles := by
    simp only [MountInfo.deleteFilehandleinfo, same, taken, MountInfo.setFile,
      Function.update_idem]
    rw [← free, Function.update_eq_self]
  split_ifs at h with failed
  · simp only [Option.some.injEq, Prod.mk.injEq] at h
    obtain ⟨⟨rfl, -⟩, rfl⟩ := h
    exact .inl ⟨failed.1, given rfl⟩
  simp only [Option.bind_eq_some_iff, Prod.exists] at h
  obtain ⟨f, -, reply, c₂, htx, h⟩ := h
  have same := keeps htx
  cases reply with
  | none =>
      simp only [Option.some.injEq, Prod.mk.injEq] at h
      obtain ⟨⟨rfl, -⟩, rfl⟩ := h
      exact .inl ⟨by decide, given same⟩
  | some packet =>
      simp only at h
      split_ifs at h with success
      · simp only [Option.some.injEq, Prod.mk.injEq] at h
        obtain ⟨⟨rfl, rfl⟩, rfl⟩ := h
        refine .inr ⟨rfl, i, _, by rw [new]; rfl, free, rfl, ?_⟩
        simp only [MountInfo.setFile, same, taken, Function.update_idem]
      · simp only [Option.some.injEq, Prod.mk.injEq] at h
        obtain ⟨⟨rfl, -⟩, rfl⟩ := h
        exact .inl ⟨code_ne success, given same⟩

/-- `tnfs_close` leaves the table alone, or clears the place found for the handle. -/
theorem tnfsClose_table (keeps : KeepsTable tx) {fileHandle result : Int}
    (h : tnfsClose tx fileHandle c = some (result, c')) :
    c'.mInfo.fileHandles = c.mInfo.fileHandles ∨
    ∃ id i, validAsUint8 fileHandle = some id ∧ c.mInfo.getFilehandleinfo id = some i ∧
      c'.mInfo.fileHandles = Function.update c.mInfo.fileHandles i none := by
  simp only [tnfsClose] at h
  split at h
  · rw [← (Prod.mk.inj (Option.some.inj h)).2]
    exact .inl rfl
  rename_i id valid
  split at h
  · rw [← (Prod.mk.inj (Option.some.inj h)).2]
    exact .inl rfl
  rename_i i found
  simp only [Option.bind_eq_bind, Option.bind_eq_some_iff, Prod.exists] at h
  obtain ⟨reply, c₁, htx, h⟩ := h
  have same := keeps htx
  cases reply with
  | none =>
      rw [← (Prod.mk.inj (Option.some.inj h)).2]
      exact .inl same
  | some packet =>
      rw [← (Prod.mk.inj (Option.some.inj h)).2]
      exact .inr ⟨id, i, valid, found, by simp only [MountInfo.deleteFilehandleinfo, same]⟩

/-- `tnfs_close` of a file in the table clears its place if an answer comes, and only then. -/
theorem tnfsClose_table_of_found (keeps : KeepsTable tx) {fileHandle result : Int} {h : UInt8}
    {i : Fin maxFileHandles} (valid : validAsUint8 fileHandle = some h)
    (found : c.mInfo.getFilehandleinfo h = some i)
    (closed : tnfsClose tx fileHandle c = some (result, c')) :
    ∃ reply c₁, tx (.request Cmd.close [h]) 1 c = some (reply, c₁) ∧
      c'.mInfo.fileHandles = if reply.isSome then Function.update c.mInfo.fileHandles i none
        else c.mInfo.fileHandles := by
  simp only [tnfsClose, valid, found, Option.bind_eq_bind, Option.bind_eq_some_iff,
    Prod.exists] at closed
  obtain ⟨reply, c₁, htx, closed⟩ := closed
  have same := keeps htx
  refine ⟨reply, c₁, htx, ?_⟩
  cases reply with
  | none =>
      rw [← (Prod.mk.inj (Option.some.inj closed)).2]
      exact same
  | some packet =>
      rw [← (Prod.mk.inj (Option.some.inj closed)).2]
      simp only [MountInfo.deleteFilehandleinfo, same, Option.isSome_some, if_true]

end

end FujiNet.TNFS
