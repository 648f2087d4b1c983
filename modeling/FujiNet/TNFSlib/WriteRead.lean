import FujiNet.TNFSlib.RelativeSeek

/-!
# Reading back what was written

After a write at some position, a read at that position should give the bytes that
were written, and a read elsewhere what it gave before. `tnfs_write` does not touch
the recorded size of the file, by which `tnfs_read` decides where the file ends.
`write_read_coherent_iff` says for which writes the bytes can be read back all the
same.

The write also drops the cached window. A read from a window compares with the
recorded size elsewhere than a read without one, so once the file has grown the two
may deliver different bytes; `WindowAgrees` says that they do not.
-/

namespace FujiNet.TNFS

open FileServer

/-- Seek to a position and read: the answer to the read. -/
def readAt (tx : Transact FileServer) (fuel : Nat) (h : UInt8) (position n : Nat)
    (c : Client FileServer) : Option Answer :=
  ((FileOp.lseek position seekSet).perform tx fuel h.toNat c).bind fun (_, c) =>
  ((FileOp.read n).perform tx fuel h.toNat c).map Prod.fst

/-- The bytes written at `p` between `c` and `c'` can be read back, and reads that do not
meet them give what they gave before. -/
def Coherent (tx : Transact FileServer) (fuel : Nat) (h : UInt8) (p : Nat) (bytes : List UInt8)
    (c c' : Client FileServer) : Prop :=
  readAt tx fuel h p bytes.length c' = some ⟨0, bytes, 0⟩ ∧
    ∀ q n, q < 2147483648 → 0 < n → n ≤ 525 → q + n ≤ p ∨ p + bytes.length ≤ q →
      readAt tx fuel h q n c' = readAt tx fuel h q n c

/-! ## How far a read gets -/

/-- The first of the positions `windowEnd`, `windowEnd + 512`, … that is not before `size`. -/
def cut (size windowEnd : Nat) : Nat := windowEnd + 512 * ((size - windowEnd + 511) / 512)

/-- How far a read from `pos` can get in a file of `len` bytes, of which the client believes that
it has `size`, with a window up to `windowEnd`: it compares with `size` where it begins and
wherever a window is used up. -/
def reach (len size pos windowEnd : Nat) : Nat :=
  if size ≤ pos then pos else min len (cut size windowEnd)

theorem readCount_eq_min (len size : Nat) {pos windowEnd n : Nat} (le : pos ≤ windowEnd)
    (within : pos < windowEnd → windowEnd ≤ len) :
    readCount len size pos windowEnd n = min n (reach len size pos windowEnd - pos) := by
  induction pos, windowEnd, n using readCount.induct len size with
  | case1 pos windowEnd n eof =>
      rw [readCount, if_pos eof, reach, if_pos eof]
      omega
  | case2 pos windowEnd n notEof enough =>
      rw [readCount, if_neg notEof, if_pos enough, reach, if_neg notEof, cut]
      omega
  | case3 pos windowEnd n notEof short last =>
      rw [readCount, if_neg notEof, if_neg short, if_pos last, reach, if_neg notEof, cut]
      omega
  | case4 pos windowEnd n notEof short more ih =>
      rw [readCount, if_neg notEof, if_neg short, if_neg more, ih (by omega) (by omega), reach,
        reach, if_neg notEof, cut, cut]
      split_ifs with behind
      · omega
      · rcases Nat.le_total len (windowEnd + 512) with last | further
        · rw [Nat.min_eq_left last]
          omega
        · rw [Nat.min_eq_right further]
          omega

theorem reach_of_size_le {len size : Nat} (le : len ≤ size) (pos windowEnd : Nat)
    (inside : pos < size) : reach len size pos windowEnd = len := by
  rw [reach, if_neg (by omega), cut]
  omega

/-! ## Reads at a position -/

/-- The answer to a read of `n` bytes that delivers `data`. -/
def readAnswer (n : Nat) (data : List UInt8) : Answer :=
  ⟨if data.length = n then 0 else code Result.endOfFile, data, 0⟩

section

variable {policy : Policy} {fuel n δ : Nat} {c : Client FileServer} {f : FileHandleInfo}
  {i : Fin maxFileHandles} {g : OpenFile} {F : List UInt8} {p : Nat}

/-- A seek to a fixed position. Where the client comes to stand, a write goes. -/
theorem Synced.lseek_set (grants : policy.Grants Cmd.lseek) (synced : Synced fuel δ c i f g F)
    (hp : p < 2147483648) :
    ∃ c' f' δ', (FileOp.lseek p seekSet).perform (transaction (net policy) fuel) fuel
        f.handleId.toNat c = some (⟨0, [], 0⟩, c') ∧
      Synced fuel δ' c' i f' g F ∧ δ' = (if f.InWindow p then δ else 0) ∧ f'.cachedPos = p ∧
      f'.handleId = f.handleId ∧ f'.fileSize = f.fileSize ∧
      f'.windowEnd = (if f.InWindow p then f.windowEnd else p) ∧ f'.writeDrift δ' = 0 := by
  have inRange : p < word := by
    simp only [word]
    omega
  obtain ⟨result, c', performed, -, sought⟩ := synced.lseek grants p seekSet (.inl rfl) (by simp)
  have destination (current : Nat) : f.destination current p seekSet = p := by
    rw [destination_eq, seekTarget_seekSet, toUint32_natCast inRange, toUint32_natCast inRange]
  cases sought with
  | inside inWindow hresult synced' =>
      rw [destination] at inWindow synced'
      subst hresult
      have windowEnd : FileHandleInfo.windowEnd { f with cachedPos := p } = f.windowEnd := by
        simp only [FileHandleInfo.windowEnd, if_neg (Nat.ne_of_gt inWindow.1)]
      refine ⟨c', _, δ, performed, synced', (if_pos inWindow).symm, rfl, rfl, rfl, ?_, ?_⟩
      · rw [windowEnd, if_pos inWindow]
      · -- the window ends where the client takes the server to stand
        have meets := synced.meets
        rw [FileHandleInfo.windowEnd, if_neg (Nat.ne_of_gt inWindow.1)] at meets
        have := inWindow.2.2
        rw [FileHandleInfo.writeDrift]
        exact if_neg (by simp only; omega)
  | moved miss _ _ hresult synced' =>
      rw [destination] at miss
      rw [destination] at synced'
      subst hresult
      exact ⟨c', _, 0, performed, synced', (if_neg miss).symm, rfl, rfl, rfl, (if_neg miss).symm,
        ite_self 0⟩
  | invalid _ outOfRange =>
      rw [seekTarget_seekSet, toUint32_natCast inRange] at outOfRange
      omega

/-- What a read at a given position answers. -/
theorem Synced.readAt_eq (grants : policy.GrantsFile) (synced : Synced fuel δ c i f g F)
    (hp : p < 2147483648) (hn : 0 < n) (hn' : n ≤ 525) :
    readAt (transaction (net policy) fuel) fuel f.handleId p n c =
      some (readAnswer n (
        if f.InWindow p then
          slice F (p + δ) (min n (reach (F.length - δ) f.fileSize p f.windowEnd - p))
        else slice F p (min n (reach F.length f.fileSize p p - p)))) := by
  obtain ⟨c₁, f₁, δ₁, hseek, synced₁, drift, position, handle, size, windowEnd, -⟩ :=
    synced.lseek_set grants.lseek hp
  obtain ⟨data, c₂, f₂, hread, -, -, delivered, count⟩ := synced₁.read grants.read hn hn'
  rw [readCount_eq_min _ _ synced₁.window.cachedPos_le synced₁.windowEnd_le, size, position,
    windowEnd] at count
  have bytes := delivered.bytes
  rw [slice_drop, position] at bytes
  rw [handle] at hread
  simp only [readAt, hseek, Option.bind_some, hread, Option.map_some]
  rw [readAnswer]
  by_cases inWindow : f.InWindow p
  · rw [if_pos inWindow] at drift count
    subst drift
    rw [if_pos inWindow, ← count, ← bytes]
  · rw [if_neg inWindow] at drift count
    subst drift
    rw [Nat.sub_zero] at count
    rw [Nat.add_zero] at bytes
    rw [if_neg inWindow, ← count, ← bytes]

/-- After a write the window is gone. -/
theorem Synced.readAt_movedTo {d : Nat} (grants : policy.GrantsFile)
    (synced : Synced fuel 0 c i (f.movedTo d) g F) (hp : p < 2147483648) (hn : 0 < n)
    (hn' : n ≤ 525) :
    readAt (transaction (net policy) fuel) fuel f.handleId p n c =
      some (readAnswer n (slice F p (min n (reach F.length f.fileSize p p - p)))) := by
  have miss : ¬ (f.movedTo d).InWindow p := by
    simp [FileHandleInfo.InWindow, FileHandleInfo.movedTo]
  have read := synced.readAt_eq grants hp hn hn'
  rw [if_neg miss] at read
  exact read

end

theorem readAnswer_inj {n : Nat} {data data' : List UInt8} :
    some (readAnswer n data) = some (readAnswer n data') ↔ data = data' := by
  refine ⟨fun same => ?_, fun same => by rw [same]⟩
  simp only [readAnswer, Option.some.injEq, Answer.mk.injEq] at same
  exact same.2.1

/-! ## Coherence -/

/-- What reads get out of the window, up to where the recorded size stops them, is what reads
without a window get out of the file, unless they meet the `size` bytes at `p`. The server
behind the window is `δ` bytes ahead. -/
def WindowAgrees (f : FileHandleInfo) (F : List UInt8) (δ p size : Nat) : Prop :=
  ∀ q n, f.InWindow q → q < 2147483648 → 0 < n → n ≤ 525 → q + n ≤ p ∨ p + size ≤ q →
    slice F (q + δ) (min n (reach (F.length - δ) f.fileSize q f.windowEnd - q)) =
      slice F q (min n (reach F.length f.fileSize q q - q))

/-- Without a window there is nothing to disagree. -/
theorem windowAgrees_of_empty {f : FileHandleInfo} (empty : f.cacheAvailable = 0) (F : List UInt8)
    (δ p size : Nat) : WindowAgrees f F δ p size := by
  rintro q n ⟨some_, -⟩
  omega

/-- In a file that has not grown, the window agrees. -/
theorem windowAgrees_of_size_eq {f : FileHandleInfo} {F : List UInt8} (size : f.fileSize = F.length)
    (p written : Nat) : WindowAgrees f F 0 p written := by
  intro q n _ _ _ _ _
  rw [Nat.add_zero, Nat.sub_zero]
  by_cases behind : f.fileSize ≤ q
  · rw [reach, if_pos behind, reach, if_pos behind]
  · rw [reach_of_size_le size.ge _ _ (by omega), reach_of_size_le size.ge _ _ (by omega)]

/-- Reading back a write from an empty window, the client compares with the recorded size where
it begins and, if it is longer than one window, where the second window begins. -/
theorem le_reach_iff {len size p n : Nat} (inside : p + n ≤ len) (hn : 0 < n) (hn' : n ≤ 525) :
    n ≤ reach len size p p - p ↔ p < size ∧ (n ≤ 512 ∨ p + 512 < size) := by
  rw [reach, cut]
  split_ifs with behind <;> omega

/-- A write that begins before the recorded end does not change how far the reads elsewhere get. -/
theorem slice_writeAt_reach {F bytes : List UInt8} {p q n size : Nat} (begins : p < size)
    (known : size ≤ F.length) (disjoint : q + n ≤ p ∨ p + bytes.length ≤ q) :
    slice (writeAt F p bytes) q (min n (reach (writeAt F p bytes).length size q q - q)) =
      slice F q (min n (reach F.length size q q - q)) := by
  have length : (writeAt F p bytes).length = max F.length (p + bytes.length) := length_writeAt ..
  have same : min n (reach (writeAt F p bytes).length size q q - q) =
      min n (reach F.length size q q - q) := by
    rw [length, reach, reach, cut]
    split_ifs with behind
    · rfl
    · omega
  rw [same]
  exact slice_writeAt_of_disjoint F p bytes (by omega) (by omega)

/-- What was written can be read back, and nothing else has changed, if and only if the
write begins before the recorded end of the file and, if it is longer than one window,
the second window does so too, and the window agreed with the file before it. -/
theorem write_read_coherent_iff {policy : Policy} {fuel p : Nat}
    {c c₂ c₃ c₄ : Client FileServer} {source F bytes : List UInt8} {mode perms : UInt16}
    {h : UInt8} {f : FileHandleInfo} {answer answer' : Answer}
    (run : FileRun policy fuel c source mode perms h c₂) (file : c₂.file h = some f)
    (content : c₂.net.contentOf h = some F) (hp : p < 2147483648) (hn : 0 < bytes.length)
    (hn' : bytes.length ≤ 525)
    (sought : (FileOp.lseek p seekSet).perform (transaction (net policy) fuel) fuel h.toNat c₂ =
      some (answer, c₃))
    (stored : (FileOp.write bytes).perform (transaction (net policy) fuel) fuel h.toNat c₃ =
      some (answer', c₄)) (success : answer'.result = 0) :
    Coherent (transaction (net policy) fuel) fuel h p bytes c₂ c₄ ↔
      (p < f.fileSize ∧ (bytes.length ≤ 512 ∨ p + 512 < f.fileSize)) ∧
      WindowAgrees f F (drift c₂ h) p bytes.length := by
  obtain ⟨δ, i, f', F', synced, rfl⟩ := run.synced
  rw [synced.opened.file, Option.some.injEq] at file
  rw [synced.at_q.contentOf, Option.some.injEq] at content
  subst file content
  rw [synced.drift_eq]
  have known := synced.size
  obtain ⟨c₃', f₃, δ₃, sought', synced₃, -, position, handle, size₃, -, inPlace⟩ :=
    synced.lseek_set run.grants.lseek hp
  rw [sought, Option.some.injEq, Prod.mk.injEq] at sought'
  obtain ⟨-, rfl⟩ := sought'
  obtain ⟨result, written, c₄', stored', -, hstored⟩ := synced₃.write run.grants hn'
  rw [handle, stored, Option.some.injEq, Prod.mk.injEq] at stored'
  obtain ⟨rfl, rfl⟩ := stored'
  rw [synced₃.writePosition_eq, inPlace, position, Nat.add_zero,
    Nat.mod_eq_of_lt (by simp only [word]; omega)] at hstored
  cases hstored with
  | refused _ failed => exact absurd success failed
  | written _ _ _ synced₄ =>
      rw [inPlace] at synced₄
      have after {q n : Nat} (hq : q < 2147483648) (hn : 0 < n) (hn' : n ≤ 525) :=
        synced₄.readAt_movedTo run.grants hq hn hn'
      rw [handle, size₃] at after
      have back : readAt (transaction (net policy) fuel) fuel f'.handleId p bytes.length c₄ =
          some ⟨0, bytes, 0⟩ ↔ p < f'.fileSize ∧ (bytes.length ≤ 512 ∨ p + 512 < f'.fileSize) := by
        have length : (writeAt F' p bytes).length = max F'.length (p + bytes.length) :=
          length_writeAt ..
        have inside : p + bytes.length ≤ (writeAt F' p bytes).length := by omega
        rw [after hp hn hn', ← le_reach_iff inside hn hn']
        have all : some ⟨0, bytes, 0⟩ = some (readAnswer bytes.length bytes) := by
          rw [readAnswer, if_pos rfl]
        rw [all, readAnswer_inj]
        constructor
        · intro back
          have := congrArg List.length back
          rw [length_slice] at this
          omega
        · intro enough
          rw [Nat.min_eq_left enough, slice_writeAt]
      constructor
      · intro coherent
        have condition := back.mp coherent.1
        refine ⟨condition, fun q n inWindow hq hn hn' disjoint => ?_⟩
        have same := coherent.2 q n hq hn hn' disjoint
        rw [after hq hn hn', synced.readAt_eq run.grants hq hn hn', readAnswer_inj,
          if_pos inWindow, slice_writeAt_reach condition.1 (by omega) disjoint] at same
        exact same.symm
      · rintro ⟨condition, agrees⟩
        refine ⟨back.mpr condition, fun q n hq hn hn' disjoint => ?_⟩
        rw [after hq hn hn', synced.readAt_eq run.grants hq hn hn', readAnswer_inj,
          slice_writeAt_reach condition.1 (by omega) disjoint]
        split_ifs with inWindow
        · exact (agrees q n inWindow hq hn hn' disjoint).symm
        · rfl

/-- A byte written into the middle of a file can be read back. -/
theorem write_read_coherent_iff_of_middle :
    ∃ (h : UInt8) (c₂ c₃ c₄ : Client FileServer) (answer : Answer),
      FileRun (fun _ _ => .grant 1) 2000 (freshClient fun _ => some [1, 2, 3]) [0x61]
        (openmodeRead ||| openmodeWrite) 0 h c₂ ∧
      (FileOp.lseek 1 seekSet).perform (transaction (net fun _ _ => .grant 1) 2000) 2000 h.toNat c₂ =
        some (⟨0, [], 0⟩, c₃) ∧
      (FileOp.write [9]).perform (transaction (net fun _ _ => .grant 1) 2000) 2000 h.toNat c₃ =
        some (answer, c₄) ∧
      answer.result = 0 ∧
      Coherent (transaction (net fun _ _ => .grant 1) 2000) 2000 h 1 [9] c₂ c₄ := by
  have grants (command : UInt8) : Policy.Grants (fun _ _ => .grant 1) command := fun _ => ⟨1, rfl⟩
  have can := canOpen_three_bytes (openmodeRead ||| openmodeWrite) (by decide)
  obtain ⟨i, f, c₂, hopen, just⟩ := tnfsOpen_spec 0 (grants _) (grants _) can
    (by decide : 0 < 2000) (by decide)
  have synced := just.synced (known_freshClient _) (by decide) (by decide : 1051 < 2000)
    (by decide)
  have run := FileRun.of_three_bytes grants (by decide) (by decide) (by decide) hopen .refl
  obtain ⟨c₃, f₃, δ₃, sought, synced₃, -, position, handle, -, -, inPlace⟩ :=
    synced.lseek_set (p := 1) (grants _) (by decide)
  obtain ⟨result, written, c₄, stored, -, hstored⟩ := synced₃.write
    ⟨grants _, grants _, grants _⟩ (by decide : [(9 : UInt8)].length ≤ 525)
  rw [handle] at stored
  rw [synced₃.writePosition_eq, inPlace, position] at hstored
  have success : result = 0 := by
    cases hstored with
    | written _ _ h => exact h
    | refused refused => exact absurd refused (by decide)
  refine ⟨f.handleId, c₂, c₃, c₄, _, run, sought, stored, success, ?_⟩
  refine (write_read_coherent_iff run synced.opened.file synced.at_q.contentOf (by decide)
    (by decide) (by decide) sought stored success).mpr ⟨?_, windowAgrees_of_empty just.dropped _ _ _ _⟩
  rw [just.size]
  decide

/-- A byte appended to a file of three bytes cannot be read back: the read reports the
end of the file. -/
theorem write_read_loses_appended_byte :
    ∃ (c₂ c₃ c₄ : Client FileServer) (f : FileHandleInfo) (answer : Answer),
      FileRun (fun _ _ => .grant 512) 1052 (freshClient fun _ => some [1, 2, 3]) [0x61]
        (openmodeRead ||| openmodeWrite) 0 0 c₂ ∧
      c₂.file 0 = some f ∧ c₂.net.contentOf 0 = some [1, 2, 3] ∧ f.fileSize = 3 ∧
      (FileOp.lseek 3 seekSet).perform (transaction (net fun _ _ => .grant 512) 1052) 1052 0 c₂ =
        some (⟨0, [], 0⟩, c₃) ∧
      (FileOp.write [9]).perform (transaction (net fun _ _ => .grant 512) 1052) 1052 0 c₃ =
        some (answer, c₄) ∧
      answer.result = 0 ∧
      readAt (transaction (net fun _ _ => .grant 512) 1052) 1052 0 3 1 c₄ =
        some ⟨code Result.endOfFile, [], 0⟩ ∧
      ¬ Coherent (transaction (net fun _ _ => .grant 512) 1052) 1052 0 3 [9] c₂ c₄ := by
  have computed : ((tnfsOpen (transaction (net fun _ _ => .grant 512) 1052) [0x61]
      (openmodeRead ||| openmodeWrite) 0 (freshClient fun _ => some [1, 2, 3])).bind fun (r, c₂) =>
    ((FileOp.lseek 3 seekSet).perform (transaction (net fun _ _ => .grant 512) 1052) 1052 0
      c₂).bind fun (a₁, c₃) =>
    ((FileOp.write [9]).perform (transaction (net fun _ _ => .grant 512) 1052) 1052 0
      c₃).bind fun (a₂, c₄) =>
    (readAt (transaction (net fun _ _ => .grant 512) 1052) 1052 0 3 1 c₄).map fun a₃ =>
    (r, [a₁, a₂, a₃], (c₂.file 0).map (·.fileSize), c₂.net.contentOf 0)) =
      some ((0, 0), [⟨0, [], 0⟩, ⟨0, [], 1⟩, ⟨0x21, [], 0⟩], some 3, some [1, 2, 3]) := by
    decide +kernel
  simp only [Option.bind_eq_some_iff, Option.map_eq_some_iff, Prod.exists, Prod.mk.injEq,
    List.cons.injEq, and_true] at computed
  obtain ⟨_, _, c₂, hopen, a₁, c₃, h₁, a₂, c₄, h₂, a₃, h₃, ⟨rfl, rfl⟩, ⟨rfl, rfl, rfl⟩,
    ⟨f, file, size⟩, content⟩ := computed
  have grants (command : UInt8) : Policy.Grants (fun _ _ => .grant 512) command :=
    fun _ => ⟨512, rfl⟩
  refine ⟨c₂, c₃, c₄, f, _,
    FileRun.of_three_bytes grants (by decide) (by decide) (by decide) hopen .refl, file, content, size,
    h₁, h₂, rfl, h₃, ?_⟩
  · rintro ⟨back, -⟩
    exact absurd (h₃.symm.trans back) (by decide)

end FujiNet.TNFS
