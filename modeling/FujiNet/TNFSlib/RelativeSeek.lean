import FujiNet.TNFSlib.FileRun

/-!
# Seeking relative to the current position

A seek relative to the current position should lead from the client's position, on
which its caller relies. Inside the cached window it does; outside, `tnfs_lseek`
passes the offset on to the server, which counts from the end of the window.
`lseek_cur_exact_iff` says exactly in which states the two agree and the next read
gives the bytes that the caller expects.

The read that follows also depends on the recorded size of the file, which does not
grow with it; `SizeSuffices` is that part of the condition. Once a file has grown, a
seek from its end leaves the server ahead of where the client takes it to stand, and
relative seeks keep it there; `drift` is how far.
-/

namespace FujiNet.TNFS

open FileServer

/-! ## When a read delivers all there is -/

/-- The recorded size does not cut short a read of `n` bytes: unless nothing is left
to read, the client's position and every position where the read fetches a new window
lie before it. -/
def SizeSuffices (len size pos windowEnd n : Nat) : Prop :=
  len ≤ pos ∨
    pos < size ∧ ∀ k, windowEnd + 512 * k < min (pos + n) len → windowEnd + 512 * k < size

theorem readCount_eq_iff (len size : Nat) {pos windowEnd n : Nat} (hn : 0 < n)
    (le : pos ≤ windowEnd) (within : pos < windowEnd → windowEnd ≤ len) :
    readCount len size pos windowEnd n = min n (len - pos) ↔
      SizeSuffices len size pos windowEnd n := by
  induction pos, windowEnd, n using readCount.induct len size with
  | case1 pos windowEnd n eof =>
      rw [readCount, if_pos eof, SizeSuffices]
      omega
  | case2 pos windowEnd n notEof enough =>
      rw [readCount, if_neg notEof, if_pos enough, SizeSuffices]
      refine iff_of_true (by omega) (.inr ⟨by omega, fun k hk => by omega⟩)
  | case3 pos windowEnd n notEof short last =>
      rw [readCount, if_neg notEof, if_neg short, if_pos last, SizeSuffices]
      refine iff_of_true (by omega) (.inr ⟨by omega, fun k hk => by omega⟩)
  | case4 pos windowEnd n notEof short more ih =>
      have split : min n (len - pos) =
          (windowEnd - pos) + min (n - (windowEnd - pos)) (len - windowEnd) := by omega
      rw [readCount, if_neg notEof, if_neg short, if_neg more, split, Nat.add_left_cancel_iff,
        ih (by omega) (by omega) (by omega)]
      -- the first window of the rest is one of those that the whole read fetches
      simp only [SizeSuffices]
      constructor
      · rintro (_ | ⟨first, rest⟩)
        · omega
        · refine .inr ⟨by omega, fun k hk => ?_⟩
          cases k with
          | zero => omega
          | succ k =>
              have := rest k
              omega
      · rintro (_ | ⟨_, rest⟩)
        · omega
        · have first := rest 0
          refine .inr ⟨by omega, fun k hk => ?_⟩
          have := rest (k + 1)
          omega

section

variable {policy : Policy} {fuel n δ : Nat} {c : Client FileServer} {f : FileHandleInfo}
  {i : Fin maxFileHandles} {g : OpenFile} {F : List UInt8}

/-- How far the server stands ahead of where the client takes it to stand, modulo 2^32. -/
def drift (c : Client FileServer) (h : UInt8) : Nat :=
  ((c.net.handles h).bind fun g => (c.file h).map fun f =>
    toUint32 (g.position - f.filePosition)).getD 0

theorem Synced.drift_eq (synced : Synced fuel δ c i f g F) : drift c f.handleId = δ := by
  have size := synced.size
  have small := synced.small
  have position := synced.filePosition_lt
  rw [drift, synced.at_q.handle, Option.bind_some, synced.opened.file, Option.map_some,
    Option.getD_some]
  simp only [toUint32, word] at *
  omega

/-- A read of a synced file gives all the bytes at the client's position if and only if
the recorded size does not cut it short and the server has the same bytes where it stands. -/
theorem Synced.read_exact_iff (grants : policy.Grants Cmd.read) (synced : Synced fuel δ c i f g F)
    (hn : 0 < n) (hn' : n ≤ 525) :
    (∃ answer c', (FileOp.read n).perform (transaction (net policy) fuel) fuel f.handleId.toNat c =
        some (answer, c') ∧ answer.data = slice F f.cachedPos n) ↔
      SizeSuffices (F.length - δ) f.fileSize f.cachedPos f.windowEnd n ∧
        slice F (f.cachedPos + δ) n = slice F f.cachedPos n := by
  obtain ⟨data, c', f', performed, -, -, delivered, count⟩ := synced.read grants hn hn'
  have bytes := delivered.bytes
  rw [slice_drop] at bytes
  have length := congrArg List.length bytes
  rw [length_slice] at length
  rw [← readCount_eq_iff _ _ hn synced.window.cachedPos_le synced.windowEnd_le, ← count]
  have all (whole : data.length = min n (F.length - δ - f.cachedPos)) :
      data = slice F (f.cachedPos + δ) n := by
    have size : (slice F (f.cachedPos + δ) n).length = data.length := by
      rw [length_slice, whole]
      omega
    rw [← slice_length_slice F (f.cachedPos + δ) n, size]
    exact bytes
  constructor
  · rintro ⟨answer, c'', performed', exact_⟩
    rw [performed, Option.some.injEq, Prod.mk.injEq] at performed'
    obtain ⟨rfl, -⟩ := performed'
    change data = slice F f.cachedPos n at exact_
    have whole : data.length = min n (F.length - δ - f.cachedPos) := by
      have := congrArg List.length exact_
      rw [length_slice] at this
      omega
    exact ⟨whole, (all whole).symm.trans exact_⟩
  · rintro ⟨whole, same⟩
    exact ⟨_, c', performed, (all whole).trans same⟩

end

/-! ## Relative seeks -/

/-- The client stands at `target`, and its next read of `n` bytes gives the bytes of `F`
from there. -/
def ReadsFrom (tx : Transact FileServer) (fuel : Nat) (h : UInt8) (c : Client FileServer)
    (F : List UInt8) (target : Int) (n : Nat) : Prop :=
  (∃ f, c.file h = some f ∧ (f.cachedPos : Int) = target) ∧
    ∃ answer c', (FileOp.read n).perform tx fuel h.toNat c = some (answer, c') ∧
      answer.data = slice F target.toNat n

section

variable {policy : Policy} {fuel n δ : Nat} {c : Client FileServer} {f : FileHandleInfo}
  {i : Fin maxFileHandles} {g : OpenFile} {F : List UInt8}

theorem Synced.readsFrom_iff (grants : policy.Grants Cmd.read) (synced : Synced fuel δ c i f g F)
    (hn : 0 < n) (hn' : n ≤ 525) (target : Int) :
    ReadsFrom (transaction (net policy) fuel) fuel f.handleId c F target n ↔
      (f.cachedPos : Int) = target ∧
        SizeSuffices (F.length - δ) f.fileSize f.cachedPos f.windowEnd n ∧
        slice F (f.cachedPos + δ) n = slice F f.cachedPos n := by
  rw [← synced.read_exact_iff grants hn hn']
  constructor
  · rintro ⟨⟨f', hf', rfl⟩, exact_⟩
    rw [synced.opened.file, Option.some.injEq] at hf'
    subst hf'
    exact ⟨rfl, exact_⟩
  · rintro ⟨rfl, exact_⟩
    exact ⟨⟨f, synced.opened.file, rfl⟩, exact_⟩

theorem Synced.not_readsFrom (synced : Synced fuel δ c i f g F) {target : Int}
    (outOfRange : ¬ target < word) {tx : Transact FileServer} {n : Nat} :
    ¬ ReadsFrom tx fuel f.handleId c F target n := by
  rintro ⟨⟨f', hf', rfl⟩, -⟩
  rw [synced.opened.file, Option.some.injEq] at hf'
  subst hf'
  have := synced.window.position
  omega

end

/-- A relative seek leads from the client's position and the next read gives the bytes
from there, if and only if

- the target lies in the cached window or the client stands where it takes the server to stand,
- the target is a position that the client can store,
- the recorded size does not cut the read short, and
- the file has the same bytes where the server stands, if that is somewhere else. -/
theorem lseek_cur_exact_iff {policy : Policy} {fuel n : Nat} {c c₂ c₃ : Client FileServer}
    {source F : List UInt8} {mode perms : UInt16} {h : UInt8} {f : FileHandleInfo} {d : Int}
    {answer : Answer} (run : FileRun policy fuel c source mode perms h c₂)
    (file : c₂.file h = some f) (content : c₂.net.contentOf h = some F) (offset : IsInt32 d)
    (nonneg : 0 ≤ f.cachedPos + d) (hn : 0 < n) (hn' : n ≤ 525)
    (performed : (FileOp.lseek d seekCur).perform (transaction (net policy) fuel) fuel h.toNat c₂ =
      some (answer, c₃)) (success : answer.result = 0) :
    ReadsFrom (transaction (net policy) fuel) fuel h c₃ F (f.cachedPos + d) n ↔
      (f.InWindow (f.cachedPos + d).toNat ∨ f.cachedPos = f.filePosition) ∧
      f.cachedPos + d < word ∧
      SizeSuffices (F.length - drift c₂ h) f.fileSize (f.cachedPos + d).toNat
        (if f.InWindow (f.cachedPos + d).toNat then f.windowEnd else (f.cachedPos + d).toNat) n ∧
      slice F ((f.cachedPos + d).toNat + drift c₂ h) n = slice F (f.cachedPos + d).toNat n := by
  obtain ⟨δ, i, f', F', synced, rfl⟩ := run.synced
  rw [synced.opened.file, Option.some.injEq] at file
  rw [synced.at_q.contentOf, Option.some.injEq] at content
  subst file content
  rw [synced.drift_eq]
  obtain ⟨result, c', performed', -, sought⟩ := synced.lseek run.grants.lseek _ _
    (.inr (.inl rfl)) (fun _ => offset)
  rw [performed, Option.some.injEq, Prod.mk.injEq] at performed'
  obtain ⟨rfl, rfl⟩ := performed'
  by_cases inRange : f'.cachedPos + d < word
  · have target : toUint32 (f'.cachedPos + d) = (f'.cachedPos + d).toNat := by
      have := toUint32_of_lt nonneg inRange
      omega
    have destination : f'.destination f'.cachedPos d seekCur = (f'.cachedPos + d).toNat := by
      rw [destination_eq, seekTarget_seekCur, target]
    cases sought with
    | inside inWindow _ synced' =>
        rw [destination] at inWindow synced'
        rw [synced'.readsFrom_iff run.grants.read hn hn', if_pos inWindow]
        have sameEnd : FileHandleInfo.windowEnd { f' with cachedPos := (f'.cachedPos + d).toNat } =
            f'.windowEnd := by
          simp only [FileHandleInfo.windowEnd, if_neg (Nat.ne_of_gt inWindow.1)]
        rw [sameEnd]
        exact ⟨fun h => ⟨.inl inWindow, inRange, h.2⟩,
          fun h => ⟨Int.toNat_of_nonneg nonneg, h.2.2⟩⟩
    | moved miss _ _ _ synced' =>
        rw [destination] at miss
        have reads := synced'.readsFrom_iff run.grants.read hn hn' (f'.cachedPos + d)
        rw [show driftAfter seekCur δ f' F' = δ from rfl,
          show (f'.movedTo _).handleId = f'.handleId from rfl] at reads
        rw [reads, if_neg miss, or_iff_right miss]
        have there := synced.filePosition_lt
        have position : ((f'.movedTo (f'.destination f'.filePosition d seekCur)).cachedPos : Int) =
            f'.cachedPos + d ↔ f'.cachedPos = f'.filePosition := by
          have here := synced.window.position
          simp only [FileHandleInfo.movedTo, destination_eq, seekTarget_seekCur]
          simp only [toUint32, word] at *
          omega
        rw [position]
        refine and_congr_right fun meets => ?_
        rw [and_iff_right inRange, ← meets, destination]
        rfl
    | invalid _ _ failed => exact absurd success failed
  · refine iff_of_false ?_ fun h => inRange h.2.1
    cases sought with
    | inside _ _ synced' => exact synced'.not_readsFrom inRange
    | moved _ _ _ _ synced' => exact synced'.not_readsFrom inRange
    | invalid _ _ failed => exact absurd success failed

/-- Right after opening, a seek by one byte is exact. -/
theorem lseek_cur_exact_iff_of_fresh :
    ∃ (h : UInt8) (c₁ c₃ : Client FileServer),
      FileRun (fun _ _ => .grant 1) 2000 (freshClient fun _ => some [1, 2, 3]) [0x61] openmodeRead 0
        h c₁ ∧
      (FileOp.lseek 1 seekCur).perform (transaction (net fun _ _ => .grant 1) 2000) 2000 h.toNat c₁ =
        some (⟨0, [], 0⟩, c₃) ∧
      ReadsFrom (transaction (net fun _ _ => .grant 1) 2000) 2000 h c₃ [1, 2, 3] 1 1 := by
  have grants (command : UInt8) : Policy.Grants (fun _ _ => .grant 1) command := fun _ => ⟨1, rfl⟩
  obtain ⟨i, f, c₁, hopen, just⟩ := tnfsOpen_spec 0 (grants _) (grants _)
    (canOpen_three_bytes openmodeRead (by decide)) (by decide : 0 < 2000) (by decide)
  have synced := just.synced (known_freshClient _) (by decide) (by decide : 1051 < 2000)
    (by decide)
  have run := FileRun.of_three_bytes grants (by decide) (by decide) (by decide) hopen .refl
  have start := just.start
  have meets : f.filePosition = 0 := by
    rw [just.inStep.meets, FileHandleInfo.windowEnd, if_pos just.dropped, start]
  have miss : ¬ f.InWindow 1 := by simp [FileHandleInfo.InWindow, just.dropped]
  obtain ⟨result, c₃, performed, -, sought⟩ := synced.lseek (grants _) 1 seekCur
    (.inr (.inl rfl)) (fun _ => by simp [IsInt32])
  have success : result = 0 := by
    cases sought with
    | inside _ h => exact h
    | moved _ _ _ h => exact h
    | invalid _ h => simp [meets, word] at h
  subst success
  have exact_ := lseek_cur_exact_iff (n := 1) run synced.opened.file synced.at_q.contentOf
    (d := 1) (by simp [IsInt32]) (by omega) (by decide) (by decide) performed rfl
  rw [synced.drift_eq] at exact_
  refine ⟨f.handleId, c₁, c₃, run, performed, ?_⟩
  simp only [start, meets, just.size, Int.natCast_zero, Int.zero_add, Int.toNat_one, if_neg miss]
    at exact_
  refine exact_.mpr ⟨.inr trivial, by decide, .inr ⟨by decide, fun k hk => ?_⟩, trivial⟩
  simp only [List.length_cons, List.length_nil] at hk ⊢
  omega

/-- In a file of three bytes, read one byte from position 1 and seek back by two: the
client stands at 1, not at 0, and reads the second byte again. -/
theorem lseek_cur_counts_from_window_end :
    ∃ (c₂ c₃ : Client FileServer) (f : FileHandleInfo),
      FileRun (fun _ _ => .grant 512) 1052 (freshClient fun _ => some [1, 2, 3]) [0x61] openmodeRead
        0 0 c₂ ∧
      c₂.file 0 = some f ∧ f.cachedPos = 2 ∧ c₂.net.contentOf 0 = some [1, 2, 3] ∧
      (FileOp.lseek (-2) seekCur).perform (transaction (net fun _ _ => .grant 512) 1052) 1052 0 c₂ =
        some (⟨0, [], 0⟩, c₃) ∧
      ¬ ReadsFrom (transaction (net fun _ _ => .grant 512) 1052) 1052 0 c₃ [1, 2, 3] 0 1 := by
  have computed : ((tnfsOpen (transaction (net fun _ _ => .grant 512) 1052) [0x61] openmodeRead 0
      (freshClient fun _ => some [1, 2, 3])).bind fun (r, c₀) =>
    ((FileOp.lseek 1 seekSet).perform (transaction (net fun _ _ => .grant 512) 1052) 1052 0
      c₀).bind fun (a₁, c₁) =>
    ((FileOp.read 1).perform (transaction (net fun _ _ => .grant 512) 1052) 1052 0
      c₁).bind fun (a₂, c₂) =>
    ((FileOp.lseek (-2) seekCur).perform (transaction (net fun _ _ => .grant 512) 1052) 1052 0
      c₂).bind fun (a₃, c₃) =>
    ((FileOp.read 1).perform (transaction (net fun _ _ => .grant 512) 1052) 1052 0
      c₃).map fun (a₄, _) =>
    (r, [a₁, a₃, a₄], (c₂.file 0).map (·.cachedPos), c₂.net.contentOf 0)) =
      some ((0, 0), [⟨0, [], 0⟩, ⟨0, [], 0⟩, ⟨0, [2], 0⟩], some 2, some [1, 2, 3]) := by
    decide +kernel
  simp only [Option.bind_eq_some_iff, Option.map_eq_some_iff, Prod.exists, Prod.mk.injEq,
    List.cons.injEq, and_true] at computed
  obtain ⟨_, _, c₀, hopen, a₁, c₁, h₁, a₂, c₂, h₂, a₃, c₃, h₃, a₄, c₄, h₄, ⟨rfl, rfl⟩,
    ⟨rfl, rfl, rfl⟩, ⟨f, file, position⟩, content⟩ := computed
  have grants (command : UInt8) : Policy.Grants (fun _ _ => .grant 512) command :=
    fun _ => ⟨512, rfl⟩
  refine ⟨c₂, c₃, f, FileRun.of_three_bytes grants (by decide) (by decide) (by decide) hopen ?_, file,
    position, content, h₃, ?_⟩
  · exact (Machine.Reaches.refl.next h₁ ⟨by simp [IsInt32], .inl rfl⟩).next h₂ trivial
  · rintro ⟨-, answer, c', h₄', bytes⟩
    rw [show ((0 : UInt8).toNat : Int) = 0 from rfl, h₄, Option.some.injEq, Prod.mk.injEq] at h₄'
    rw [← h₄'.1] at bytes
    exact absurd bytes (by decide)

end FujiNet.TNFS
