import FujiNet.TNFSlib.FileRun

/-!
# The read cache refines a plain file

A plain file is a byte string with one position. Reading gives the bytes at the
position and moves past them; seeking sets the position. A file opened for reading
through `tnfslib` answers every sequence of reads and seeks like a plain file, for
every choice of short READs by the server, and `cached_pos` is its position.
-/

namespace FujiNet.TNFS

open FileServer

structure PlainFile where
  content : List UInt8
  position : Nat
  deriving DecidableEq, Repr

namespace PlainFile

def perform : FileOp → PlainFile → Answer × PlainFile
  | .read n, s =>
    let data := slice s.content s.position n
    (⟨if data.length = n ∧ s.position < s.content.length then 0 else code Result.endOfFile, data, 0⟩,
      { s with position := s.position + data.length })
  | .lseek position type, s =>
    let target := seekTarget position type s.position s.content.length
    if 0 ≤ target ∧ target < word then (⟨0, [], 0⟩, { s with position := target.toNat })
    else (⟨code Result.invalidArgument, [], 0⟩, s)
  | .write bytes, s =>
    (⟨0, [], bytes.length⟩,
      ⟨writeAt s.content s.position bytes, s.position + bytes.length⟩)

/-- Reads of a size that the library accepts, and seeks from the start or the end of
the file to a position that is not negative. -/
def Admits : FileOp → PlainFile → Prop
  | .read n, _ => 0 < n ∧ n ≤ 525
  | .lseek position type, s => IsInt32 position ∧
      (type = seekSet ∧ 0 ≤ position ∨ type = seekEnd ∧ 0 ≤ s.content.length + position)
  | .write _, _ => False

end PlainFile

/-- The client's file is synced with the plain one. -/
structure RefinesPlain (fuel : Nat) (h : UInt8) (g : OpenFile) (s : PlainFile)
    (c : Client FileServer) : Prop where
  short : s.content.length < 2147483648
  synced : ∃ i f, Synced fuel 0 c i f g s.content ∧ f.fileSize = s.content.length ∧
    f.cachedPos = s.position ∧ f.handleId = h

section

variable {policy : Policy} {fuel : Nat} {c : Client FileServer} {f : FileHandleInfo}
  {i : Fin maxFileHandles} {g : OpenFile} {F : List UInt8}

/-- A seek with a fixed target goes to that target, in the window or not. -/
theorem seekTarget_of_absolute {position : Int} {type : UInt8}
    (absolute : type = seekSet ∨ type = seekEnd) (current current' : Nat) :
    seekTarget position type current F.length = seekTarget position type current' F.length := by
  rcases absolute with rfl | rfl <;> rfl

theorem PlainFile.Admits.target_inRange {s : PlainFile} {position : Int} {type : UInt8}
    (short : s.content.length < 2147483648) (admits : Admits (.lseek position type) s)
    (current : Nat) : 0 ≤ seekTarget position type current s.content.length ∧
      seekTarget position type current s.content.length < word := by
  obtain ⟨⟨lo, hi⟩, ⟨rfl, nonneg⟩ | ⟨rfl, nonneg⟩⟩ := admits
  · rw [seekTarget_seekSet, toUint32_of_lt nonneg (by simp only [word]; omega)]
    simp only [word]
    omega
  · rw [seekTarget_seekEnd]
    simp only [word]
    omega

/-- One operation. -/
theorem perform_refines_plain (grantsRead : policy.Grants Cmd.read)
    (grantsSeek : policy.Grants Cmd.lseek) (h : UInt8) :
    Machine.Refines (FileOp.perform (transaction (net policy) fuel) fuel h.toNat)
      PlainFile.perform (RefinesPlain fuel h g) PlainFile.Admits := by
  rintro op s c ⟨short, i, f, synced, size, position, rfl⟩ admits
  cases op with
  | read n =>
      obtain ⟨data, c', f', performed, synced', -, delivered, count⟩ :=
        synced.read grantsRead admits.1 admits.2
      have window : Window f s.content := synced.window
      rw [Nat.sub_zero, window.readCount_eq size] at count
      have all : data = slice s.content s.position n := by
        rw [delivered.bytes, List.drop_zero, position, ← slice_length_slice _ _ n, length_slice,
          count, position]
      have result : (data.length = n ∧ s.position < s.content.length) ↔ data.length = n := by
        have := admits.1
        omega
      refine ⟨c', ?_, short, i, f', synced', ?_, ?_, delivered.handleId⟩
      · simp only [performed, PlainFile.perform, ← all, result]
      · exact delivered.fileSize.trans size
      · simp only [PlainFile.perform, ← all]
        rw [delivered.position, position]
  | lseek position type =>
      have absolute : type = seekSet ∨ type = seekEnd := admits.2.imp (·.1) (·.1)
      obtain ⟨lo, hi⟩ := admits.target_inRange short s.position
      have accepted : IsSeekType type := absolute.imp_right .inr
      obtain ⟨result, c', performed, -, sought⟩ := synced.lseek grantsSeek _ _ accepted
        (fun _ => admits.1)
      have plain : PlainFile.perform (.lseek position type) s = (⟨0, [], 0⟩,
          { s with position := (seekTarget position type s.position s.content.length).toNat }) := by
        simp only [PlainFile.perform, if_pos (And.intro lo hi)]
      rw [plain]
      cases sought with
      | inside inWindow hresult synced' =>
          refine ⟨c', by rw [performed, hresult], short, i, _, synced', size, ?_, rfl⟩
          simp only [destination_eq, size, seekTarget_of_absolute absolute f.cachedPos s.position]
          have := toUint32_of_lt lo hi
          omega
      | moved _ _ _ hresult synced' =>
          have same : driftAfter type 0 f s.content = 0 := by
            rcases absolute with rfl | rfl
            · rfl
            · rw [driftAfter, if_neg (by decide), if_neg (by decide), size, Nat.sub_self]
          rw [same] at synced'
          refine ⟨c', by rw [performed, hresult], short, i, _, synced', size, ?_, rfl⟩
          simp only [FileHandleInfo.movedTo, destination_eq, size,
            seekTarget_of_absolute absolute f.filePosition s.position]
          have := toUint32_of_lt lo hi
          omega
      | invalid _ outOfRange =>
          rw [seekTarget_of_absolute absolute _ s.position] at outOfRange
          exact absurd ⟨lo, hi⟩ outOfRange
  | write bytes => exact admits.elim

end

/-- A file opened for reading answers like a plain file, whatever the lengths of the
server's READs. -/
theorem opened_file_refines_plain {policy : Policy} {fuel : Nat} {c : Client FileServer}
    {source F : List UInt8} (perms : UInt16) (grantsStat : policy.Grants Cmd.stat)
    (grantsOpen : policy.Grants Cmd.open_) (grantsRead : policy.Grants Cmd.read)
    (grantsSeek : policy.Grants Cmd.lseek) (can : CanOpen c source openmodeRead F)
    (known : Known c) (short : F.length < 2147483648) (enough : c.mInfo.maxRetries + 1 < fuel)
    (enough' : 1051 < fuel) :
    ∃ (h : UInt8) (c₁ : Client FileServer),
      tnfsOpen (transaction (net policy) fuel) source openmodeRead perms c =
        some ((code Result.success, (h.toNat : Int)), c₁) ∧
      ∀ ops, Machine.Admissible PlainFile.perform PlainFile.Admits ops ⟨F, 0⟩ →
        ∃ c₂ f, Machine.run (FileOp.perform (transaction (net policy) fuel) fuel h.toNat) ops c₁ =
            some ((Machine.runTotal PlainFile.perform ops ⟨F, 0⟩).1, c₂) ∧
          c₂.file h = some f ∧
          f.cachedPos = (Machine.runTotal PlainFile.perform ops ⟨F, 0⟩).2.position := by
  obtain ⟨i, f, c₁, hopen, just⟩ := tnfsOpen_spec perms grantsStat grantsOpen can
    (by omega : 0 < fuel) (by decide)
  refine ⟨f.handleId, c₁, hopen, fun ops admissible => ?_⟩
  have start : RefinesPlain fuel f.handleId _ ⟨F, 0⟩ c₁ :=
    ⟨short, i, f, just.synced known enough enough' (by simp only [word]; omega), just.size,
      just.start, rfl⟩
  obtain ⟨c₂, hrun, -, i', f', synced, -, position, handle⟩ :=
    (perform_refines_plain grantsRead grantsSeek f.handleId).run start admissible
  exact ⟨c₂, f', hrun, handle ▸ synced.opened.file, position⟩

/-- Three bytes, read and sought, from a server that gives one byte at a time. -/
theorem opened_file_refines_plain_of_three_bytes :
    ∃ (h : UInt8) (c₁ c₂ : Client FileServer),
      tnfsOpen (transaction (net fun _ _ => .grant 1) 2000) [0x61] openmodeRead 0
        (freshClient fun _ => some [1, 2, 3]) = some ((code Result.success, (h.toNat : Int)), c₁) ∧
      Machine.run (FileOp.perform (transaction (net fun _ _ => .grant 1) 2000) 2000 h.toNat)
        [.read 2, .lseek (-1) seekEnd, .read 4, .lseek 1 seekSet, .read 1] c₁ =
          some ([⟨0, [1, 2], 0⟩, ⟨0, [], 0⟩, ⟨code Result.endOfFile, [3], 0⟩, ⟨0, [], 0⟩,
            ⟨0, [2], 0⟩], c₂) := by
  have grants (command : UInt8) : Policy.Grants (fun _ _ => .grant 1) command := fun _ => ⟨1, rfl⟩
  have can : CanOpen (freshClient fun _ => some [1, 2, 3]) [0x61] openmodeRead [1, 2, 3] :=
    canOpen_freshClient _ ⟨by decide, by decide, by decide, by decide⟩ (by decide)
      fun content h => by rw [← Option.some.inj h]; decide
  obtain ⟨h, c₁, hopen, runs⟩ := opened_file_refines_plain 0 (grants _) (grants _) (grants _)
    (grants _) can (known_freshClient _) (by decide) (by decide) (by decide : 1051 < 2000)
  obtain ⟨c₂, f, hrun, -⟩ :=
    runs [.read 2, .lseek (-1) seekEnd, .read 4, .lseek 1 seekSet, .read 1]
      (by simp [Machine.Admissible, PlainFile.Admits, PlainFile.perform, IsInt32, seekSet, seekEnd])
  exact ⟨h, c₁, c₂, hopen, hrun⟩

end FujiNet.TNFS
