import FujiNet.Media.Apple.BlockArray
import FujiNet.Media.Apple.MediaTypeDO

/-!
# A DOS-order image as an array of blocks

The interleave table gives each sector of a track to exactly one of its eight blocks, so
that the blocks of an image share no byte and leave none out. Reads and writes of blocks
then act as on an array, whichever of them fail: a write that fails, also between the two
halves, has stored a part of its block from the front and nothing anywhere else.
-/

namespace FujiNet.Apple

/-- What a call may do to an array of blocks. A write stores a part of its buffer from the
front, and all of it unless it fails. -/
def BlockOp.Acts (op : BlockOp) (answer : Bool × List UInt8) (blocks blocks' : Nat → List UInt8) :
    Prop :=
  match op with
  | .read blockNum =>
    blocks' = blocks ∧
      (answer.1 = false → answer.2 = blocks blockNum.toNat ∧ answer.2.length = 512)
  | .write blockNum buffer =>
    ∃ k ≤ 512, (answer.1 = false → k = 512) ∧
      blocks' = Function.update blocks blockNum.toNat
        (buffer.toList.take k ++ (blocks blockNum.toNat).drop k)

/-- A sequence of calls on an array of blocks with their answers. -/
inductive BlockRun : (Nat → List UInt8) → List BlockOp → List (Bool × List UInt8) →
    (Nat → List UInt8) → Prop
  | nil (blocks : Nat → List UInt8) : BlockRun blocks [] [] blocks
  | cons {blocks blocks₁ blocks₂ : Nat → List UInt8} {op : BlockOp} {answer : Bool × List UInt8}
      {ops : List BlockOp} {answers : List (Bool × List UInt8)} :
      op.Acts answer blocks blocks₁ → BlockRun blocks₁ ops answers blocks₂ →
      BlockRun blocks (op :: ops) (answer :: answers) blocks₂

/-- A write that stops early has stored the part of the data that it reports. -/
def StoresPrefix {φ : Type} {files : FileHandler φ} (bytes : SeekableBytes files) : Prop :=
  ∀ h data s, bytes.content (files.write h data s).2 =
    writeAt (bytes.content s) (bytes.position h s) (data.take (files.write h data s).1)

namespace MediaTypeDO

/-- Make the call: whether it failed, and what a read returned. -/
def perform {φ : Type} (files : FileHandler φ) (m : MediaTypeDO) (op : BlockOp) (s : φ) :
    Option ((Bool × List UInt8) × φ) :=
  match op with
  | .read blockNum => read files blockNum.toNat m s
  | .write blockNum buffer =>
    (write files blockNum.toNat buffer.toList m s).map fun (err, s) => ((err, []), s)

/-- The byte belongs to one of the two sectors that the calls for the block go to. -/
def Holds (blockNum p : Nat) : Prop :=
  let (track, first, second) := sectors blockNum
  sectorOffset track first ≤ p ∧ p < sectorOffset track first + 256 ∨
    sectorOffset track second ≤ p ∧ p < sectorOffset track second + 256

/-! ## The interleave table -/

/-- Each sector of a track belongs to one block only. -/
theorem prodos2dos_injective : ∀ i < 8, ∀ j < 8, ∀ sector < 16,
    (sector = (prodos2dos.getD i (0, 0)).1 ∨ sector = (prodos2dos.getD i (0, 0)).2) ∧
    (sector = (prodos2dos.getD j (0, 0)).1 ∨ sector = (prodos2dos.getD j (0, 0)).2) → i = j := by
  decide

/-- Each sector of a track belongs to a block. -/
theorem prodos2dos_surjective : ∀ sector < 16, ∃ i < 8,
    sector = (prodos2dos.getD i (0, 0)).1 ∨ sector = (prodos2dos.getD i (0, 0)).2 := by
  decide

/-- The two sectors of a block are different ones. -/
theorem prodos2dos_ne : ∀ i < 8, (prodos2dos.getD i (0, 0)).1 ≠ (prodos2dos.getD i (0, 0)).2 := by
  decide

/-- The track and the sector of a byte. -/
theorem sector_iff {track sector p : Nat} (inside : sector < 16) :
    track * 4096 + sector * 256 ≤ p ∧ p < track * 4096 + sector * 256 + 256 ↔
      p / 4096 = track ∧ p / 256 % 16 = sector := by
  omega

theorem holds_iff {blockNum p : Nat} (small : blockNum < 8388608) :
    Holds blockNum p ↔ p / 4096 = blockNum / 8 ∧
      (p / 256 % 16 = (prodos2dos.getD (blockNum % 8) (0, 0)).1 ∨
        p / 256 % 16 = (prodos2dos.getD (blockNum % 8) (0, 0)).2) := by
  obtain ⟨first, second⟩ := sectors_lt blockNum
  obtain ⟨start, start'⟩ := sectorOffset_sectors small
  simp only [Holds, start, start']
  simp only [places, sector_iff first, sector_iff second, ← and_or_left]
  rfl

theorem Holds.unique {a b p : Nat} (smallA : a < 8388608) (smallB : b < 8388608)
    (inA : Holds a p) (inB : Holds b p) : a = b := by
  obtain ⟨trackA, sectorA⟩ := (holds_iff smallA).mp inA
  obtain ⟨trackB, sectorB⟩ := (holds_iff smallB).mp inB
  have same : a % 8 = b % 8 := prodos2dos_injective _ (Nat.mod_lt _ (by decide)) _
    (Nat.mod_lt _ (by decide)) _ (Nat.mod_lt _ (by decide)) ⟨sectorA, sectorB⟩
  omega

theorem Holds.lt {b n p : Nat} (inside : b < 8 * n) (small : b < 8388608) (holds : Holds b p) :
    p < 4096 * n := by
  obtain ⟨track, -⟩ := (holds_iff small).mp holds
  omega

theorem exists_holds {n p : Nat} (inside : p < 4096 * n) (small : n < 1048576) :
    ∃ b < 8 * n, Holds b p := by
  obtain ⟨i, lt, sector⟩ := prodos2dos_surjective (p / 256 % 16) (Nat.mod_lt _ (by decide))
  refine ⟨p / 4096 * 8 + i, by omega, (holds_iff (by omega)).mpr ⟨by omega, ?_⟩⟩
  have place : (p / 4096 * 8 + i) % 8 = i := by omega
  rwa [place]

/-! ## The sectors of a block in the image -/

/-- Two sectors that do not overlap. -/
def Apart (x y : Nat) : Prop := x + 256 ≤ y ∨ y + 256 ≤ x

/-- The sectors of two blocks do not overlap. -/
theorem places_apart {a b : Nat} (ne : a ≠ b) :
    (Apart (places a).1 (places b).1 ∧ Apart (places a).1 (places b).2) ∧
      Apart (places a).2 (places b).1 ∧ Apart (places a).2 (places b).2 := by
  obtain ⟨firstA, secondA⟩ := sectors_lt a
  obtain ⟨firstB, secondB⟩ := sectors_lt b
  have differ (sector : Nat) (lt : sector < 16)
      (inA : sector = (sectors a).2.1 ∨ sector = (sectors a).2.2)
      (inB : sector = (sectors b).2.1 ∨ sector = (sectors b).2.2) : a / 8 ≠ b / 8 := by
    have same : a % 8 = b % 8 := prodos2dos_injective _ (Nat.mod_lt _ (by decide)) _
      (Nat.mod_lt _ (by decide)) _ lt ⟨inA, inB⟩
    omega
  have apart (x y : Nat) (xlt : x < 16) (ylt : y < 16) (other : x = y → a / 8 ≠ b / 8) :
      Apart (a / 8 * 4096 + x * 256) (b / 8 * 4096 + y * 256) := by
    unfold Apart
    omega
  exact ⟨⟨apart _ _ firstA firstB fun same => differ _ firstA (.inl rfl) (.inl same),
      apart _ _ firstA secondB fun same => differ _ firstA (.inl rfl) (.inr same)⟩,
    apart _ _ secondA firstB fun same => differ _ secondA (.inr rfl) (.inl same),
    apart _ _ secondA secondB fun same => differ _ secondA (.inr rfl) (.inr same)⟩

theorem places_eq (b : Nat) : places b = ((sectors b).1 * 4096 + (sectors b).2.1 * 256,
    (sectors b).1 * 4096 + (sectors b).2.2 * 256) := rfl

/-- Nor do the two sectors of one block. -/
theorem places_apart_self (b : Nat) : Apart (places b).1 (places b).2 := by
  have ne : (sectors b).2.1 ≠ (sectors b).2.2 := prodos2dos_ne _ (Nat.mod_lt _ (by decide))
  rw [places_eq, Apart]
  omega

/-- The sectors of a block of an image lie inside it. -/
theorem places_lt {b n : Nat} (inside : b < 8 * n) :
    (places b).1 + 256 ≤ 4096 * n ∧ (places b).2 + 256 ≤ 4096 * n := by
  obtain ⟨first, second⟩ := sectors_lt b
  have track : (sectors b).1 = b / 8 := rfl
  rw [places_eq]
  omega

/-! ## Storing a part of a sector -/

section Store

variable {content data : List UInt8} {b n : Nat}

/-- A write to a sector leaves the other sectors alone. -/
theorem slice_of_apart {x y : Nat} (apart : Apart x y) (short : data.length ≤ 256)
    (inside : x ≤ content.length) :
    slice (writeAt content x data) y 256 = slice content y 256 := by
  apply slice_writeAt_of_disjoint content x data inside
  rw [Apart] at apart
  omega

/-- A write to a sector changes it from the front. -/
theorem slice_of_start {x : Nat} (short : data.length ≤ 256) (inside : x ≤ content.length) :
    slice (writeAt content x data) x 256 = data ++ (slice content x 256).drop data.length := by
  have behind : slice (writeAt content x data) (x + data.length) (256 - data.length) =
      slice content (x + data.length) (256 - data.length) :=
    slice_writeAt_of_disjoint content x data inside (.inr (Nat.le_refl _))
  have split := slice_append_slice (writeAt content x data) x data.length (256 - data.length)
  rw [slice_writeAt, behind, Nat.add_sub_cancel' short] at split
  rw [← split, slice_drop_slice]

/-- What a write to the first sector of a block does to the blocks. -/
theorem block_of_first (whole : content.length = 4096 * n) (inside : b < 8 * n)
    (short : data.length ≤ 256) :
    block (writeAt content (places b).1 data) =
      Function.update (block content) b (data ++ (block content b).drop data.length) := by
  have lt : (places b).1 ≤ content.length := by
    have := (places_lt inside).1
    omega
  funext a
  by_cases same : a = b
  · subst same
    have full : (slice content (places a).1 256).length = 256 := by
      have := (places_lt inside).1
      rw [length_slice]
      omega
    rw [Function.update_self, block, slice_of_start short lt,
      slice_of_apart (places_apart_self a) short lt, block,
      List.drop_append_of_le_length (by rw [full]; exact short), List.append_assoc]
  · obtain ⟨⟨first, second⟩, -⟩ := places_apart (Ne.symm same)
    rw [Function.update_of_ne same, block, slice_of_apart first short lt,
      slice_of_apart second short lt, block]

/-- The same of the second sector. -/
theorem block_of_second (whole : content.length = 4096 * n) (inside : b < 8 * n)
    (short : data.length ≤ 256) :
    block (writeAt content (places b).2 data) =
      Function.update (block content) b
        ((block content b).take 256 ++ data ++ (block content b).drop (256 + data.length)) := by
  have lt : (places b).2 ≤ content.length := by
    have := (places_lt inside).2
    omega
  have full : (slice content (places b).1 256).length = 256 := by
    have := (places_lt inside).1
    rw [length_slice]
    omega
  funext a
  by_cases same : a = b
  · subst same
    have apart : Apart (places a).2 (places a).1 := (places_apart_self a).symm
    rw [Function.update_self, block, slice_of_apart apart short lt, slice_of_start short lt, block,
      List.take_left' full, List.append_assoc]
    congr 2
    rw [← List.drop_drop, List.drop_left' full]
  · obtain ⟨-, first, second⟩ := places_apart (Ne.symm same)
    rw [Function.update_of_ne same, block, slice_of_apart first short lt,
      slice_of_apart second short lt, block]

end Store

/-! ## Calls -/

section Calls

variable {φ : Type} {files : FileHandler φ} {bytes : SeekableBytes files} {m : MediaTypeDO}
  {f : Handle} {n : Nat}

/-- A sector is written from the front. -/
theorem writeSector_spec (stores : StoresPrefix bytes) (fileh : m.mediaFileh = some f)
    (track sector : Nat) (buffer : List UInt8) (s : φ)
    (inside : sectorOffset track sector ≤ (bytes.content s).length) :
    ∃ err k s', writeSector files track sector buffer m s = some (err, s') ∧ k ≤ 256 ∧
      (err = false → k = 256) ∧ bytes.content s' =
        writeAt (bytes.content s) (sectorOffset track sector) (buffer.take k) := by
  simp only [writeSector, fileh, Option.bind_eq_bind, Option.bind_some]
  split
  · have nothing : writeAt (bytes.content s) (sectorOffset track sector) (buffer.take 0) =
        bytes.content s := by
      simp [writeAt, Nat.sub_eq_zero_of_le inside]
    exact ⟨_, 0, _, rfl, by omega, (by rintro ⟨⟩), (bytes.content_seek _ _ _).trans nothing.symm⟩
  · next sought =>
    have position := Int.natCast_inj.mp (bytes.position_seek _ _ _ (not_not.mp sought))
    have stored := stores f (buffer.take 256) (files.seek f (sectorOffset track sector) s).2
    rw [position, bytes.content_seek, List.take_take] at stored
    refine ⟨_, _, _, rfl, Nat.min_le_right _ _, fun succeeded => ?_, stored⟩
    rw [bne_eq_false_iff_eq.mp succeeded, Nat.min_self]

/-- What was stored of the first half, and then of the second one. -/
theorem front_then_back {buffer old : List UInt8} {k : Nat} (length : buffer.length = 512) :
    (buffer.take 256 ++ old.drop 256).take 256 ++ (buffer.drop 256).take k ++
        (buffer.take 256 ++ old.drop 256).drop (256 + k) =
      buffer.take (256 + k) ++ old.drop (256 + k) := by
  have front : (buffer.take 256).length = 256 := by
    rw [List.length_take, length]
    rfl
  rw [List.take_left' front, ← List.drop_drop, List.drop_left' front, List.drop_drop,
    ← List.take_add]

/-- A write stores a part of its buffer from the front, and all of it unless it fails. -/
theorem write_spec (stores : StoresPrefix bytes) (fileh : m.mediaFileh = some f)
    (numBlocks : m.numBlocks = 8 * n) {b : Nat} (inside : b < 8 * n) (small : b < 8388608)
    {buffer : List UInt8} (length : buffer.length = 512) {s : φ}
    (whole : (bytes.content s).length = 4096 * n) :
    ∃ err k s', write files b buffer m s = some (err, s') ∧ k ≤ 512 ∧ (err = false → k = 512) ∧
      (bytes.content s').length = 4096 * n ∧
      block (bytes.content s') = Function.update (block (bytes.content s)) b
        (buffer.take k ++ (block (bytes.content s) b).drop k) := by
  obtain ⟨first, second⟩ := sectorOffset_sectors small
  obtain ⟨ltFirst, ltSecond⟩ := places_lt inside
  obtain ⟨err, j, s₁, wrote, short, complete, content⟩ := writeSector_spec
    stores fileh (sectors b).1 (sectors b).2.1 buffer s (by omega)
  have stored : (buffer.take j).length = j := by
    rw [List.length_take]
    omega
  have whole₁ : (bytes.content s₁).length = 4096 * n := by
    rw [content, length_writeAt, first]
    omega
  have blocks : block (bytes.content s₁) = Function.update (block (bytes.content s)) b
      (buffer.take j ++ (block (bytes.content s) b).drop j) := by
    rw [content, first, block_of_first whole inside (by omega), stored]
  obtain ⟨err', k, s₂, wrote', short', complete', content'⟩ := writeSector_spec
    stores fileh (sectors b).1 (sectors b).2.2 (buffer.drop 256) s₁ (by omega)
  have stored' : ((buffer.drop 256).take k).length = k := by
    rw [List.length_take, List.length_drop]
    omega
  simp only [write, numBlocks, if_neg (Nat.not_le.mpr inside), wrote, wrote', Option.bind_eq_bind,
    Option.bind_some]
  cases err with
  | true => exact ⟨true, j, s₁, rfl, by omega, (by rintro ⟨⟩), whole₁, blocks⟩
  | false =>
      obtain rfl := complete rfl
      refine ⟨err', 256 + k, s₂, rfl, by omega, fun succeeded => ?_, ?_, ?_⟩
      · rw [complete' succeeded]
      · rw [content', length_writeAt, second]
        omega
      · rw [content', second, block_of_second whole₁ inside (by omega), stored', blocks,
          Function.update_self, Function.update_idem, front_then_back length]

/-- One call on a block of the image. -/
theorem perform_spec (stores : StoresPrefix bytes) (fileh : m.mediaFileh = some f)
    (numBlocks : m.numBlocks = 8 * n) (small : n ≤ 1048576) {op : BlockOp}
    (inside : op.blockNum < 8 * n) {s : φ} (whole : (bytes.content s).length = 4096 * n) :
    ∃ answer s', perform files m op s = some (answer, s') ∧
      (bytes.content s').length = 4096 * n ∧
      op.Acts answer (block (bytes.content s)) (block (bytes.content s')) := by
  cases op with
  | read blockNum =>
      have below : blockNum.toNat < 8 * n := inside
      obtain ⟨err, data, s', performed, same, got⟩ := read_spec bytes fileh
        (show blockNum.toNat < 8388608 by omega) s
      exact ⟨_, s', performed, same ▸ whole, congrArg block same, got⟩
  | write blockNum buffer =>
      have below : blockNum.toNat < 8 * n := inside
      obtain ⟨err, k, s', performed, short, complete, whole', blocks⟩ := write_spec stores fileh
        numBlocks below (by omega) (by simp : buffer.toList.length = 512) whole
      refine ⟨(err, []), s', ?_, whole', k, short, complete, blocks⟩
      rw [perform, performed]
      rfl

/-- A sequence of calls on blocks of the image. -/
theorem run_spec (stores : StoresPrefix bytes) (fileh : m.mediaFileh = some f)
    (numBlocks : m.numBlocks = 8 * n) (small : n ≤ 1048576) {ops : List BlockOp}
    (inside : ∀ op ∈ ops, op.blockNum < 8 * n) {s : φ}
    (whole : (bytes.content s).length = 4096 * n) :
    ∃ answers s', Machine.run (perform files m) ops s = some (answers, s') ∧
      (bytes.content s').length = 4096 * n ∧
      BlockRun (block (bytes.content s)) ops answers (block (bytes.content s')) := by
  induction ops generalizing s with
  | nil => exact ⟨[], s, rfl, whole, .nil _⟩
  | cons op ops ih =>
      obtain ⟨answer, s₁, performed, whole₁, acts⟩ := perform_spec stores fileh numBlocks small
        (inside op (List.mem_cons_self ..)) whole
      obtain ⟨answers, s₂, ran, whole₂, run⟩ := ih
        (fun op member => inside op (List.mem_cons_of_mem _ member)) whole₁
      refine ⟨answer :: answers, s₂, ?_, whole₂, .cons acts run⟩
      simp only [Machine.run, performed, Option.bind_some, ran, Option.map_some]

/-- What `mount` accepts has 35, 36 or 40 tracks. -/
theorem mount_eq_true {m₀ : MediaTypeDO} {disksize : Nat}
    (mounted : mount f disksize m₀ = (true, m)) :
    ∃ n ≤ 40, disksize = 4096 * n ∧ m.numBlocks = 8 * n ∧ m.mediaFileh = some f := by
  rw [mount] at mounted
  split at mounted
  · next size =>
    obtain ⟨-, rfl⟩ := Prod.mk.inj mounted
    refine ⟨disksize / 4096, by omega, by omega, ?_, rfl⟩
    show disksize / 512 = _
    omega
  · cases (Prod.mk.inj mounted).1

/-- The blocks of a mounted image share no byte, and every byte of the image is in one. In every
sequence of calls on them each one is answered and acts as on an array of blocks. -/
theorem dosOrder_is_block_array (bytes : SeekableBytes files) (stores : StoresPrefix bytes)
    (m₀ : MediaTypeDO) (disksize : Nat) (mounted : mount f disksize m₀ = (true, m)) (s : φ)
    (whole : (bytes.content s).length = disksize) :
    (∀ a < m.numBlocks, ∀ b < m.numBlocks, ∀ p, Holds a p → Holds b p → a = b) ∧
    (∀ p, p < disksize ↔ ∃ b < m.numBlocks, Holds b p) ∧
    ∀ ops : List BlockOp, (∀ op ∈ ops, op.blockNum < m.numBlocks) →
      ∃ answers s', Machine.run (perform files m) ops s = some (answers, s') ∧
        (bytes.content s').length = disksize ∧
        BlockRun (block (bytes.content s)) ops answers (block (bytes.content s')) := by
  obtain ⟨n, few, rfl, numBlocks, fileh⟩ := mount_eq_true mounted
  rw [numBlocks]
  refine ⟨?_, ?_, ?_⟩
  · intro a belowA b belowB p inA inB
    exact inA.unique (by omega) (by omega) inB
  · intro p
    refine ⟨fun inside => exists_holds inside (by omega), ?_⟩
    rintro ⟨b, below, holds⟩
    exact holds.lt below (by omega)
  · intro ops inside
    exact run_spec stores fileh numBlocks (by omega) inside whole

end Calls

/-- The files with failures store what they report. -/
theorem storesPrefix_of_scripted : StoresPrefix ScriptedFile.bytes := by
  intro h data s
  have reported : data.take (min (s.limit.getD data.length) data.length) =
      data.take (s.limit.getD data.length) := by
    rw [← List.take_take, List.take_of_length_le (Nat.le_refl _)]
  simp [ScriptedFile.bytes, ScriptedFile.handler, ScriptedFile.write, ByteFile.write,
    ByteFile.moveTo, reported]

/-- Block 9 of an image of 35 tracks, written but for 156 bytes of its second half and read. -/
theorem dosOrder_is_block_array_of_short_write :
    ∃ answers s', Machine.run (perform ScriptedFile.handler (mount 0 143360 {}).2)
        [.write 9 (Vector.replicate 512 0xFF), .read 9]
        ⟨⟨List.replicate 143360 0x11, fun _ => 0⟩, [none, none, none, some 100]⟩ =
          some (answers, s') ∧
      (ScriptedFile.bytes.content s').length = 143360 ∧
      BlockRun (block (List.replicate 143360 0x11))
        [.write 9 (Vector.replicate 512 0xFF), .read 9] answers
        (block (ScriptedFile.bytes.content s')) :=
  (dosOrder_is_block_array ScriptedFile.bytes storesPrefix_of_scripted {} 143360 rfl
    ⟨⟨List.replicate 143360 0x11, fun _ => 0⟩, [none, none, none, some 100]⟩
    List.length_replicate).2.2 _ (by decide)

end MediaTypeDO

end FujiNet.Apple
