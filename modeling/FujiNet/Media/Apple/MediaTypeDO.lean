import FujiNet.FileSystem.SecondHandle

/-!
# DOS-order images

`MediaTypeDO` keeps a ProDOS block as two DOS sectors of the same track. Every sector is
sought, so that calls do not depend on each other. A read of a block past the end is left
to the file; the offset has 32 bits, and a block from 2^23 on is looked for inside the
image again.

The functions answer `none` where the source follows a null pointer.
-/

namespace FujiNet.Apple

/-- The two DOS sectors of each block of a track. -/
def prodos2dos : List (Nat × Nat) :=
  [(0, 14), (13, 12), (11, 10), (9, 8), (7, 6), (5, 4), (3, 2), (1, 15)]

/-- The members of `MediaTypeDO` that are used. -/
structure MediaTypeDO where
  mediaFileh : Option Handle := none
  numBlocks : Nat := 0

namespace MediaTypeDO

/-- The track of a block and its sectors there. -/
def sectors (blockNum : Nat) : Nat × Nat × Nat :=
  (blockNum / 8, prodos2dos.getD (blockNum % 8) (0, 0))

/-- The offset of a sector, a `uint32_t`. -/
def sectorOffset (track sector : Nat) : Nat := (track * 4096 + sector * 256) % 4294967296

variable {φ : Type} (files : FileHandler φ)

/-- `read_sector`: whether it failed, and the bytes it stored in the buffer. -/
def readSector (track sector : Nat) (m : MediaTypeDO) (s : φ) :
    Option ((Bool × List UInt8) × φ) := do
  let fileh ← m.mediaFileh
  let (e, s) := files.seek fileh (sectorOffset track sector) s
  if e ≠ 0 then some ((true, []), s)
  else
    let (bytes, s) := files.read fileh 256 s
    some ((bytes.length != 256, bytes), s)

/-- `read`. -/
def read (blockNum : Nat) (m : MediaTypeDO) (s : φ) : Option ((Bool × List UInt8) × φ) := do
  let (track, first, second) := sectors blockNum
  let ((err, front), s) ← readSector files track first m s
  if err then some ((true, front), s)
  else
    let ((err, back), s) ← readSector files track second m s
    some ((err, front ++ back), s)

/-- `write_sector`: whether it failed. -/
def writeSector (track sector : Nat) (buffer : List UInt8) (m : MediaTypeDO) (s : φ) :
    Option (Bool × φ) := do
  let fileh ← m.mediaFileh
  let (e, s) := files.seek fileh (sectorOffset track sector) s
  if e ≠ 0 then some (true, s)
  else
    let (writesize, s) := files.write fileh (buffer.take 256) s
    some (writesize != 256, s)

/-- `write`. -/
def write (blockNum : Nat) (buffer : List UInt8) (m : MediaTypeDO) (s : φ) :
    Option (Bool × φ) := do
  if blockNum ≥ m.numBlocks then some (true, s)
  else
    let (track, first, second) := sectors blockNum
    let (err, s) ← writeSector files track first buffer m s
    if err then some (true, s)
    else writeSector files track second (buffer.drop 256) m s

/-- `mount`: whether the size is supported. -/
def mount (f : Handle) (disksize : Nat) (m : MediaTypeDO) : Bool × MediaTypeDO :=
  if disksize = 35 * 4096 ∨ disksize = 36 * 4096 ∨ disksize = 40 * 4096 then
    (true, { m with mediaFileh := some f, numBlocks := disksize / 512 })
  else (false, m)

theorem mount_spec {f : Handle} {disksize : Nat} {m : MediaTypeDO}
    (ok : (mount f disksize m).1 = true) :
    (mount f disksize m).2.mediaFileh = some f ∧ (mount f disksize m).2.numBlocks ≤ 320 := by
  rw [mount] at ok ⊢
  split_ifs at ok ⊢ with size
  refine ⟨rfl, ?_⟩
  change disksize / 512 ≤ 320
  omega

/-! ## Blocks of an image -/

/-- Where the two sectors of a block are. -/
def places (blockNum : Nat) : Nat × Nat :=
  let (track, first, second) := sectors blockNum
  (track * 4096 + first * 256, track * 4096 + second * 256)

/-- A block of an image. -/
def block (content : List UInt8) (blockNum : Nat) : List UInt8 :=
  slice content (places blockNum).1 256 ++ slice content (places blockNum).2 256

/-- The image after a block was stored in it. -/
def store (content : List UInt8) (blockNum : Nat) (buffer : List UInt8) : List UInt8 :=
  writeAt (writeAt content (places blockNum).1 (buffer.take 256)) (places blockNum).2
    (buffer.drop 256)

/-- The handler takes both sectors of the block. -/
def Takes (f : Handle) (blockNum : Nat) (buffer : List UInt8) (s : φ) : Prop :=
  FujiNet.Takes files f (places blockNum).1 (buffer.take 256) s ∧
    FujiNet.Takes files f (places blockNum).2 (buffer.drop 256)
      (files.write f (buffer.take 256) (files.seek f (places blockNum).1 s).2).2

variable {files} {bytes : SeekableBytes files} {m : MediaTypeDO} {f : Handle} {s : φ}
  {blockNum : Nat}

/-- The sectors of a track are inside it. -/
theorem sectors_lt (blockNum : Nat) :
    (sectors blockNum).2.1 < 16 ∧ (sectors blockNum).2.2 < 16 := by
  have all : ∀ n < 8, (prodos2dos.getD n (0, 0)).1 < 16 ∧ (prodos2dos.getD n (0, 0)).2 < 16 := by
    decide
  exact all _ (Nat.mod_lt _ (by decide))

/-- Blocks below 2^23 are where their offsets say. -/
theorem sectorOffset_sectors (small : blockNum < 8388608) :
    sectorOffset (sectors blockNum).1 (sectors blockNum).2.1 = (places blockNum).1 ∧
      sectorOffset (sectors blockNum).1 (sectors blockNum).2.2 = (places blockNum).2 := by
  obtain ⟨first, second⟩ := sectors_lt blockNum
  have track : (sectors blockNum).1 < 1048576 := by
    show blockNum / 8 < 1048576
    omega
  simp only [sectorOffset, places]
  exact ⟨Nat.mod_eq_of_lt (by omega), Nat.mod_eq_of_lt (by omega)⟩

/-- One sector, read whole. -/
theorem readSector_spec (bytes : SeekableBytes files) (fileh : m.mediaFileh = some f)
    (track sector : Nat) (s : φ) :
    ∃ err data s', readSector files track sector m s = some ((err, data), s') ∧
      bytes.content s' = bytes.content s ∧
      (err = false → data = slice (bytes.content s) (sectorOffset track sector) 256 ∧
        data.length = 256) := by
  simp only [readSector, fileh, Option.bind_eq_bind, Option.bind_some]
  split
  · exact ⟨_, _, _, rfl, bytes.content_seek _ _ _, nofun⟩
  · next sought =>
    refine ⟨_, _, _, rfl, (bytes.content_read _ _ _).trans (bytes.content_seek _ _ _), ?_⟩
    intro succeeded
    have full := by simpa only [bne_eq_false_iff_eq] using succeeded
    have started : false = true → bytes.position f s = sectorOffset track sector := nofun
    exact ⟨(bytes.read_sought started (not_not.mp sought) full).1, full⟩

/-- A successful read returns the block, and no read changes the image. -/
theorem read_spec (bytes : SeekableBytes files) (fileh : m.mediaFileh = some f)
    (small : blockNum < 8388608) (s : φ) :
    ∃ err data s', read files blockNum m s = some ((err, data), s') ∧
      bytes.content s' = bytes.content s ∧
      (err = false → data = block (bytes.content s) blockNum ∧ data.length = 512) := by
  obtain ⟨first, second⟩ := sectorOffset_sectors small
  obtain ⟨err, front, s₁, readFront, same, got⟩ := readSector_spec bytes fileh
    (sectors blockNum).1 (sectors blockNum).2.1 s
  obtain ⟨err', back, s₂, readBack, same', got'⟩ := readSector_spec bytes fileh
    (sectors blockNum).1 (sectors blockNum).2.2 s₁
  simp only [read, readFront, readBack, Option.bind_eq_bind, Option.bind_some]
  cases err with
  | true => exact ⟨true, front, s₁, rfl, same, nofun⟩
  | false =>
      refine ⟨err', front ++ back, s₂, rfl, same'.trans same, fun succeeded => ?_⟩
      obtain ⟨rfl, frontLength⟩ := got rfl
      obtain ⟨rfl, backLength⟩ := got' succeeded
      rw [same, first, second, block, List.length_append]
      rw [same] at backLength
      exact ⟨rfl, by rw [← first, frontLength, ← second, backLength]⟩

end MediaTypeDO

end FujiNet.Apple
