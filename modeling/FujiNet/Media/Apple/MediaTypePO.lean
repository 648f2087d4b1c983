import FujiNet.FileSystem.FileHandler

/-!
# ProDOS-order images

`MediaTypePO` reads and writes an image file block by block. It remembers the
last block in `last_block_num` and leaves out the seek when the next call is for
the block after it. `0xFFFFFFFF` stands for no last block; the comparison is made
in 32 bits, so the block after it is block 0.

A range of blocks in the header of a 2IMG file makes writes to these blocks go
through a second handler, opened for each of them. `filehandlerOpen` is the host's
function with the file name and the mode already given to it.

The functions answer `none` where the source follows a null pointer.
-/

namespace FujiNet.Apple

def INVALID_SECTOR_VALUE : Nat := 65536

/-- `UINT16_FROM_HILOBYTES` on two `char`s, which are signed: a low byte from 0x80 on
is extended over the high byte. -/
def uint16FromChars (high low : UInt8) : Nat :=
  if low.toNat < 128 then u16 low high else 0xFF00 + low.toNat

/-- The members of `MediaTypePO` and of its base class. -/
structure MediaTypePO where
  mediaFileh : Option Handle := none
  oldFileh : Option Handle := none
  hsFileh : Option Handle := none
  lastBlockNum : Nat := 0xFFFFFFFF
  offset : Nat := 0
  highScoreEnabled : Bool := false
  highScoreBlockLb : Nat := 0
  highScoreBlockUb : Nat := 0
  numBlocks : Nat := 0

namespace MediaTypePO

def resetSeekOpto (m : MediaTypePO) : MediaTypePO := { m with lastBlockNum := 0xFFFFFFFF }

/-- `last_block_num + 1` of a `uint32_t`. -/
def nextBlockNum (m : MediaTypePO) : Nat := (m.lastBlockNum + 1) % 4294967296

/-- The block belongs to the high score range, and there is one. -/
def inHighScoreRange (m : MediaTypePO) (blockNum : Nat) : Bool :=
  m.highScoreEnabled && decide (m.highScoreBlockLb ≤ blockNum) &&
    decide (blockNum ≤ m.highScoreBlockUb)

variable {φ : Type} (files : FileHandler φ)

/-- `MediaTypePO::read`: whether it failed, and the bytes it stored in the buffer. -/
def read (blockNum count : Nat) (m : MediaTypePO) (s : φ) :
    Option ((Bool × List UInt8) × MediaTypePO × φ) := do
  let fileh ← m.mediaFileh
  let skip := !(blockNum == 0 || blockNum != m.nextBlockNum)
  let (e, s) := files.seekUnless skip fileh (blockNum * count + m.offset : Nat) s
  if e ≠ 0 then some ((true, []), m.resetSeekOpto, s)
  else
    let last := if m.inHighScoreRange blockNum then INVALID_SECTOR_VALUE else blockNum
    let (bytes, s) := files.read fileh count s
    some ((bytes.length != count, bytes), { m with lastBlockNum := last }, s)

/-- The first lines of `MediaTypePO::write`: a block of the high score range is
written through a handler of its own. -/
def swapHandles (filehandlerOpen : φ → Option Handle × φ) (blockNum : Nat) (m : MediaTypePO)
    (s : φ) : MediaTypePO × φ :=
  if m.inHighScoreRange blockNum then
    let (opened, s) := filehandlerOpen s
    ({ m with oldFileh := m.mediaFileh, hsFileh := opened, mediaFileh := opened }, s)
  else (m, s)

/-- The last lines of `MediaTypePO::write`, which undo `swapHandles`. -/
def revertHandles (blockNum : Nat) (m : MediaTypePO) (s : φ) : MediaTypePO × φ :=
  if m.inHighScoreRange blockNum then
    let s := match m.hsFileh with
      | some h => (files.close h s).2
      | none => s
    ({ m with mediaFileh := m.oldFileh, lastBlockNum := INVALID_SECTOR_VALUE }, s)
  else (m, s)

/-- `MediaTypePO::write` of a buffer of `*count` bytes: whether it failed. -/
def write (filehandlerOpen : φ → Option Handle × φ) (blockNum : Nat) (buffer : List UInt8)
    (m : MediaTypePO) (s : φ) : Option (Bool × MediaTypePO × φ) := do
  let (m, s) := swapHandles filehandlerOpen blockNum m s
  let fileh ← m.mediaFileh
  let skip := !(blockNum != m.nextBlockNum)
  let (e, s) := files.seekUnless skip fileh (blockNum * buffer.length + m.offset : Nat) s
  if e ≠ 0 then some (true, m.resetSeekOpto, s)
  else
    let m := { m with lastBlockNum := blockNum }
    let (writesize, s) := files.write fileh buffer s
    if writesize ≠ buffer.length then some (true, m.resetSeekOpto, s)
    else
      let (m, s) := revertHandles files blockNum m s
      some (false, m, s)

/-- The high score range a 2IMG header asks for. -/
def setHighScore (hdr : List UInt8) (m : MediaTypePO) : MediaTypePO :=
  -- 'H', 'I' and the lower and upper bound
  if hdr[48]? = some 0x48 ∧ hdr[49]? = some 0x49 then
    let lb := uint16FromChars (hdr.getD 51 0) (hdr.getD 50 0)
    let ub := uint16FromChars (hdr.getD 53 0) (hdr.getD 52 0)
    let ranged := { m with highScoreBlockLb := lb, highScoreBlockUb := ub }
    if lb > 0 then
      { ranged with highScoreBlockUb := if ub = 0 then lb else ub, highScoreEnabled := true }
    else ranged
  else m

/-- The header begins with "2IMG". -/
def is2IMG (hdr : List UInt8) : Bool := hdr.take 4 == [0x32, 0x49, 0x4D, 0x47]

/-- `MediaTypePO::mount`. The header buffer is on the stack and holds `stack` before
the read, whose result is not checked. -/
def mount (f : Handle) (disksize : Nat) (stack : Vector UInt8 64) (m : MediaTypePO) (s : φ) :
    MediaTypePO × φ :=
  let (bytes, s) := files.read f 64 s
  let hdr := overlay stack.toList 0 bytes
  let m := if is2IMG hdr then { setHighScore hdr m with offset := 64 } else m
  let disksize := (disksize + 4294967296 - m.offset) % 4294967296
  ({ m with mediaFileh := some f, numBlocks := disksize / 512 }, s)

/-! ## Outside a high score range -/

/-- A read through a handler that is there. -/
theorem read_of_fileh {m : MediaTypePO} {f : Handle} (fileh : m.mediaFileh = some f)
    (blockNum count : Nat) (s : φ) :
    read files blockNum count m s =
      (let sought := files.seekUnless (!(blockNum == 0 || blockNum != m.nextBlockNum)) f
        (blockNum * count + m.offset : Nat) s
      let got := files.read f count sought.2
      some (if sought.1 = 0 then
        ((got.1.length != count, got.1),
          { m with lastBlockNum :=
              if m.inHighScoreRange blockNum then INVALID_SECTOR_VALUE else blockNum }, got.2)
      else ((true, []), m.resetSeekOpto, sought.2))) := by
  simp only [read, fileh, Option.bind_eq_bind, Option.bind_some, ne_eq, ite_not]
  split <;> rfl

/-- A write of a block that is not in the range. -/
theorem write_of_outside {m : MediaTypePO} {f : Handle} (fileh : m.mediaFileh = some f)
    {blockNum : Nat} (outside : m.inHighScoreRange blockNum = false)
    (filehandlerOpen : φ → Option Handle × φ) (buffer : List UInt8) (s : φ) :
    write files filehandlerOpen blockNum buffer m s =
      (let sought := files.seekUnless (!(blockNum != m.nextBlockNum)) f
        (blockNum * buffer.length + m.offset : Nat) s
      let put := files.write f buffer sought.2
      some (if sought.1 = 0 then
        if put.1 = buffer.length then (false, { m with lastBlockNum := blockNum }, put.2)
        else (true, m.resetSeekOpto, put.2)
      else (true, m.resetSeekOpto, sought.2))) := by
  have kept : swapHandles filehandlerOpen blockNum m s = (m, s) := by
    simp [swapHandles, outside]
  have still (s : φ) : revertHandles files blockNum { m with lastBlockNum := blockNum } s =
      ({ m with lastBlockNum := blockNum }, s) := by
    have outside : { m with lastBlockNum := blockNum }.inHighScoreRange blockNum = false := outside
    simp [revertHandles, outside]
  rw [write, kept]
  simp only [fileh, Option.bind_eq_bind, Option.bind_some, ne_eq, ite_not]
  simp only [fileh] at still
  split
  · split
    · rw [still]
    · simp only [resetSeekOpto, fileh]
  · rfl

theorem inHighScoreRange_of_plain {m : MediaTypePO} (plain : m.highScoreEnabled = false)
    (blockNum : Nat) : m.inHighScoreRange blockNum = false := by
  simp [inHighScoreRange, plain]

end MediaTypePO

end FujiNet.Apple
