import FujiNet.Media.Atari.DiskType

/-!
# ATR images

An ATR file is a header of 16 bytes and the sectors in order. `MediaTypeATR`
computes where a sector starts, remembers the last sector it read or wrote, and
leaves out the seek when a read is for the sector after it.

An image whose header names a high score sector is written through a second
handler, which is opened for every write. `host` is `none` when the drive has no
host, and else the host's `filehandler_open` with its file name and mode.
-/

namespace FujiNet.Atari

def ATR_MAGIC_HEADER : Nat := 0x0296

namespace MediaTypeATR

/-- The members of class `MediaType`; the subclass has none of its own. -/
abbrev Disk := MediaType

/-- `MediaTypeATR::_sector_to_offset`, computed in `int` and stored in a `uint32_t`. -/
def sectorToOffset (d : Disk) (sectorNum : Nat) : Nat :=
  match sectorNum with
  | 1 => 16
  | 2 => if d.diskSectorSize = 512 then 528 else 144
  | 3 => if d.diskSectorSize = 512 then 1040 else 272
  | _ =>
    let offset : Int :=
      if d.diskSectorSize = 256 then ((sectorNum : Int) - 3) * 256 + 16 + 128
      else if d.diskSectorSize = 512 then (sectorNum : Int) * 512 + 16
      else ((sectorNum : Int) - 1) * 128 + 16
    (offset % 4294967296).toNat

variable {φ : Type} (files : FileHandler φ)

/-- `MediaTypeATR::read`. -/
def read (sectornum : Nat) (d : Disk) (s : φ) : Option ((Bool × Nat) × Disk × φ) :=
  if sectornum > d.diskNumSectors then some ((true, 0), d, s)
  else do
    let fileh ← d.diskFileh
    let sectorSize := d.sectorSize sectornum
    let (e, s) := files.seekUnless (sectornum == d.diskLastSector + 1) fileh
      (sectorToOffset d sectornum) s
    if e ≠ 0 then
      some ((true, sectorSize),
        { d.fillSectorbuff [] with diskLastSector := INVALID_SECTOR_VALUE }, s)
    else
      let (bytes, s) := files.read fileh sectorSize s
      -- the buffer has room for 512 bytes
      if bytes.length > DISK_SECTORBUF_SIZE then none
      else
        let err := bytes.length != sectorSize
        some ((err, sectorSize),
          { d.fillSectorbuff bytes with
            diskLastSector := if err then INVALID_SECTOR_VALUE else sectornum }, s)

/-- A read of a sector of the disk through a handler that is there. -/
theorem read_of_fileh {sectornum : Nat} {d : Disk} {f : Handle}
    (inside : sectornum ≤ d.diskNumSectors) (fileh : d.diskFileh = some f) (s : φ) :
    read files sectornum d s =
      (let sought := files.seekUnless (sectornum == d.diskLastSector + 1) f
        (sectorToOffset d sectornum) s
      let got := files.read f (d.sectorSize sectornum) sought.2
      if sought.1 ≠ 0 then some ((true, d.sectorSize sectornum),
        { d.fillSectorbuff [] with diskLastSector := INVALID_SECTOR_VALUE }, sought.2)
      else if got.1.length > DISK_SECTORBUF_SIZE then none
      else some ((got.1.length != d.sectorSize sectornum, d.sectorSize sectornum),
        { d.fillSectorbuff got.1 with
          diskLastSector :=
            if got.1.length != d.sectorSize sectornum then INVALID_SECTOR_VALUE else sectornum },
        got.2)) := by
  rw [read, if_neg (Nat.not_lt.mpr inside), fileh]
  rfl

/-- The handles of a write: in high score mode the image is opened once more. Returns
`oldFileh` and `hsFileh`, which both stay null when there is no host. -/
def swapHandles (host : Option (φ → Option Handle × φ)) (d : Disk) (s : φ) :
    (Option Handle × Option Handle) × Disk × φ :=
  if d.highScoreSector ≠ 0 then
    match host with
    | none => ((none, none), d, s)
    | some filehandlerOpen =>
      let (hsFileh, s) := filehandlerOpen s
      ((d.diskFileh, hsFileh), { d with diskFileh := hsFileh }, s)
  else ((none, none), d, s)

/-- `MediaTypeATR::write`. The last sector is forgotten before the seek, so the seek is
always made. -/
def write (host : Option (φ → Option Handle × φ)) (sectornum : Nat) (_verify : Bool) (d : Disk)
    (s : φ) : Option (Bool × Disk × φ) :=
  if sectornum > d.diskNumSectors then some (true, d, s)
  else do
    let ((oldFileh, hsFileh), d, s) := swapHandles host d s
    let sectorSize := d.sectorSize sectornum
    let offset := sectorToOffset d sectornum
    let d := { d with diskLastSector := INVALID_SECTOR_VALUE }
    let fileh ← d.diskFileh
    let (e, s) := files.seekUnless (sectornum == d.diskLastSector + 1) fileh offset s
    if e ≠ 0 then some (true, d, s)
    else if sectorSize > DISK_SECTORBUF_SIZE then none
    else
      let (e, s) := files.write fileh (d.diskSectorbuff.take sectorSize) s
      if e ≠ sectorSize then some (true, d, s)
      else
        let s := (files.flush fileh s).2
        if d.highScoreSector ≠ 0 then
          let s := match hsFileh with
            | some hs => (files.close hs s).2
            | none => s
          some (false, { d with diskFileh := oldFileh }, s)
        else some (false, { d with diskLastSector := sectornum }, s)

/-- A write to a sector of a disk without a high score sector. -/
theorem write_of_plain {sectornum : Nat} {d : Disk} {f : Handle}
    (inside : sectornum ≤ d.diskNumSectors) (fileh : d.diskFileh = some f)
    (plain : d.highScoreSector = 0) (host : Option (φ → Option Handle × φ)) (verify : Bool)
    (s : φ) :
    write files host sectornum verify d s =
      (let forgotten := { d with diskLastSector := INVALID_SECTOR_VALUE }
      let sought := files.seekUnless (sectornum == INVALID_SECTOR_VALUE + 1) f
        (sectorToOffset d sectornum) s
      let put := files.write f (d.diskSectorbuff.take (d.sectorSize sectornum)) sought.2
      if sought.1 ≠ 0 then some (true, forgotten, sought.2)
      else if d.sectorSize sectornum > DISK_SECTORBUF_SIZE then none
      else if put.1 ≠ d.sectorSize sectornum then some (true, forgotten, put.2)
      else some (false, { d with diskLastSector := sectornum }, (files.flush f put.2).2)) := by
  have kept : swapHandles host d s = ((none, none), d, s) := by simp [swapHandles, plain]
  rw [write, if_neg (Nat.not_lt.mpr inside), kept]
  simp only [fileh, plain, Option.bind_eq_bind, Option.bind_some, ne_eq, not_true_eq_false,
    if_false]

/-- `MediaTypeATR::format`: an empty list of bad sectors; the image is not touched. -/
def format (d : Disk) (s : φ) : Option ((Bool × Option Nat) × Disk × φ) :=
  some ((false, some d.diskSectorSize), d.fillSectorbuff [0xFF, 0xFF], s)

/-- `MediaTypeATR::status`. -/
def status (statusbuff : List UInt8) (d : Disk) : List UInt8 :=
  let flags : UInt8 :=
    (if d.diskSectorSize > 128 then DISK_DRIVE_STATUS_DOUBLE_DENSITY else 0) |||
    (if d.percomBlock.numSides = 1 then DISK_DRIVE_STATUS_DOUBLE_SIDED else 0) |||
    (if d.percomBlock.sectorsPerTrackL = 26 then DISK_DRIVE_STATUS_ENHANCED_DENSITY else 0)
  (statusbuff.set 0 flags).set 1 (~~~ d.diskControllerStatus)

/-- The geometry a header of 16 bytes asks for. -/
def setGeometry (buf : List UInt8) (d : Disk) : Option Disk :=
  let numBytesSector := u16 (buf.getD 4 0) (buf.getD 5 0)
  let numParagraphs := u16 (buf.getD 2 0) (buf.getD 3 0) + 65536 * (buf.getD 6 0).toNat
  -- the source divides by the sector size without looking at it
  if numBytesSector = 0 then none
  else
    let sectors := numParagraphs * 16 / numBytesSector
    -- the first three sectors are always 128 bytes
    let sectors := if numBytesSector = 256 then sectors + 2 else sectors
    some ({ d with diskSectorSize := numBytesSector, diskNumSectors := sectors }.derivePercomBlock
      sectors)

/-- `MediaTypeATR::mount`. -/
def mount (f : Handle) (disksize : Nat) (d : Disk) (s : φ) : Option (Disk × φ) :=
  let d := { d with diskType := .unknown }
  let (i, s) := files.seek f 0 s
  if i < 0 then some (d, s)
  else
    let (buf, s) := files.read f 16 s
    if buf.length ≠ 16 then some (d, s)
    else if u16 (buf.getD 0 0) (buf.getD 1 0) ≠ ATR_MAGIC_HEADER then some (d, s)
    else do
      let d ← setGeometry buf d
      some ({ d with
        diskFileh := some f, diskImageSize := disksize, diskLastSector := INVALID_SECTOR_VALUE,
        highScoreSector := u16 (buf.getD 13 0) (buf.getD 14 0),
        highScoreNumSectors := buf.getD 12 0 - 1, diskType := .atr }, s)

/-- Mounting a file whose first 16 bytes are a header. -/
theorem mount_of_header {f : Handle} {d : Disk} {s : φ} {buf : List UInt8}
    (sought : (files.seek f 0 s).1 = 0) (got : (files.read f 16 (files.seek f 0 s).2).1 = buf)
    (length : buf.length = 16)
    (magic : u16 (buf.getD 0 0) (buf.getD 1 0) = ATR_MAGIC_HEADER) (disksize : Nat) :
    mount files f disksize d s =
      (setGeometry buf { d with diskType := .unknown }).map fun d =>
        ({ d with
          diskFileh := some f, diskImageSize := disksize, diskLastSector := INVALID_SECTOR_VALUE,
          highScoreSector := u16 (buf.getD 13 0) (buf.getD 14 0),
          highScoreNumSectors := buf.getD 12 0 - 1, diskType := .atr },
        (files.read f 16 (files.seek f 0 s).2).2) := by
  simp only [mount, sought, got, length, magic]
  cases setGeometry buf { d with diskType := .unknown } <;> rfl

/-- The header `MediaTypeATR::create` writes. The first three sectors lack 384 bytes on
disks with 256 bytes a sector; the size is a `uint32_t`. -/
def header (sectorSize numSectors : Nat) : List UInt8 :=
  let totalSize :=
    if sectorSize = 256 then (numSectors * sectorSize + 4294967296 - 384) % 4294967296
    else numSectors * sectorSize
  let numParagraphs := totalSize / 16
  [lobyte ATR_MAGIC_HEADER, hibyte ATR_MAGIC_HEADER, lobyte numParagraphs, hibyte numParagraphs,
    lobyte sectorSize, hibyte sectorSize, UInt8.ofNat (numParagraphs / 65536)] ++
    List.replicate 9 0

/-- The loop of `MediaTypeATR::create` over the first three sectors, from the offset
where the header ended: the offset after them, or `none` when a write failed. -/
def writeBootSectors (f : Handle) : Nat → Nat → φ → Option Nat × φ
  | 0, offset, s => (some offset, s)
  | n + 1, offset, s =>
    let (out, s) := files.write f (List.replicate 128 0) s
    if out ≠ 128 then (none, s) else writeBootSectors f n (offset + 128) s

/-- `MediaTypeATR::create` for sectors of at most 512 bytes: whether it succeeded. Neither
the header's write nor the seek is checked. -/
def create (f : Handle) (sectorSize numSectors : Nat) (s : φ) : Bool × φ :=
  let (offset, s) := files.write f (header sectorSize numSectors) s
  let (boot, numSectors, s) :=
    if sectorSize < 512 then
      let (offset, s) := writeBootSectors files f 3 offset s
      (offset, (numSectors + 65536 - 3) % 65536, s)
    else (some offset, numSectors, s)
  match boot with
  | none => (false, s)
  | some offset =>
    -- a sparse seek to the last sector
    let last := ((offset : Int) + numSectors * sectorSize - sectorSize) % 4294967296
    let s := (files.seek f last s).2
    let (out, s) := files.write f (List.replicate sectorSize 0) s
    (out == sectorSize, s)

/-- The virtual functions of an ATR image. -/
def ops (host : Option (φ → Option Handle × φ)) : MediaOps φ where
  read := read files
  write := write files host
  format := format
  status := status

/-- On a mounted image without a high score sector the operations return. -/
theorem ops_returns {files} (bytes : SeekableBytes files) (host : Option (φ → Option Handle × φ))
    {d : Disk} {f : Handle} (fileh : d.diskFileh = some f) (plain : d.highScoreSector = 0)
    (fits : ∀ sectornum, d.sectorSize sectornum ≤ DISK_SECTORBUF_SIZE) (s : φ) :
    (ops files host).Returns d s where
  sectorSize_le := fits
  read sectornum _ := by
    rcases Nat.lt_or_ge d.diskNumSectors sectornum with outside | inside
    · exact ⟨_, _, _, if_pos outside⟩
    · simp only [ops, read_of_fileh files inside fileh]
      split
      · exact ⟨_, _, _, rfl⟩
      · have room := Nat.le_trans (bytes.read_le f (d.sectorSize sectornum) (files.seekUnless
          (sectornum == d.diskLastSector + 1) f (sectorToOffset d sectornum) s).2)
            (fits sectornum)
        rw [if_neg (Nat.not_lt.mpr room)]
        exact ⟨_, _, _, rfl⟩
  write sectornum _ verify sectorbuff := by
    rcases Nat.lt_or_ge d.diskNumSectors sectornum with outside | inside
    · exact ⟨_, _, _, if_pos outside⟩
    · have room : { d with diskSectorbuff := sectorbuff }.sectorSize sectornum ≤
        DISK_SECTORBUF_SIZE := fits sectornum
      simp only [ops]
      rw [write_of_plain files (d := { d with diskSectorbuff := sectorbuff }) inside fileh plain]
      simp only [if_neg (Nat.not_lt.mpr room)]
      split
      · exact ⟨_, _, _, rfl⟩
      · split <;> exact ⟨_, _, _, rfl⟩
  format := ⟨_, _, _, rfl⟩

end MediaTypeATR

end FujiNet.Atari
