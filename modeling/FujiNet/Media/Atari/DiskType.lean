import FujiNet.FileSystem.FileHandler

/-!
# Disk images of the Atari

`MediaType` is the base class of the image formats: the members they share, the
size of a sector and the PERCOM block, which describes the drive to the computer.
The virtual functions are a record of their own, `MediaOps`; each format fills it
in. They act on the members and on the world of open files, and answer `none`
where the source follows a null pointer or leaves its sector buffer.
-/

namespace FujiNet.Atari

def INVALID_SECTOR_VALUE : Nat := 65536

def DISK_SECTORBUF_SIZE : Nat := 512

def DISK_DRIVE_STATUS_DOUBLE_DENSITY : UInt8 := 0x20
def DISK_DRIVE_STATUS_DOUBLE_SIDED : UInt8 := 0x40
def DISK_DRIVE_STATUS_ENHANCED_DENSITY : UInt8 := 0x80

inductive DiskType
  | unknown | atr | atx | xex | cas | wav
deriving DecidableEq, Repr

/-- The twelve bytes that describe a drive, in the order in which they are sent. -/
structure PercomBlock where
  numTracks : UInt8
  stepRate : UInt8
  sectorsPerTrackH : UInt8
  sectorsPerTrackL : UInt8
  numSides : UInt8
  density : UInt8
  sectorSizeH : UInt8
  sectorSizeL : UInt8
  drivePresent : UInt8
  reserved1 : UInt8
  reserved2 : UInt8
  reserved3 : UInt8
deriving DecidableEq, Repr, Inhabited

namespace PercomBlock

def toBytes (p : PercomBlock) : List UInt8 :=
  [p.numTracks, p.stepRate, p.sectorsPerTrackH, p.sectorsPerTrackL, p.numSides, p.density,
    p.sectorSizeH, p.sectorSizeL, p.drivePresent, p.reserved1, p.reserved2, p.reserved3]

/-- The block after `bytes` were stored over its first bytes. -/
def store (p : PercomBlock) (bytes : List UInt8) : PercomBlock where
  numTracks := bytes.getD 0 p.numTracks
  stepRate := bytes.getD 1 p.stepRate
  sectorsPerTrackH := bytes.getD 2 p.sectorsPerTrackH
  sectorsPerTrackL := bytes.getD 3 p.sectorsPerTrackL
  numSides := bytes.getD 4 p.numSides
  density := bytes.getD 5 p.density
  sectorSizeH := bytes.getD 6 p.sectorSizeH
  sectorSizeL := bytes.getD 7 p.sectorSizeL
  drivePresent := bytes.getD 8 p.drivePresent
  reserved1 := bytes.getD 9 p.reserved1
  reserved2 := bytes.getD 10 p.reserved2
  reserved3 := bytes.getD 11 p.reserved3

end PercomBlock

/-- The members of class `MediaType`. -/
structure MediaType where
  diskFileh : Option Handle := none
  diskImageSize : Nat := 0
  diskSectorSize : Nat := 128
  diskLastSector : Nat := INVALID_SECTOR_VALUE
  diskControllerStatus : UInt8 := 0
  highScoreSector : Nat := 0
  highScoreNumSectors : UInt8 := 0
  percomBlock : PercomBlock := default
  diskSectorbuff : List UInt8 := List.replicate DISK_SECTORBUF_SIZE 0
  diskNumSectors : Nat := 0
  diskType : DiskType := .unknown
  allowHsio : Bool := true

namespace MediaType

/-- `MediaType::sector_size`: the first three sectors have 128 bytes, except on disks
with 512 bytes a sector. -/
def sectorSize (d : MediaType) (sectornum : Nat) : Nat :=
  if d.diskSectorSize = 512 then 512
  else if sectornum ≤ 3 then 128 else d.diskSectorSize

/-- The block `MediaType::derive_percom_block` fills in for a number of sectors. -/
def derivedBlock (numSectors sectorSize : Nat) : PercomBlock :=
  let block : PercomBlock :=
    { numTracks := 40, stepRate := 1, sectorsPerTrackH := 0, sectorsPerTrackL := 18,
      numSides := 0, density := 0, sectorSizeH := hibyte sectorSize,
      sectorSizeL := lobyte sectorSize, drivePresent := 255,
      reserved1 := 0, reserved2 := 0, reserved3 := 0 }
  -- 5.25" 1050 density
  if numSectors = 1040 then { block with sectorsPerTrackL := 26, density := 4 }
  -- 5.25" SS/DD
  else if numSectors = 720 ∧ sectorSize = 256 then { block with density := 4 }
  -- 5.25" DS/DD
  else if numSectors = 1440 then { block with numSides := 1, density := 4 }
  -- 5.25" DS/QD
  else if numSectors = 2880 then { block with numSides := 1, numTracks := 80, density := 4 }
  -- SS/SD 8"
  else if numSectors = 2002 ∧ sectorSize = 128 then { block with numTracks := 77 }
  -- SS/DD 8"
  else if numSectors = 2002 ∧ sectorSize = 256 then { block with numTracks := 77, density := 4 }
  -- DS/SD 8"
  else if numSectors = 4004 ∧ sectorSize = 128 then { block with numTracks := 77 }
  -- DS/DD 8"
  else if numSectors = 4004 ∧ sectorSize = 256 then
    { block with numSides := 1, numTracks := 77, density := 4 }
  -- 1.44MB 3.5" High Density
  else if numSectors = 5760 then
    { block with numSides := 1, numTracks := 80, sectorsPerTrackL := 36, density := 8 }
  -- a custom size, one long track
  else { block with
    numTracks := 1, sectorsPerTrackH := hibyte numSectors, sectorsPerTrackL := lobyte numSectors }

/-- `MediaType::derive_percom_block`; its argument is a `uint16_t`. -/
def derivePercomBlock (numSectors : Nat) (d : MediaType) : MediaType :=
  { d with percomBlock := derivedBlock (numSectors % 65536) d.diskSectorSize }

/-- The sector buffer cleared and then filled from its start. -/
def fillSectorbuff (bytes : List UInt8) (d : MediaType) : MediaType :=
  { d with diskSectorbuff := bytes ++ List.replicate (DISK_SECTORBUF_SIZE - bytes.length) 0 }

theorem take_fillSectorbuff (bytes : List UInt8) (d : MediaType) :
    (d.fillSectorbuff bytes).diskSectorbuff.take bytes.length = bytes := by
  simp [fillSectorbuff]

end MediaType

/-- The virtual functions of `MediaType`. `read` and `format` report whether they
failed and the size of the data in the sector buffer; `format` may leave the size as
it was. -/
structure MediaOps (φ : Type) where
  read : Nat → MediaType → φ → Option ((Bool × Nat) × MediaType × φ)
  write : Nat → Bool → MediaType → φ → Option (Bool × MediaType × φ)
  format : MediaType → φ → Option ((Bool × Option Nat) × MediaType × φ)
  status : List UInt8 → MediaType → List UInt8

/-- The media operations return, and a sector fits into the sector buffer. -/
structure MediaOps.Returns {φ : Type} (ops : MediaOps φ) (d : MediaType) (s : φ) : Prop where
  sectorSize_le : ∀ sectornum, d.sectorSize sectornum ≤ DISK_SECTORBUF_SIZE
  read : ∀ sectornum < 65536, ∃ r d' s', ops.read sectornum d s = some (r, d', s')
  write : ∀ sectornum < 65536, ∀ verify sectorbuff, ∃ err d' s',
    ops.write sectornum verify { d with diskSectorbuff := sectorbuff } s = some (err, d', s')
  format : ∃ r d' s', ops.format d s = some (r, d', s')

end FujiNet.Atari
