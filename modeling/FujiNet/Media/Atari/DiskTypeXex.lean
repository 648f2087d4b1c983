import FujiNet.Media.Atari.DiskType

/-!
# Executables as disks

`MediaTypeXEX` shows an executable file as a double density disk. Sectors 1 to 3
are a boot loader, sector 0x168 a volume table, the sectors after it a directory
with one entry, and from sector 0x171 on each sector holds 253 bytes of the file,
the number of the next sector and the number of its bytes. The sectors between the
boot loader and the volume table lie before the start of the file.

The boot loader is the firmware file that `mount` loads into an array of the
object. The copy of a boot sector is not checked against this array: sector 0 is
taken from the memory before it, and a sector behind a short boot loader makes the
size of the copy negative. The model has the memory around the array and answers
`none` for a negative size.
-/

namespace FujiNet.Atari

def BOOTLOADER_END : Nat := 0x03
def VTOC_SECTOR : Nat := 0x168
def DIRECTORY_START : Nat := 0x0169
def DIRECTORY_END : Nat := 0x0170
def FIRST_XEX_SECTOR : Nat := 0x0171
def SECTOR_SIZE : Nat := 256
def BOOT_SECTOR_SIZE : Nat := 128
def SECTOR_LINK_SIZE : Nat := 3

/-- `_xex_bootloader` with the memory around it, and `_xex_bootloadersize`. -/
structure Bootloader where
  memory : Int → UInt8
  size : Nat

namespace MediaTypeXEX

/-- The members of class `MediaType`; the boot loader is kept apart, as it does not
change after `mount`. -/
abbrev Disk := MediaType

/-- The number of sectors the file takes, in a `uint16_t`. -/
def numSectors (d : Disk) : Nat :=
  let dataPerSector := d.diskSectorSize - SECTOR_LINK_SIZE
  (d.diskImageSize / dataPerSector % 65536 +
    if d.diskImageSize % dataPerSector > 0 then 1 else 0) % 65536

/-- The inner loop of `MediaTypeXEX::_fake_vtoc`, over the bits of one byte. The counter
of sectors is decremented past zero, where it wraps. -/
def vtocByte : Nat → UInt8 → Nat → UInt8 × Nat
  | 0, b, sectors => (b, sectors)
  | j + 1, b, sectors =>
    let b := if sectors ≠ 0 then b ||| 1 else b
    vtocByte j (b <<< 1) ((sectors + 65535) % 65536)

/-- The outer loop, over the bytes of the map. -/
def vtocMap : Nat → Nat → List UInt8
  | 0, _ => []
  | i + 1, sectors =>
    let (b, sectors) := vtocByte 8 0 sectors
    b :: vtocMap i sectors

/-- `MediaTypeXEX::_fake_vtoc`. -/
def fakeVtoc (d : Disk) : Disk :=
  let sectors := numSectors d
  let freesectors := (0x2D0 + 65536 - sectors) % 65536
  d.fillSectorbuff ([0x02, 0xd0, 0x02, lobyte freesectors, lobyte (freesectors * 256),
    0, 0, 0, 0, 0] ++ vtocMap 90 sectors)

/-- `MediaTypeXEX::_fake_directory_entry`: the entry of a file "AUTORUN". -/
def fakeDirectoryEntry (d : Disk) : Disk :=
  let sectors := numSectors d
  d.fillSectorbuff [0x46, lobyte sectors, hibyte sectors, lobyte FIRST_XEX_SECTOR,
    hibyte FIRST_XEX_SECTOR, 0x41, 0x55, 0x54, 0x4F, 0x52, 0x55, 0x4E, 0x20, 0x20, 0x20, 0x20]

/-- Where a sector of the boot loader starts, and how much of it there is. -/
def bootOffset (sectornum : Nat) : Int := BOOT_SECTOR_SIZE * ((sectornum : Int) - 1)

def bootcopy (boot : Bootloader) (sectornum : Nat) : Int :=
  let remain := boot.size - bootOffset sectornum
  if BOOT_SECTOR_SIZE > remain then remain else BOOT_SECTOR_SIZE

/-- A sector of the boot loader. Its first byte is turned into the flag for double
density. -/
def bootSector (boot : Bootloader) (sectornum : Nat) (d : Disk) : Option Disk :=
  if bootcopy boot sectornum < 0 then none
  else
    let d := d.fillSectorbuff ((List.range (bootcopy boot sectornum).toNat).map
      fun i : Nat => boot.memory (bootOffset sectornum + i))
    if sectornum = 1 ∧ d.diskSectorbuff[0]? = some 0x80 then
      some { d with diskSectorbuff := d.diskSectorbuff.set 0 0x00 }
    else some d

/-- The sector buffer with data of the file and, behind it, the link to the next sector. -/
def linkedSector (sectornum : Nat) (bytes : List UInt8) (d : Disk) : Disk :=
  let size := d.diskSectorSize
  let d := d.fillSectorbuff bytes
  let buffer := d.diskSectorbuff.set (size - 1) (UInt8.ofNat bytes.length)
  let nextSector := (sectornum + 1) % 65536
  -- only a full sector has a next one
  if bytes.length = size - SECTOR_LINK_SIZE then
    { d with diskSectorbuff :=
        (buffer.set (size - 2) (lobyte nextSector)).set (size - 3) (hibyte nextSector) }
  else { d with diskSectorbuff := buffer }

variable {φ : Type} (files : FileHandler φ)

/-- The last part of `MediaTypeXEX::read`: a sector that is taken from the file. -/
def readFile (sectornum : Nat) (d : Disk) (s : φ) : Option ((Bool × Nat) × Disk × φ) := do
  let fileh ← d.diskFileh
  let dataBytes := d.diskSectorSize - SECTOR_LINK_SIZE
  let xexOffset : Int := dataBytes * ((sectornum : Int) - FIRST_XEX_SECTOR)
  let (e, s) := files.seekUnless (sectornum == d.diskLastSector + 1) fileh xexOffset s
  if e ≠ 0 then
    some ((true, d.diskSectorSize),
      { d.fillSectorbuff [] with diskLastSector := INVALID_SECTOR_VALUE }, s)
  else
    let (bytes, s) := files.read fileh dataBytes s
    some ((false, d.diskSectorSize),
      { linkedSector sectornum bytes d with diskLastSector := sectornum }, s)

/-- `MediaTypeXEX::read`. -/
def read (boot : Bootloader) (sectornum : Nat) (d : Disk) (s : φ) :
    Option ((Bool × Nat) × Disk × φ) := do
  let unknown := fun d : Disk => { d with diskLastSector := INVALID_SECTOR_VALUE }
  if sectornum ≤ BOOTLOADER_END then
    let d ← bootSector boot sectornum d
    some ((false, BOOT_SECTOR_SIZE), unknown d, s)
  else if sectornum = VTOC_SECTOR then
    some ((false, d.diskSectorSize), unknown (fakeVtoc d), s)
  else if DIRECTORY_START ≤ sectornum ∧ sectornum ≤ DIRECTORY_END then
    some ((false, d.diskSectorSize), unknown (fakeDirectoryEntry d), s)
  else readFile files sectornum d s

/-- `MediaTypeXEX::mount`; there is no boot loader when its file is missing. -/
def mount (boot : Option Bootloader) (f : Handle) (disksize : Nat) (d : Disk) : Disk :=
  match boot with
  | none => { d with diskType := .unknown }
  | some _ =>
    let dataPerSector := SECTOR_SIZE - SECTOR_LINK_SIZE
    let sectors := FIRST_XEX_SECTOR + disksize / dataPerSector +
      if disksize % dataPerSector > 0 then 1 else 0
    { d with
      diskSectorSize := SECTOR_SIZE, diskFileh := some f, diskImageSize := disksize,
      diskLastSector := INVALID_SECTOR_VALUE, diskType := .xex,
      diskNumSectors := if sectors < 720 then 720 else sectors }

/-- `MediaTypeXEX::status`. -/
def status (statusbuff : List UInt8) (_d : Disk) : List UInt8 :=
  statusbuff.set 0 (statusbuff.getD 0 0 ||| DISK_DRIVE_STATUS_DOUBLE_DENSITY)

/-- The virtual functions of an executable. Writing and formatting are not implemented:
the base class reports an error, and does not set the size of its answer. -/
def ops (boot : Bootloader) : MediaOps φ where
  read := read files boot
  write _ _ d s := some (true, d, s)
  format d s := some ((true, none), d, s)
  status := status

end MediaTypeXEX

end FujiNet.Atari
