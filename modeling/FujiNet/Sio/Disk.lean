import FujiNet.Media.Atari.DiskType
import FujiNet.Sio.Bus

/-!
# The disk drive

`sioDisk::sio_process` handles a command frame for a drive. Many commands have a
twin for high speed, a copy with its own checks. The format of the mounted image
is a parameter: its virtual functions.

Besides the state of the drive the model has its surroundings, which a command
only reads: two switches of the device for the computer, the data frame that the
computer sends, and two things the source does not control. A format that does
not set the size of its answer leaves an uninitialised variable, and an answer
longer than the sector buffer is taken from the memory behind it.
-/

namespace FujiNet.SIO

open FujiNet.Atari

def SIO_DEVICEID_DISK : UInt8 := 0x31

def DISK_CTRL_STATUS_CLEAR : UInt8 := 0x00
def DRIVE_DEFAULT_TIMEOUT_810 : UInt8 := 0xE0

/-- `cmdFrame_t`, less the checksum, which was tested before. -/
structure CmdFrame where
  device : UInt8
  comnd : UInt8
  aux1 : UInt8
  aux2 : UInt8
deriving DecidableEq, Repr

/-- The sector number in a command frame. -/
def CmdFrame.sectorNum (frame : CmdFrame) : Nat := u16 frame.aux1 frame.aux2

inductive DiskCommand
  | read | hsioRead | put | hsioPut | status | hsioStatus | write | hsioWrite
  | format | formatMedium | hsioFormat | hsioFormatMedium | percomRead | percomWrite | hsioIndex
deriving DecidableEq, Repr

namespace DiskCommand

def code : DiskCommand → UInt8
  | format => 0x21
  | formatMedium => 0x22
  | put => 0x50
  | read => 0x52
  | status => 0x53
  | write => 0x57
  | hsioIndex => 0x3F
  | hsioFormat => 0xA1
  | hsioFormatMedium => 0xA2
  | hsioPut => 0xD0
  | hsioRead => 0xD2
  | hsioStatus => 0xD3
  | hsioWrite => 0xD7
  | percomRead => 0x4E
  | percomWrite => 0x4F

def all : List DiskCommand :=
  [read, hsioRead, put, hsioPut, status, hsioStatus, write, hsioWrite, format, formatMedium,
    hsioFormat, hsioFormatMedium, percomRead, percomWrite, hsioIndex]

/-- The case of the switch a command code selects. -/
def ofCode (comnd : UInt8) : Option DiskCommand := all.find? fun c => c.code = comnd

theorem ofCode_code (c : DiskCommand) : ofCode c.code = some c := by
  cases c <;> rfl

theorem code_of_ofCode {comnd : UInt8} {c : DiskCommand} (h : ofCode comnd = some c) :
    c.code = comnd := by
  simpa using List.find?_some h

end DiskCommand

/-- The members of `sioDisk`, the files behind its image and the bus. The sectors the
media layer was asked for are recorded for the proofs. -/
structure Drive (φ : Type) where
  disk : Option MediaType
  deviceActive : Bool
  isConfigDevice : Bool
  statusWaitCount : UInt8
  files : φ
  bus : Bus
  accessed : List Nat

/-- What a command reads besides the drive. -/
structure Surroundings where
  bootConfig : Bool
  statusWaitEnabled : Bool
  incoming : DataFrame
  uninitialised : Nat
  beyond : Nat → UInt8

namespace Drive

variable {φ : Type} (drive : Drive φ)

def onBus (f : Bus → Bus) : Drive φ := { drive with bus := f drive.bus }

@[simp] theorem onBus_disk (f : Bus → Bus) : (drive.onBus f).disk = drive.disk := rfl
@[simp] theorem onBus_files (f : Bus → Bus) : (drive.onBus f).files = drive.files := rfl
@[simp] theorem onBus_bus (f : Bus → Bus) : (drive.onBus f).bus = f drive.bus := rfl
@[simp] theorem onBus_accessed (f : Bus → Bus) : (drive.onBus f).accessed = drive.accessed := rfl

end Drive

section

variable {φ : Type} (ops : MediaOps φ) (around : Surroundings)

/-- `len` bytes of memory from the start of the sector buffer. -/
def sectorbuffBytes (disk : MediaType) (len : Nat) : List UInt8 :=
  (List.range len).map fun i => disk.diskSectorbuff.getD i (around.beyond i)

/-- `sioDisk::sio_read`. -/
def sioRead (frame : CmdFrame) (drive : Drive φ) : Option (Drive φ) :=
  match drive.disk with
  | none => some (drive.onBus (Bus.busToComputer (List.replicate 128 0) true))
  | some disk => do
    let ((err, readcount), disk, files) ← ops.read frame.sectorNum disk drive.files
    let drive := { drive with
      disk := some disk, files := files, accessed := drive.accessed ++ [frame.sectorNum] }
    some (drive.onBus (Bus.busToComputer (sectorbuffBytes around disk readcount) err))

/-- The part of `sioDisk::sio_write` for a data frame with the right checksum, which is
in the sector buffer. -/
def storeSector (verify : Bool) (sectorNum : Nat) (disk : MediaType) (drive : Drive φ) :
    Option (Drive φ) := do
  let (err, disk, files) ← ops.write sectorNum verify disk drive.files
  let drive := { drive with
    disk := some disk, files := files, accessed := drive.accessed ++ [sectorNum] }
  some (drive.onBus (if err then Bus.sioError else Bus.sioComplete))

/-- `sioDisk::sio_write`. -/
def sioWrite (verify : Bool) (frame : CmdFrame) (drive : Drive φ) : Option (Drive φ) :=
  match drive.disk with
  | none => some (drive.onBus Bus.sioError)
  | some disk =>
    let sectorNum := frame.sectorNum
    let sectorSize := disk.sectorSize sectorNum
    if sectorSize > DISK_SECTORBUF_SIZE then none
    else
      let ((sectorbuff, ck), bus) := drive.bus.busToPeripheral around.incoming
        (List.replicate DISK_SECTORBUF_SIZE 0) sectorSize
      let disk := { disk with diskSectorbuff := sectorbuff }
      let drive := { drive with disk := some disk, bus := bus }
      if ck = sioChecksum (sectorbuff.take sectorSize) then
        storeSector ops verify sectorNum disk drive
      else some (drive.onBus Bus.sioError)

/-- `sioDisk::sio_status`. -/
def sioStatus (drive : Drive φ) : Drive φ :=
  let status := [0x00, ~~~ DISK_CTRL_STATUS_CLEAR, DRIVE_DEFAULT_TIMEOUT_810, 0x00]
  let status := match drive.disk with
    | none => status
    | some disk => ops.status status disk
  drive.onBus (Bus.busToComputer status false)

/-- `sioDisk::sio_format`. -/
def sioFormat (drive : Drive φ) : Option (Drive φ) :=
  match drive.disk with
  | none => some (drive.onBus Bus.sioError)
  | some disk => do
    let ((err, responsesize), disk, files) ← ops.format disk drive.files
    let drive := { drive with disk := some disk, files := files }
    some (drive.onBus (Bus.busToComputer
      (sectorbuffBytes around disk (responsesize.getD around.uninitialised)) err))

/-- `sioDisk::sio_read_percom_block`. -/
def sioReadPercomBlock (drive : Drive φ) : Drive φ :=
  match drive.disk with
  | none => drive.onBus Bus.sioError
  | some disk => drive.onBus (Bus.busToComputer disk.percomBlock.toBytes false)

/-- `sioDisk::sio_write_percom_block`. The block is received in place, and the checksum
is not looked at. -/
def sioWritePercomBlock (drive : Drive φ) : Drive φ :=
  match drive.disk with
  | none => drive.onBus Bus.sioError
  | some disk =>
    let ((block, _), bus) := drive.bus.busToPeripheral around.incoming disk.percomBlock.toBytes 12
    let disk := { disk with percomBlock := disk.percomBlock.store block }
    { drive with disk := some disk, bus := bus.sioComplete }

/-- The range checks that the commands for one sector make before they accept it. -/
def inRangeOrNak (frame : CmdFrame) (disk : MediaType) (drive : Drive φ)
    (accept : Drive φ → Option (Drive φ)) : Option (Drive φ) :=
  if frame.sectorNum > disk.diskNumSectors then some (drive.onBus Bus.sioNak)
  else if frame.aux1 = 0 ∧ frame.aux2 = 0 then some (drive.onBus Bus.sioNak)
  else accept drive

/-- The cases of the status commands. A drive for the configuration disk ignores the
first few of them. -/
def statusOrWait (disk : MediaType) (hsio : Bool) (drive : Drive φ) : Drive φ :=
  if drive.isConfigDevice then
    if around.bootConfig then
      if drive.statusWaitCount > 0 ∧ around.statusWaitEnabled then
        { drive with statusWaitCount := drive.statusWaitCount - 1 }
      else sioStatus ops ({ drive with deviceActive := true }.onBus Bus.sioAck)
    else drive
  else if hsio ∧ disk.allowHsio = false then drive.onBus Bus.sioNak
  else sioStatus ops (drive.onBus Bus.sioAck)

/-- The switch of `sioDisk::sio_process`, with the refusal after it. -/
def sioSwitch (frame : CmdFrame) (disk : MediaType) (drive : Drive φ) : Option (Drive φ) :=
  let nak : Option (Drive φ) := some (drive.onBus Bus.sioNak)
  match DiskCommand.ofCode frame.comnd with
  | some .read => inRangeOrNak frame disk drive fun drive =>
      sioRead ops around frame (drive.onBus Bus.sioAck)
  | some .hsioRead =>
      if disk.allowHsio then sioRead ops around frame (drive.onBus Bus.sioAck) else nak
  | some .put => inRangeOrNak frame disk drive fun drive =>
      sioWrite ops around false frame (drive.onBus Bus.sioLateAck)
  | some .hsioPut =>
      if disk.allowHsio then
        inRangeOrNak frame disk drive fun drive =>
          -- control leaves the switch here
          (sioWrite ops around false frame (drive.onBus Bus.sioLateAck)).map
            fun drive => drive.onBus Bus.sioNak
      else nak
  | some .status => some (statusOrWait ops around disk false drive)
  | some .hsioStatus => some (statusOrWait ops around disk true drive)
  | some .write => inRangeOrNak frame disk drive fun drive =>
      sioWrite ops around true frame (drive.onBus Bus.sioLateAck)
  | some .hsioWrite =>
      if disk.allowHsio then
        inRangeOrNak frame disk drive fun drive =>
          sioWrite ops around true frame (drive.onBus Bus.sioLateAck)
      else nak
  | some .format | some .formatMedium => sioFormat ops around (drive.onBus Bus.sioAck)
  | some .hsioFormat | some .hsioFormatMedium =>
      if disk.allowHsio then sioFormat ops around (drive.onBus Bus.sioAck) else nak
  | some .percomRead => some (sioReadPercomBlock (drive.onBus Bus.sioAck))
  | some .percomWrite => some (sioWritePercomBlock around (drive.onBus Bus.sioLateAck))
  | some .hsioIndex =>
      if disk.allowHsio then
        some (drive.onBus fun bus => bus.sioAck.sioHighSpeed.toggleBaudrate)
      else nak
  | none => nak

/-- A mounted drive that is neither active nor the boot disk of the configuration does
not answer, nor does one whose image was not recognised. -/
def answers (frame : CmdFrame) (disk : MediaType) (drive : Drive φ) : Bool :=
  disk.diskType != .unknown &&
    !((drive.deviceActive == false && frame.device != SIO_DEVICEID_DISK) ||
      (drive.deviceActive == false && around.bootConfig == false))

/-- `sioDisk::sio_process`. -/
def sioProcess (frame : CmdFrame) (drive : Drive φ) : Option (Drive φ) :=
  match drive.disk with
  | none => some drive
  | some disk =>
    if answers around frame disk drive then sioSwitch ops around frame disk drive else some drive

end

end FujiNet.SIO
