import Mathlib.Logic.Function.Basic
import FujiNet.Data.Text

/-!
# The configuration

The members of `fnConfig` with their defaults, for the Atari build. A string is
the list of its characters. The enumerations come with the tables of names under
which they stand in the configuration file; `INVALID` is the enumerator behind
the last name and has none.
-/

namespace FujiNet

abbrev Str := List Char

namespace FnConfig

abbrev MAX_HOST_SLOTS : Nat := 8
abbrev MAX_MOUNT_SLOTS : Nat := 8
abbrev MAX_PRINTER_SLOTS : Nat := 4
abbrev MAX_TAPE_SLOTS : Nat := 1
abbrev MAX_PB_SLOTS : Nat := 16
abbrev MAX_WIFI_STORED : Nat := 8

theorem neZero_slots : @NeZero Nat Zero.ofOfNat0 8 := ⟨by decide⟩

def HOST_SLOT_INVALID : Int := -1
def CONFIG_DEFAULT_NETSIO_PORT : Int := 9997
def CONFIG_DEFAULT_BOIP_PORT : Int := 1985
def PHONEBOOK_CHAR_WIDTH : Nat := 12

/-! ## Enumerations -/

inductive HostType
  | sd | tnfs | invalid
deriving DecidableEq, Repr

inductive MountMode
  | read | write | invalid
deriving DecidableEq, Repr

/-- `mount_types`: which of the two arrays of slots is meant. -/
inductive MountType
  | disk | tape
deriving DecidableEq, Repr

inductive SerialCommand
  | none | dsr | cts | ri | invalid
deriving DecidableEq, Repr

inductive SerialProceed
  | none | dtr | rts | invalid
deriving DecidableEq, Repr

/-- `sioPrinter::printer_type`. -/
inductive PrinterType
  | fileRaw | fileTrim | fileAscii | atari820 | atari822 | atari825 | atari1020 | atari1025
  | atari1027 | atari1029 | atariXmm801 | atariXdm121 | epson | epsonPrintshop | okimate10
  | png | html | htmlAtascii | invalid
deriving DecidableEq, Repr

def hostTypes : List HostType := [.sd, .tnfs, .invalid]
def mountModes : List MountMode := [.read, .write, .invalid]
def serialCommands : List SerialCommand := [.none, .dsr, .cts, .ri, .invalid]
def serialProceeds : List SerialProceed := [.none, .dtr, .rts, .invalid]
def printerTypes : List PrinterType :=
  [.fileRaw, .fileTrim, .fileAscii, .atari820, .atari822, .atari825, .atari1020, .atari1025,
    .atari1027, .atari1029, .atariXmm801, .atariXdm121, .epson, .epsonPrintshop, .okimate10,
    .png, .html, .htmlAtascii, .invalid]

def hostTypeNames : List Str := ["SD".toList, "TNFS".toList]
def mountModeNames : List Str := ["r".toList, "w".toList]
def serialCommandPinNames : List Str :=
  ["none".toList, "DSR".toList, "CTS".toList, "RI".toList]
def serialProceedPinNames : List Str := ["none".toList, "DTR".toList, "RTS".toList]

/-- The name at the position of an enumerator, if the table reaches that far. -/
def nameOf {α : Type} [DecidableEq α] (enumerators : List α) (names : List Str) (x : α) :
    Option Str :=
  names[enumerators.idxOf x]?

/-- The loops that look a string up in a table of names and cast the index to the
enumeration. -/
def fromString {α : Type} (enumerators : List α) (names : List Str) (invalid : α) (str : Str) : α :=
  enumerators.getD (Text.nameIndex names str) invalid

def hostTypeFromString : Str → HostType := fromString hostTypes hostTypeNames .invalid
def mountModeFromString : Str → MountMode := fromString mountModes mountModeNames .invalid
def serialCommandFromString : Str → SerialCommand :=
  fromString serialCommands serialCommandPinNames .invalid
def serialProceedFromString : Str → SerialProceed :=
  fromString serialProceeds serialProceedPinNames .invalid

/-- The number of a printer type. -/
def PrinterType.code (t : PrinterType) : Int := printerTypes.idxOf t

/-- The cast of a number to a printer type, where it is one. -/
def PrinterType.ofCode (n : Int) : PrinterType := printerTypes.getD n.toNat .invalid

/-! ## Members -/

@[ext] structure HostInfo where
  type : HostType := .invalid
  name : Str := []
deriving DecidableEq, Repr

@[ext] structure MountInfo where
  hostSlot : Int := HOST_SLOT_INVALID
  mode : MountMode := .invalid
  path : Str := []
deriving DecidableEq, Repr

@[ext] structure PrinterInfo where
  type : PrinterType := .invalid
  port : Int := 0
deriving DecidableEq, Repr

@[ext] structure WifiInfo where
  ssid : Str := []
  passphrase : Str := []
  enabled : Bool := true
deriving DecidableEq, Repr

@[ext] structure BtInfo where
  btStatus : Bool := false
  btBaud : Int := 19200
  btDevname : Str := "SIO2BTFujiNet".toList
deriving DecidableEq, Repr

/-- The host and the port of the UDP stream have no initial value in the source
and are in no file. -/
@[ext] structure NetworkInfo where
  sntpserver : Str := "pool.ntp.org".toList
  udpstreamHost : Str := []
  udpstreamPort : Int := 0
deriving DecidableEq, Repr

@[ext] structure GeneralInfo where
  devicename : Str := "FujiNet".toList
  hsioIndex : Int := 6
  timezone : Str := []
  rotationSounds : Bool := true
  configEnabled : Bool := true
  bootMode : Int := 0
  fnconfigSpifs : Bool := true
  statusWaitEnabled : Bool := true
  encryptPassphrase : Bool := false
  printerEnabled : Bool := true
  interfaceUrl : Str := "http://0.0.0.0:8000".toList
  configFilePath : Str := "fnconfig.ini".toList
  sdDirPath : Str := "SD".toList
deriving DecidableEq, Repr

@[ext] structure SerialInfo where
  port : Str := []
  command : SerialCommand := .dsr
  proceed : SerialProceed := .dtr
deriving DecidableEq, Repr

@[ext] structure NetsioInfo where
  netsioEnabled : Bool := false
  host : Str := []
  port : Int := CONFIG_DEFAULT_NETSIO_PORT
deriving DecidableEq, Repr

@[ext] structure BoipInfo where
  boipEnabled : Bool := false
  host : Str := []
  port : Int := CONFIG_DEFAULT_BOIP_PORT
deriving DecidableEq, Repr

@[ext] structure ModemInfo where
  modemEnabled : Bool := true
  snifferEnabled : Bool := false
deriving DecidableEq, Repr

@[ext] structure CassetteInfo where
  cassetteEnabled : Bool := true
  pulldown : Bool := true
  button : Bool := false
deriving DecidableEq, Repr

@[ext] structure CpmInfo where
  cpmEnabled : Bool := true
  ccp : Str := []
deriving DecidableEq, Repr

/-- `device i` is `device_{i+1}_enabled`. -/
@[ext] structure DeviceEnableInfo where
  device : Fin 8 → Bool := fun _ => true
  apetime : Bool := true

@[ext] structure PhbookInfo where
  phnumber : Str := []
  hostname : Str := []
  port : Str := []
deriving DecidableEq, Repr

end FnConfig

open FnConfig in
/-- A configuration in memory; the defaults are those of the constructor, which
turns the stored WiFi entries off. -/
@[ext] structure FnConfig where
  dirty : Bool := false
  hostSlots : Fin MAX_HOST_SLOTS → HostInfo := fun _ => {}
  mountSlots : Fin MAX_MOUNT_SLOTS → MountInfo := fun _ => {}
  printerSlots : Fin MAX_PRINTER_SLOTS → PrinterInfo := fun _ => {}
  tapeSlots : Fin MAX_TAPE_SLOTS → MountInfo := fun _ => {}
  wifiStored : Fin MAX_WIFI_STORED → WifiInfo := fun _ => { enabled := false }
  wifi : WifiInfo := {}
  bt : BtInfo := {}
  network : NetworkInfo := {}
  general : GeneralInfo := {}
  modem : ModemInfo := {}
  cassette : CassetteInfo := {}
  serial : SerialInfo := {}
  netsio : NetsioInfo := {}
  boip : BoipInfo := {}
  cpm : CpmInfo := {}
  denable : DeviceEnableInfo := {}
  phonebookSlots : Fin MAX_PB_SLOTS → PhbookInfo := fun _ => {}

namespace FnConfig

/-- A new `fnConfig`. -/
def fresh : FnConfig := {}

/-! ## Names and enumerators -/

theorem nameOf_hostType_isSome {t : HostType} :
    (nameOf hostTypes hostTypeNames t).isSome = true ↔ t ≠ .invalid := by
  cases t <;> decide

theorem nameOf_mountMode_isSome {m : MountMode} :
    (nameOf mountModes mountModeNames m).isSome = true ↔ m ≠ .invalid := by
  cases m <;> decide

theorem nameOf_serialCommand_isSome {p : SerialCommand} :
    (nameOf serialCommands serialCommandPinNames p).isSome = true ↔ p ≠ .invalid := by
  cases p <;> decide

theorem nameOf_serialProceed_isSome {p : SerialProceed} :
    (nameOf serialProceeds serialProceedPinNames p).isSome = true ↔ p ≠ .invalid := by
  cases p <;> decide

/-- A type or mode that has a name is found under it, and the name stands as it is
in a file. -/
theorem fromString_nameOf_hostType {t : HostType} {name : Str}
    (named : nameOf hostTypes hostTypeNames t = some name) :
    hostTypeFromString (Text.trim name) = t := by
  cases t <;> cases named <;> decide

theorem fromString_nameOf_mountMode {m : MountMode} {name : Str}
    (named : nameOf mountModes mountModeNames m = some name) :
    mountModeFromString (Text.trim name) = m := by
  cases m <;> cases named <;> decide

theorem fromString_nameOf_serialCommand {p : SerialCommand} {name : Str}
    (named : nameOf serialCommands serialCommandPinNames p = some name) :
    serialCommandFromString (Text.trim name) = p := by
  cases p <;> cases named <;> decide

theorem fromString_nameOf_serialProceed {p : SerialProceed} {name : Str}
    (named : nameOf serialProceeds serialProceedPinNames p = some name) :
    serialProceedFromString (Text.trim name) = p := by
  cases p <;> cases named <;> decide

theorem PrinterType.ofCode_code (t : PrinterType) : ofCode t.code = t := by
  cases t <;> decide

end FnConfig

end FujiNet
