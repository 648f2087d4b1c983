import FujiNet.Config.FnConfig
import FujiNet.Data.Lines

/-!
# Reading the configuration

`fnConfig::load` reads the file into a buffer of 2048 bytes and goes over it line by
line. A line with a known title in brackets starts a section; its reader takes the
lines up to the next one that starts with a bracket, which is then read again.

`none` stands for an exception that leaves `load`: `stoi` throws where the baud rate
is not a number. The loops carry a number of passes that is at least the length of
the text, so that it never ends them.
-/

namespace FujiNet.FnConfig

open Text

def CONFIG_FILEBUFFSIZE : Nat := 2048

/-! ## Lines -/

/-- The loop of `_read_line` from a place inside a line that began at `start`: the line,
or `none` for the result -1, and the rest of the stream. At the end of the data the
stream reports it only after `c` was used once more, and the line is given up. -/
def readLineFrom (abortIfStartsWith : Option Char) (start : Str) (haveReadNonWhitespace : Bool)
    (line : Str) : Str → Option Str × Str
  | [] => (none, [])
  | c :: rest =>
    if c = '\r' then (some line, if rest.head? = some '\n' then rest.tail else rest)
    else if c = '\n' then (some line, rest)
    else if haveReadNonWhitespace = false ∧ abortIfStartsWith = some c then (none, start)
    else
      readLineFrom abortIfStartsWith start
        (if haveReadNonWhitespace then true else c ≠ ' ' && c ≠ '\t') (line ++ [c]) rest

/-- `_read_line`. -/
def readLine (abortIfStartsWith : Option Char) (ss : Str) : Option Str × Str :=
  readLineFrom abortIfStartsWith ss false [] ss

/-- `_split_name_value`. Without `=` the position is `npos`, and both are the line. -/
def splitNameValue (line : Str) : Option (Str × Str) :=
  match line.findIdx? (· = '=') with
  | some eq => if eq > 1 then some (trim (line.take eq), trim (line.drop (eq + 1))) else none
  | none => some (trim line, trim line)

/-- `util_string_value_is_true`. -/
def valueIsTrue (value : Str) : Bool :=
  match value.head? with
  | some c => c = '1' || c = 'T' || c = 't' || c = 'Y' || c = 'y'
  | none => false

/-! ## Sections -/

/-- `section_match` with the index of the slot; an unknown section is `none`. -/
inductive Section
  | general | wifi | wifiStored (i : Fin MAX_WIFI_STORED) | bt | host (i : Fin MAX_HOST_SLOTS)
  | mount (i : Fin MAX_MOUNT_SLOTS) | printer (i : Fin MAX_PRINTER_SLOTS) | network
  | tape (i : Fin MAX_TAPE_SLOTS) | modem | cassette | phonebook (i : Fin MAX_PB_SLOTS) | cpm
  | deviceEnable | serial | netsio | boip
deriving DecidableEq, Repr

/-- The check of an index that was read from a title. -/
def indexed {n : Nat} (kind : Fin n → Section) (index : Int) : Option Section :=
  if h : 0 ≤ index ∧ index.toNat < n then some (kind ⟨index.toNat, h.2⟩) else none

/-- What stands between the first opening and the last closing bracket. With the
brackets the other way round the length wraps, and it is all that follows. -/
def bracketed (line : Str) : Option Str := do
  let b1 ← line.findIdx? (· = '[')
  let fromEnd ← line.reverse.findIdx? (· = ']')
  let b2 := line.length - 1 - fromEnd
  some (if b1 + 1 ≤ b2 then (line.drop (b1 + 1)).take (b2 - (b1 + 1)) else line.drop (b1 + 1))

/-- `_find_section_in_line`. The index of a printer is read from one character too far
in front, where the title still has its `r`. -/
def findSectionInLine (line : Str) : Option Section := do
  let s1 ← bracketed line
  if strncasecmp "Host".toList s1 4 then indexed .host (atoi (s1.drop 4) - 1)
  else if strncasecmp "Mount".toList s1 5 then indexed .mount (atoi (s1.drop 5) - 1)
  else if strncasecmp "Printer".toList s1 7 then indexed .printer (atoi (s1.drop (7 - 1)))
  else if strncasecmp "WiFiStored".toList s1 10 then indexed .wifiStored (atoi (s1.drop 10) - 1)
  else if strncasecmp "WiFi".toList s1 4 then some .wifi
  else if strncasecmp "Bluetooth".toList s1 9 then some .bt
  else if strncasecmp "General".toList s1 7 then some .general
  else if strncasecmp "Network".toList s1 7 then some .network
  else if strncasecmp "Tape".toList s1 4 then indexed .tape (atoi (s1.drop 4) - 1)
  else if strncasecmp "Cassette".toList s1 8 then some .cassette
  else if strncasecmp "Phonebook".toList s1 9 then indexed .phonebook (atoi (s1.drop 9) - 1)
  else if strncasecmp "Modem".toList s1 8 then some .modem
  else if strncasecmp "CPM".toList s1 8 then some .cpm
  else if strncasecmp "ENABLE".toList s1 8 then some .deviceEnable
  else if strncasecmp "Serial".toList s1 6 then some .serial
  else if strncasecmp "NetSIO".toList s1 6 then some .netsio
  else if strncasecmp "BOIP".toList s1 4 then some .boip
  else none

/-! ## What the section readers do with a name and a value -/

/-- High speed indices are -1 for none, 0 to 10 and 16; others are not taken. -/
def hsioIndexOf (value : Str) (old : Int) : Int :=
  if atoi value ≥ -1 ∧ atoi value ≤ 10 ∨ atoi value = 16 then atoi value else old

def generalField (name value : Str) (g : GeneralInfo) : GeneralInfo :=
  if strcasecmp name "devicename".toList then { g with devicename := value }
  else if strcasecmp name "hsioindex".toList then
    { g with hsioIndex := hsioIndexOf value g.hsioIndex }
  else if strcasecmp name "timezone".toList then { g with timezone := value }
  else if strcasecmp name "rotationsounds".toList then
    { g with rotationSounds := valueIsTrue value }
  else if strcasecmp name "configenabled".toList then { g with configEnabled := valueIsTrue value }
  else if strcasecmp name "boot_mode".toList then { g with bootMode := atoi value }
  else if strcasecmp name "fnconfig_on_spifs".toList then
    { g with fnconfigSpifs := valueIsTrue value }
  else if strcasecmp name "status_wait_enabled".toList then
    { g with statusWaitEnabled := valueIsTrue value }
  else if strcasecmp name "printer_enabled".toList then
    { g with printerEnabled := valueIsTrue value }
  else if strcasecmp name "encrypt_passphrase".toList then
    { g with encryptPassphrase := valueIsTrue value }
  else g

def serialField (name value : Str) (s : SerialInfo) : SerialInfo :=
  if strcasecmp name "port".toList then { s with port := value }
  else if strcasecmp name "command".toList then { s with command := serialCommandFromString value }
  else if strcasecmp name "proceed".toList then { s with proceed := serialProceedFromString value }
  else s

def wifiField (name value : Str) (w : WifiInfo) : WifiInfo :=
  if strcasecmp name "SSID".toList then { w with ssid := value }
  else if strcasecmp name "passphrase".toList then { w with passphrase := value }
  else if strcasecmp name "enabled".toList then { w with enabled := strcasecmp value "1".toList }
  else w

def wifiStoredField (name value : Str) (w : WifiInfo) : WifiInfo :=
  if strcasecmp name "SSID".toList then { w with ssid := value }
  else if strcasecmp name "passphrase".toList then { w with passphrase := value }
  else w

def btField (name value : Str) (b : BtInfo) : Option BtInfo :=
  if strcasecmp name "enabled".toList then some { b with btStatus := strcasecmp value "1".toList }
  else if strcasecmp name "baud".toList then (stoi value).map fun baud => { b with btBaud := baud }
  else if strcasecmp name "devicename".toList then some { b with btDevname := value }
  else some b

/-- `strlcpy` into the 40 bytes of `sntpserver`. -/
def networkField (name value : Str) (n : NetworkInfo) : NetworkInfo :=
  if strcasecmp name "sntpserver".toList then { n with sntpserver := value.take 39 } else n

def hostField (name value : Str) (h : HostInfo) : HostInfo :=
  if strcasecmp name "name".toList then { h with name := value }
  else if strcasecmp name "type".toList then { h with type := hostTypeFromString value }
  else h

/-- A host slot is written counted from one. -/
def hostSlotOf (value : Str) : Int :=
  if atoi value - 1 < 0 ∨ atoi value - 1 ≥ MAX_HOST_SLOTS then HOST_SLOT_INVALID
  else atoi value - 1

/-- The same lines stand in the reader of a disk slot and in that of a tape slot. -/
def mountField (name value : Str) (m : MountInfo) : MountInfo :=
  if strcasecmp name "hostslot".toList then
    { m with hostSlot := hostSlotOf value }
  else if strcasecmp name "mode".toList then { m with mode := mountModeFromString value }
  else if strcasecmp name "path".toList then { m with path := value }
  else m

def printerTypeOf (value : Str) : PrinterType :=
  if atoi value < 0 ∨ atoi value ≥ PrinterType.invalid.code then .invalid else .ofCode (atoi value)

/-- The port of a printer is written counted from one. -/
def printerPortOf (value : Str) : Int :=
  if atoi value - 1 < 0 ∨ atoi value - 1 > 3 then 0 else atoi value - 1

def printerField (name value : Str) (p : PrinterInfo) : PrinterInfo :=
  if strcasecmp name "type".toList then { p with type := printerTypeOf value }
  else if strcasecmp name "port".toList then { p with port := printerPortOf value }
  else p

def modemField (name value : Str) (m : ModemInfo) : ModemInfo :=
  if strcasecmp name "modem_enabled".toList then { m with modemEnabled := valueIsTrue value }
  else if strcasecmp name "sniffer_enabled".toList then
    { m with snifferEnabled := valueIsTrue value }
  else m

def phonebookField (name value : Str) (p : PhbookInfo) : PhbookInfo :=
  if strcasecmp name "number".toList then { p with phnumber := value }
  else if strcasecmp name "host".toList then { p with hostname := value }
  else if strcasecmp name "port".toList then { p with port := value }
  else p

def cassetteField (name value : Str) (c : CassetteInfo) : CassetteInfo :=
  if strcasecmp name "play_record".toList then { c with button := valueIsTrue value }
  else if strcasecmp name "pulldown".toList then { c with pulldown := valueIsTrue value }
  else if strcasecmp name "cassette_enabled".toList then
    { c with cassetteEnabled := valueIsTrue value }
  else c

def cpmField (name value : Str) (c : CpmInfo) : CpmInfo :=
  if strcasecmp name "ccp".toList then { c with ccp := value }
  else if strcasecmp name "cpm_enabled".toList then { c with cpmEnabled := valueIsTrue value }
  else c

/-- Here a flag is any number other than zero. -/
def deviceEnableField (name value : Str) (d : DeviceEnableInfo) : DeviceEnableInfo :=
  let enable (i : Fin 8) : DeviceEnableInfo :=
    { d with device := Function.update d.device i (atoi value ≠ 0) }
  if strcasecmp name "enable_device_slot_1".toList then enable 0
  else if strcasecmp name "enable_device_slot_2".toList then enable 1
  else if strcasecmp name "enable_device_slot_3".toList then enable 2
  else if strcasecmp name "enable_device_slot_4".toList then enable 3
  else if strcasecmp name "enable_device_slot_5".toList then enable 4
  else if strcasecmp name "enable_device_slot_6".toList then enable 5
  else if strcasecmp name "enable_device_slot_7".toList then enable 6
  else if strcasecmp name "enable_device_slot_8".toList then enable 7
  else if strcasecmp name "enable_apetime".toList then { d with apetime := atoi value ≠ 0 }
  else d

/-- A port outside of 1 to 65535 is the default of NetSIO, here and for BOIP. -/
def portOf (value : Str) : Int :=
  if atoi value ≤ 0 ∨ atoi value > 65535 then CONFIG_DEFAULT_NETSIO_PORT else atoi value

def netsioField (name value : Str) (n : NetsioInfo) : NetsioInfo :=
  if strcasecmp name "enabled".toList then { n with netsioEnabled := valueIsTrue value }
  else if strcasecmp name "host".toList then { n with host := value }
  else if strcasecmp name "port".toList then { n with port := portOf value }
  else n

def boipField (name value : Str) (b : BoipInfo) : BoipInfo :=
  if strcasecmp name "enabled".toList then { b with boipEnabled := valueIsTrue value }
  else if strcasecmp name "host".toList then { b with host := value }
  else if strcasecmp name "port".toList then { b with port := portOf value }
  else b

/-! ## The section readers -/

theorem tapeSlots_le_mountSlots : MAX_TAPE_SLOTS ≤ MAX_MOUNT_SLOTS := by decide

/-- A change of one slot. -/
def modifySlot {n : Nat} {α : Type} (slots : Fin n → α) (i : Fin n) (f : α → α) : Fin n → α :=
  Function.update slots i (f (slots i))

namespace Section

/-- What a reader throws out before it reads. A printer keeps its port, and the reader of
a tape slot clears the tape slot. -/
def reset : Section → FnConfig → FnConfig
  | wifi, c => { c with wifi := { c.wifi with ssid := [], passphrase := [] } }
  | wifiStored i, c =>
    { c with wifiStored := modifySlot c.wifiStored i fun _ => { enabled := false } }
  | host i, c => { c with hostSlots := modifySlot c.hostSlots i fun _ => {} }
  | mount i, c => { c with mountSlots := modifySlot c.mountSlots i fun _ => {} }
  | printer i, c =>
    { c with printerSlots := modifySlot c.printerSlots i fun p => { p with type := .invalid } }
  | tape i, c => { c with tapeSlots := modifySlot c.tapeSlots i fun _ => {} }
  | phonebook i, c => { c with phonebookSlots := modifySlot c.phonebookSlots i fun _ => {} }
  | _, c => c

/-- What a reader does with a name and a value. That of a tape slot stores them in the disk
slot of the same number. -/
def field (name value : Str) : Section → FnConfig → Option FnConfig
  | general, c => some { c with general := generalField name value c.general }
  | wifi, c => some { c with wifi := wifiField name value c.wifi }
  | wifiStored i, c =>
    some { c with wifiStored := modifySlot c.wifiStored i (wifiStoredField name value) }
  | bt, c => (btField name value c.bt).map fun b => { c with bt := b }
  | host i, c => some { c with hostSlots := modifySlot c.hostSlots i (hostField name value) }
  | mount i, c => some { c with mountSlots := modifySlot c.mountSlots i (mountField name value) }
  | printer i, c =>
    some { c with printerSlots := modifySlot c.printerSlots i (printerField name value) }
  | network, c => some { c with network := networkField name value c.network }
  | tape i, c =>
    some { c with
      mountSlots := modifySlot c.mountSlots (i.castLE tapeSlots_le_mountSlots) (mountField name value) }
  | modem, c => some { c with modem := modemField name value c.modem }
  | cassette, c => some { c with cassette := cassetteField name value c.cassette }
  | phonebook i, c =>
    some { c with phonebookSlots := modifySlot c.phonebookSlots i (phonebookField name value) }
  | cpm, c => some { c with cpm := cpmField name value c.cpm }
  | deviceEnable, c => some { c with denable := deviceEnableField name value c.denable }
  | serial, c => some { c with serial := serialField name value c.serial }
  | netsio, c => some { c with netsio := netsioField name value c.netsio }
  | boip, c => some { c with boip := boipField name value c.boip }

/-- What happens at any line, before it is split: a stored WiFi entry with a line in it is
enabled. -/
def atLine : Section → FnConfig → FnConfig
  | wifiStored i, c =>
    { c with wifiStored := modifySlot c.wifiStored i fun w => { w with enabled := true } }
  | _, c => c

/-- The body of a reader's loop. -/
def onLine (sec : Section) (c : FnConfig) (line : Str) : Option FnConfig :=
  match splitNameValue line with
  | some (name, value) => sec.field name value (sec.atLine c)
  | none => some (sec.atLine c)

/-- The loop of a reader: the configuration and the rest of the stream. -/
def readLines (sec : Section) : Nat → FnConfig → Str → Option (FnConfig × Str)
  | 0, _, _ => none
  | passes + 1, c, ss =>
    match readLine (some '[') ss with
    | (none, ss) => some (c, ss)
    | (some line, ss) => (sec.onLine c line).bind fun c => sec.readLines passes c ss

/-- `_read_section_…`. -/
def read (sec : Section) (c : FnConfig) (ss : Str) : Option (FnConfig × Str) :=
  sec.readLines (ss.length + 1) (sec.reset c) ss

end Section

/-! ## The file -/

/-- The loop of `load`. -/
def loadLines : Nat → FnConfig → Str → Option FnConfig
  | 0, _, _ => none
  | passes + 1, c, ss =>
    match readLine none ss with
    | (none, _) => some c
    | (some line, ss) =>
      match findSectionInLine line with
      | some sec => (sec.read c ss).bind fun (c, ss) => loadLines passes c ss
      | none => loadLines passes c ss

/-- What the string stream gets of a file: as much as the buffer holds, up to the first
NUL. -/
def inibuffer (file : Str) : Str := cString (file.take (CONFIG_FILEBUFFSIZE - 1))

/-- `fnConfig::load`, for a file that can be opened or that is not there. -/
def load (file : Option Str) (c : FnConfig) : Option FnConfig :=
  match file with
  | none => some { c with dirty := true }
  | some file =>
    (loadLines ((inibuffer file).length + 1) c (inibuffer file)).map ({ · with dirty := false })

end FujiNet.FnConfig
