import Mathlib.Data.List.FinRange
import FujiNet.Config.FnConfig
import FujiNet.Data.Lines

/-!
# Writing the configuration

`fnConfig::save` puts the whole file together in a string stream and writes it at
once. The file is a list of blocks, each a title in brackets and lines of the form
`name=value`; a blank line stands between two blocks. Slots that are not in use
have no block.

The names of host types, modes and pins are looked up by index in their tables.
`none` stands for an index that is not in the table.
-/

namespace FujiNet.FnConfig

open Text Lines

/-! ## Blocks -/

/-- A title and what is written below it. -/
structure Block where
  title : Str
  fields : List (Str × Str)
deriving DecidableEq, Repr

namespace Block

/-- The line with the title. -/
def header (b : Block) : Str := '[' :: (b.title ++ [']'])

def fieldLine (f : Str × Str) : Str := f.1 ++ '=' :: f.2

def lines (b : Block) : List Str := b.header :: b.fields.map fieldLine

end Block

/-- The lines of a file: between two blocks stands a blank line. -/
def fileLines : List Block → List Str
  | [] => []
  | [b] => b.lines
  | b :: b' :: bs => b.lines ++ [] :: fileLines (b' :: bs)

/-- `<<` of a `bool`. -/
def boolText (b : Bool) : Str := if b then "1".toList else "0".toList

/-- A title with the number of a slot, counted from one. -/
def numbered {n : Nat} (title : Str) (i : Fin n) : Str := title ++ decimal (i.val + 1 : Nat)

/-! ## What `save` writes -/

def generalBlock (g : GeneralInfo) : Block where
  title := "General".toList
  fields :=
    [("devicename".toList, g.devicename),
      ("hsioindex".toList, decimal g.hsioIndex),
      ("rotationsounds".toList, boolText g.rotationSounds),
      ("configenabled".toList, boolText g.configEnabled),
      ("boot_mode".toList, decimal g.bootMode)] ++
    (if g.timezone = [] then [] else [("timezone".toList, g.timezone)]) ++
    [("fnconfig_on_spifs".toList, boolText g.fnconfigSpifs),
      ("status_wait_enabled".toList, boolText g.statusWaitEnabled),
      ("printer_enabled".toList, boolText g.printerEnabled),
      ("encrypt_passphrase".toList, boolText g.encryptPassphrase)]

def serialBlock (s : SerialInfo) : Option Block := do
  let command ← nameOf serialCommands serialCommandPinNames s.command
  let proceed ← nameOf serialProceeds serialProceedPinNames s.proceed
  some
    { title := "Serial".toList
      fields :=
        [("port".toList, s.port), ("command".toList, command), ("proceed".toList, proceed)] }

def wifiBlock (w : WifiInfo) : Block where
  title := "WiFi".toList
  fields :=
    [("enabled".toList, boolText w.enabled), ("SSID".toList, w.ssid),
      ("passphrase".toList, w.passphrase)]

def wifiStoredBlock (stored : Fin MAX_WIFI_STORED → WifiInfo) (i : Fin MAX_WIFI_STORED) : Block where
  title := numbered "WiFiStored".toList i
  fields := [("SSID".toList, (stored i).ssid), ("passphrase".toList, (stored i).passphrase)]

/-- The loop over the stored entries ends at the first that is not enabled. -/
def wifiStoredSaved (stored : Fin MAX_WIFI_STORED → WifiInfo) : List (Fin MAX_WIFI_STORED) :=
  (List.finRange MAX_WIFI_STORED).takeWhile fun i => (stored i).enabled

def btBlock (b : BtInfo) : Block where
  title := "Bluetooth".toList
  fields :=
    [("devicename".toList, b.btDevname), ("enabled".toList, boolText b.btStatus),
      ("baud".toList, decimal b.btBaud)]

def networkBlock (n : NetworkInfo) : Block where
  title := "Network".toList
  fields := [("sntpserver".toList, n.sntpserver)]

def hostBlock (hosts : Fin MAX_HOST_SLOTS → HostInfo) (i : Fin MAX_HOST_SLOTS) : Option Block := do
  let type ← nameOf hostTypes hostTypeNames (hosts i).type
  some
    { title := numbered "Host".toList i
      fields := [("type".toList, type), ("name".toList, (hosts i).name)] }

def hostsSaved (hosts : Fin MAX_HOST_SLOTS → HostInfo) : List (Fin MAX_HOST_SLOTS) :=
  (List.finRange MAX_HOST_SLOTS).filter fun i => (hosts i).type ≠ .invalid

/-- Disk and tape slots are written alike, under their own titles. -/
def mountBlock {n : Nat} (title : Str) (mounts : Fin n → MountInfo) (i : Fin n) : Option Block := do
  let mode ← nameOf mountModes mountModeNames (mounts i).mode
  some
    { title := numbered title i
      fields :=
        [("hostslot".toList, decimal ((mounts i).hostSlot + 1)), ("path".toList, (mounts i).path),
          ("mode".toList, mode)] }

def mountsSaved {n : Nat} (mounts : Fin n → MountInfo) : List (Fin n) :=
  (List.finRange n).filter fun i => 0 ≤ (mounts i).hostSlot

def printerBlock (printers : Fin MAX_PRINTER_SLOTS → PrinterInfo) (i : Fin MAX_PRINTER_SLOTS) :
    Block where
  title := numbered "Printer".toList i
  fields :=
    [("type".toList, decimal (printers i).type.code), ("port".toList, decimal ((printers i).port + 1))]

def printersSaved (printers : Fin MAX_PRINTER_SLOTS → PrinterInfo) : List (Fin MAX_PRINTER_SLOTS) :=
  (List.finRange MAX_PRINTER_SLOTS).filter fun i => (printers i).type ≠ .invalid

def modemBlock (m : ModemInfo) : Block where
  title := "Modem".toList
  fields :=
    [("modem_enabled".toList, boolText m.modemEnabled),
      ("sniffer_enabled".toList, boolText m.snifferEnabled)]

def phonebookBlock (phonebook : Fin MAX_PB_SLOTS → PhbookInfo) (i : Fin MAX_PB_SLOTS) : Block where
  title := numbered "Phonebook".toList i
  fields :=
    [("number".toList, (phonebook i).phnumber), ("host".toList, (phonebook i).hostname),
      ("port".toList, (phonebook i).port)]

def phonebookSaved (phonebook : Fin MAX_PB_SLOTS → PhbookInfo) : List (Fin MAX_PB_SLOTS) :=
  (List.finRange MAX_PB_SLOTS).filter fun i => (phonebook i).phnumber ≠ []

def cassetteBlock (c : CassetteInfo) : Block where
  title := "Cassette".toList
  fields :=
    [("play_record".toList, if c.button then "1 Record".toList else "0 Play".toList),
      ("pulldown".toList,
        if c.pulldown then "1 Pulldown Resistor".toList else "0 B Button Press".toList),
      ("cassette_enabled".toList, boolText c.cassetteEnabled)]

def cpmBlock (c : CpmInfo) : Block where
  title := "CPM".toList
  fields := [("cpm_enabled".toList, boolText c.cpmEnabled), ("ccp".toList, c.ccp)]

attribute [local instance] neZero_slots

def deviceEnableBlock (d : DeviceEnableInfo) : Block where
  title := "ENABLE".toList
  fields :=
    [("enable_device_slot_1".toList, boolText (d.device 0)),
      ("enable_device_slot_2".toList, boolText (d.device 1)),
      ("enable_device_slot_3".toList, boolText (d.device 2)),
      ("enable_device_slot_4".toList, boolText (d.device 3)),
      ("enable_device_slot_5".toList, boolText (d.device 4)),
      ("enable_device_slot_6".toList, boolText (d.device 5)),
      ("enable_device_slot_7".toList, boolText (d.device 6)),
      ("enable_device_slot_8".toList, boolText (d.device 7)),
      ("enable_apetime".toList, boolText d.apetime)]

def netsioBlock (n : NetsioInfo) : Block where
  title := "NetSIO".toList
  fields :=
    [("enabled".toList, boolText n.netsioEnabled), ("host".toList, n.host),
      ("port".toList, decimal n.port)]

def boipBlock (b : BoipInfo) : Block where
  title := "BOIP".toList
  fields :=
    [("enabled".toList, boolText b.boipEnabled), ("host".toList, b.host),
      ("port".toList, decimal b.port)]

/-- The blocks of the file, in their order. -/
def blocks (c : FnConfig) : Option (List Block) := do
  let serial ← serialBlock c.serial
  let hosts ← (hostsSaved c.hostSlots).mapM (hostBlock c.hostSlots)
  let mounts ← (mountsSaved c.mountSlots).mapM (mountBlock "Mount".toList c.mountSlots)
  let tapes ← (mountsSaved c.tapeSlots).mapM (mountBlock "Tape".toList c.tapeSlots)
  some
    ([generalBlock c.general, serial, wifiBlock c.wifi] ++
      (wifiStoredSaved c.wifiStored).map (wifiStoredBlock c.wifiStored) ++
      [btBlock c.bt, networkBlock c.network] ++
      hosts ++ mounts ++
      (printersSaved c.printerSlots).map (printerBlock c.printerSlots) ++
      tapes ++
      [modemBlock c.modem] ++
      (phonebookSaved c.phonebookSlots).map (phonebookBlock c.phonebookSlots) ++
      [cassetteBlock c.cassette, cpmBlock c.cpm, deviceEnableBlock c.denable,
        netsioBlock c.netsio, boipBlock c.boip])

/-- The contents of the string stream. -/
def text (c : FnConfig) : Option Str := (c.blocks).map fun bs => joinLines (fileLines bs)

/-- `fnConfig::save` where the file can be opened for writing: what is written, if
anything, and the configuration afterwards. A configuration that is not dirty is not
written. -/
def save (c : FnConfig) : Option (Option Str × FnConfig) :=
  if c.dirty then c.text.map fun result => (some result, { c with dirty := false })
  else some (none, c)

end FujiNet.FnConfig
