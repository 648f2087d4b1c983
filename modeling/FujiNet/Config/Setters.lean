import FujiNet.Config.FnConfig
import FujiNet.Encrypt.Crypt

/-!
# The setters of the configuration

Most of them compare the new value with the old one, and if it is another store it and
set `_dirty`; some store it in any case; those for members that are not in the file
leave `_dirty` alone. `key` is that of the global `crypto`.

`Setter` lists the calls. The three of the phonebook that also save are not among them:
what they do in memory is below, the file comes in later.
-/

namespace FujiNet.FnConfig

open Text

/-! ## Setters of one value -/

/-- A setter that does nothing where the value is the old one. -/
def storeIfChanged {α : Type} [DecidableEq α] (get : FnConfig → α) (set : FnConfig → α → FnConfig)
    (value : α) (c : FnConfig) : FnConfig :=
  if get c = value then c else { set c value with dirty := true }

/-- A setter that does not compare. -/
def storeAlways {α : Type} (set : FnConfig → α → FnConfig) (value : α) (c : FnConfig) : FnConfig :=
  { set c value with dirty := true }

def storeGeneralDevicename : Str → FnConfig → FnConfig :=
  storeIfChanged (·.general.devicename) fun c v => { c with general.devicename := v }

def storeGeneralTimezone : Str → FnConfig → FnConfig :=
  storeIfChanged (·.general.timezone) fun c v => { c with general.timezone := v }

def storeGeneralRotationSounds : Bool → FnConfig → FnConfig :=
  storeIfChanged (·.general.rotationSounds) fun c v => { c with general.rotationSounds := v }

def storeGeneralConfigEnabled : Bool → FnConfig → FnConfig :=
  storeIfChanged (·.general.configEnabled) fun c v => { c with general.configEnabled := v }

def storeGeneralStatusWaitEnabled : Bool → FnConfig → FnConfig :=
  storeIfChanged (·.general.statusWaitEnabled) fun c v => { c with general.statusWaitEnabled := v }

/-- The new mode is a `uint8_t`. -/
def storeGeneralBootMode (bootMode : UInt8) : FnConfig → FnConfig :=
  storeIfChanged (·.general.bootMode) (fun c v => { c with general.bootMode := v }) bootMode.toNat

def storeGeneralHsioindex : Int → FnConfig → FnConfig :=
  storeIfChanged (·.general.hsioIndex) fun c v => { c with general.hsioIndex := v }

def storeGeneralFnconfigSpifs : Bool → FnConfig → FnConfig :=
  storeIfChanged (·.general.fnconfigSpifs) fun c v => { c with general.fnconfigSpifs := v }

def storePrinterEnabled : Bool → FnConfig → FnConfig :=
  storeIfChanged (·.general.printerEnabled) fun c v => { c with general.printerEnabled := v }

def storeSerialPort : Str → FnConfig → FnConfig :=
  storeIfChanged (·.serial.port) fun c v => { c with serial.port := v }

def storeNetsioEnabled : Bool → FnConfig → FnConfig :=
  storeIfChanged (·.netsio.netsioEnabled) fun c v => { c with netsio.netsioEnabled := v }

def storeNetsioHost : Str → FnConfig → FnConfig :=
  storeIfChanged (·.netsio.host) fun c v => { c with netsio.host := v }

def storeNetsioPort : Int → FnConfig → FnConfig :=
  storeIfChanged (·.netsio.port) fun c v => { c with netsio.port := v }

def storeBoipEnabled : Bool → FnConfig → FnConfig :=
  storeIfChanged (·.boip.boipEnabled) fun c v => { c with boip.boipEnabled := v }

def storeBoipHost : Str → FnConfig → FnConfig :=
  storeIfChanged (·.boip.host) fun c v => { c with boip.host := v }

def storeBoipPort : Int → FnConfig → FnConfig :=
  storeIfChanged (·.boip.port) fun c v => { c with boip.port := v }

def storeModemEnabled : Bool → FnConfig → FnConfig :=
  storeIfChanged (·.modem.modemEnabled) fun c v => { c with modem.modemEnabled := v }

def storeModemSnifferEnabled : Bool → FnConfig → FnConfig :=
  storeIfChanged (·.modem.snifferEnabled) fun c v => { c with modem.snifferEnabled := v }

def storeCassetteButtons : Bool → FnConfig → FnConfig :=
  storeIfChanged (·.cassette.button) fun c v => { c with cassette.button := v }

def storeCassettePulldown : Bool → FnConfig → FnConfig :=
  storeIfChanged (·.cassette.pulldown) fun c v => { c with cassette.pulldown := v }

def storeCassetteEnabled : Bool → FnConfig → FnConfig :=
  storeIfChanged (·.cassette.cassetteEnabled) fun c v => { c with cassette.cassetteEnabled := v }

def storeCpmEnabled : Bool → FnConfig → FnConfig :=
  storeIfChanged (·.cpm.cpmEnabled) fun c v => { c with cpm.cpmEnabled := v }

def storeCcpFilename : Str → FnConfig → FnConfig :=
  storeIfChanged (·.cpm.ccp) fun c v => { c with cpm.ccp := v }

/-- `store_device_slot_enable_{i+1}`. -/
def storeDeviceSlotEnable (i : Fin 8) : Bool → FnConfig → FnConfig :=
  storeIfChanged (·.denable.device i) fun c v =>
    { c with denable.device := Function.update c.denable.device i v }

def storeApetimeEnabled : Bool → FnConfig → FnConfig :=
  storeIfChanged (·.denable.apetime) fun c v => { c with denable.apetime := v }

def storeWifiEnabled : Bool → FnConfig → FnConfig :=
  storeAlways fun c v => { c with wifi.enabled := v }

def storeBtStatus : Bool → FnConfig → FnConfig :=
  storeAlways fun c v => { c with bt.btStatus := v }

def storeBtBaud : Int → FnConfig → FnConfig :=
  storeAlways fun c v => { c with bt.btBaud := v }

def storeBtDevname : Str → FnConfig → FnConfig :=
  storeAlways fun c v => { c with bt.btDevname := v }

/-! ## Members that are not in the file -/

def storeGeneralInterfaceUrl (url : Str) (c : FnConfig) : FnConfig :=
  { c with general.interfaceUrl := url }

def storeGeneralConfigPath (filePath : Str) (c : FnConfig) : FnConfig :=
  { c with general.configFilePath := filePath }

def storeGeneralSDPath (dirPath : Str) (c : FnConfig) : FnConfig :=
  { c with general.sdDirPath := dirPath }

/-- `strlcpy` into the 64 bytes of `udpstream_host`. -/
def storeUdpstreamHost (hostIp : Str) (c : FnConfig) : FnConfig :=
  { c with network.udpstreamHost := hostIp.take 63 }

def storeUdpstreamPort (port : Int) (c : FnConfig) : FnConfig :=
  { c with network.udpstreamPort := port }

/-! ## Pins -/

/-- A pin outside of the table of names is not taken. -/
def storeSerialCommand (pin : SerialCommand) (c : FnConfig) : FnConfig :=
  if pin = .invalid ∨ c.serial.command = pin then c
  else { c with serial.command := pin, dirty := true }

def storeSerialProceed (pin : SerialProceed) (c : FnConfig) : FnConfig :=
  if pin = .invalid ∨ c.serial.proceed = pin then c
  else { c with serial.proceed := pin, dirty := true }

/-! ## WiFi -/

/-- At most `n` octets, up to the NUL at which the octets end. -/
def octets (s : Str) (n : Nat) : Str := (cString s).take n

/-- `compare(0, n, s) == 0`: the first `n` characters of a string are all of `s`. -/
def comparesEqual (stored : Str) (s : Str) (n : Nat) : Bool := stored.take n = cString s

def storeWifiSsid (ssidOctets : Str) (numOctets : Nat) (c : FnConfig) : FnConfig :=
  if comparesEqual c.wifi.ssid ssidOctets numOctets then c
  else { c with wifi.ssid := octets ssidOctets numOctets, dirty := true }

/-- What the getter returns is enciphered once more where the setting is on. -/
def cipher (key : Str) (encrypt : Bool) (passphrase : Str) : Str :=
  if encrypt then Crypto.crypt key passphrase else passphrase

def storeWifiPassphrase (key passphraseOctets : Str) (numOctets : Nat) (c : FnConfig) : FnConfig :=
  if comparesEqual c.wifi.passphrase passphraseOctets numOctets then c
  else
    { c with
      wifi.passphrase :=
        cipher key c.general.encryptPassphrase (octets passphraseOctets numOctets)
      dirty := true }

def getWifiSsid (c : FnConfig) : Str := c.wifi.ssid

def getWifiPassphrase (key : Str) (c : FnConfig) : Str :=
  cipher key c.general.encryptPassphrase c.wifi.passphrase

/-- `reset_wifi` clears both strings and leaves `_dirty` as it is. -/
def resetWifi (c : FnConfig) : FnConfig :=
  { c with wifi := { c.wifi with ssid := [], passphrase := [] } }

/-- The passphrases in memory are turned over: the stored ones only where they are enabled. -/
def storeGeneralEncryptPassphrase (key : Str) (encryptPassphrase : Bool) (c : FnConfig) : FnConfig :=
  if c.general.encryptPassphrase = encryptPassphrase then c
  else
    { c with
      wifi.passphrase := Crypto.crypt key c.wifi.passphrase
      general.encryptPassphrase := encryptPassphrase
      wifiStored := fun i =>
        if (c.wifiStored i).enabled then
          { c.wifiStored i with passphrase := Crypto.crypt key (c.wifiStored i).passphrase }
        else c.wifiStored i
      dirty := true }

def storeWifiStoredSsid (i : Fin MAX_WIFI_STORED) : Str → FnConfig → FnConfig :=
  storeAlways fun c v =>
    { c with wifiStored := Function.update c.wifiStored i { c.wifiStored i with ssid := v } }

def storeWifiStoredPassphrase (i : Fin MAX_WIFI_STORED) : Str → FnConfig → FnConfig :=
  storeAlways fun c v =>
    { c with wifiStored := Function.update c.wifiStored i { c.wifiStored i with passphrase := v } }

def storeWifiStoredEnabled (i : Fin MAX_WIFI_STORED) : Bool → FnConfig → FnConfig :=
  storeAlways fun c v =>
    { c with wifiStored := Function.update c.wifiStored i { c.wifiStored i with enabled := v } }

/-! ## Slots -/

/-- A slot number outside of the table is not an error. -/
def storeSlot {n : Nat} {α : Type} [DecidableEq α] (slots : FnConfig → Fin n → α)
    (set : FnConfig → (Fin n → α) → FnConfig) (num : UInt8) (value : Fin n → α) (c : FnConfig) :
    FnConfig :=
  if h : num.toNat < n then
    storeIfChanged (slots · ⟨num.toNat, h⟩)
      (fun c v => set c (Function.update (slots c) ⟨num.toNat, h⟩ v)) (value ⟨num.toNat, h⟩) c
  else c

def storeHost (num : UInt8) (hostname : Str) (type : HostType) : FnConfig → FnConfig :=
  storeSlot (·.hostSlots) (fun c slots => { c with hostSlots := slots }) num
    fun _ => { type := type, name := hostname }

def clearHost (num : UInt8) : FnConfig → FnConfig :=
  storeSlot (·.hostSlots) (fun c slots => { c with hostSlots := slots }) num fun _ => {}

/-- `store_mount` and `clear_mount` put a whole slot in. -/
def putMount (num : UInt8) (mount : MountInfo) : MountType → FnConfig → FnConfig
  | .disk =>
    storeSlot (·.mountSlots) (fun c slots => { c with mountSlots := slots }) num fun _ => mount
  | .tape =>
    storeSlot (·.tapeSlots) (fun c slots => { c with tapeSlots := slots }) num fun _ => mount

def storeMount (num : UInt8) (hostslot : Int) (path : Str) (mode : MountMode)
    (mounttype : MountType) : FnConfig → FnConfig :=
  putMount num { hostSlot := hostslot, mode := mode, path := path } mounttype

def clearMount (num : UInt8) (mounttype : MountType) : FnConfig → FnConfig :=
  putMount num {} mounttype

def storePrinterType (num : UInt8) (ptype : PrinterType) (c : FnConfig) : FnConfig :=
  storeSlot (·.printerSlots) (fun c slots => { c with printerSlots := slots }) num
    (fun i => { c.printerSlots i with type := ptype }) c

def storePrinterPort (num : UInt8) (port : Int) (c : FnConfig) : FnConfig :=
  storeSlot (·.printerSlots) (fun c slots => { c with printerSlots := slots }) num
    (fun i => { c.printerSlots i with port := port }) c

/-! ## The phonebook -/

/-- The first slot with a given number. -/
def findPbSlot (c : FnConfig) (pbnum : Str) : Option (Fin MAX_PB_SLOTS) :=
  (List.finRange MAX_PB_SLOTS).find? fun i => (c.phonebookSlots i).phnumber = pbnum

/-- What `add_pb_number` has in memory when it calls `save`; `none` where it returns `false`. -/
def addPbNumber (pbnum pbhost pbport : Str) (c : FnConfig) : Option FnConfig :=
  if pbnum.length > PHONEBOOK_CHAR_WIDTH then none
  else (c.findPbSlot []).map fun i =>
    { c with
      phonebookSlots := Function.update c.phonebookSlots i ⟨pbnum, pbhost, pbport⟩
      dirty := true }

/-- What `del_pb_number` has in memory when it calls `save`. -/
def delPbNumber (pbnum : Str) (c : FnConfig) : Option FnConfig :=
  (c.findPbSlot pbnum).map fun i =>
    { c with phonebookSlots := Function.update c.phonebookSlots i {}, dirty := true }

/-- What `clear_pb` has in memory when it calls `save`: `_dirty` is set only afterwards. -/
def clearedPb (c : FnConfig) : FnConfig := { c with phonebookSlots := fun _ => {} }

/-! ## Calls -/

/-- A call of a setter that leaves the file alone. -/
inductive Setter
  | generalDevicename (devicename : Str)
  | generalTimezone (timezone : Str)
  | generalRotationSounds (rotationSounds : Bool)
  | generalConfigEnabled (configEnabled : Bool)
  | generalStatusWaitEnabled (statusWaitEnabled : Bool)
  | generalEncryptPassphrase (encryptPassphrase : Bool)
  | generalBootMode (bootMode : UInt8)
  | generalHsioindex (hsioIndex : Int)
  | generalFnconfigSpifs (fnconfigSpifs : Bool)
  | generalInterfaceUrl (url : Str)
  | generalConfigPath (filePath : Str)
  | generalSDPath (dirPath : Str)
  | printerEnabled (printerEnabled : Bool)
  | udpstreamHost (hostIp : Str)
  | udpstreamPort (port : Int)
  | serialPort (port : Str)
  | serialCommand (pin : SerialCommand)
  | serialProceed (pin : SerialProceed)
  | netsioEnabled (enabled : Bool)
  | netsioHost (host : Str)
  | netsioPort (port : Int)
  | boipEnabled (enabled : Bool)
  | boipHost (host : Str)
  | boipPort (port : Int)
  | wifiSsid (ssidOctets : Str) (numOctets : Nat)
  | wifiPassphrase (passphraseOctets : Str) (numOctets : Nat)
  | wifiEnabled (status : Bool)
  | resetWifi
  | wifiStoredSsid (i : Fin MAX_WIFI_STORED) (ssid : Str)
  | wifiStoredPassphrase (i : Fin MAX_WIFI_STORED) (passphrase : Str)
  | wifiStoredEnabled (i : Fin MAX_WIFI_STORED) (enabled : Bool)
  | btStatus (status : Bool)
  | btBaud (baud : Int)
  | btDevname (devname : Str)
  | host (num : UInt8) (hostname : Str) (type : HostType)
  | clearHost (num : UInt8)
  | mount (num : UInt8) (hostslot : Int) (path : Str) (mode : MountMode) (mounttype : MountType)
  | clearMount (num : UInt8) (mounttype : MountType)
  | printerType (num : UInt8) (ptype : PrinterType)
  | printerPort (num : UInt8) (port : Int)
  | modemEnabled (modemEnabled : Bool)
  | modemSnifferEnabled (modemSnifferEnabled : Bool)
  | cassetteButtons (button : Bool)
  | cassettePulldown (pulldown : Bool)
  | cassetteEnabled (cassetteEnabled : Bool)
  | ccpFilename (filename : Str)
  | cpmEnabled (cpmEnabled : Bool)
  | deviceSlotEnable (i : Fin 8) (enable : Bool)
  | apetimeEnabled (enabled : Bool)
  | markDirty

/-- The memory after a call. -/
def Setter.apply (key : Str) : Setter → FnConfig → FnConfig
  | generalDevicename v => storeGeneralDevicename v
  | generalTimezone v => storeGeneralTimezone v
  | generalRotationSounds v => storeGeneralRotationSounds v
  | generalConfigEnabled v => storeGeneralConfigEnabled v
  | generalStatusWaitEnabled v => storeGeneralStatusWaitEnabled v
  | generalEncryptPassphrase v => storeGeneralEncryptPassphrase key v
  | generalBootMode v => storeGeneralBootMode v
  | generalHsioindex v => storeGeneralHsioindex v
  | generalFnconfigSpifs v => storeGeneralFnconfigSpifs v
  | generalInterfaceUrl v => storeGeneralInterfaceUrl v
  | generalConfigPath v => storeGeneralConfigPath v
  | generalSDPath v => storeGeneralSDPath v
  | printerEnabled v => storePrinterEnabled v
  | udpstreamHost v => storeUdpstreamHost v
  | udpstreamPort v => storeUdpstreamPort v
  | serialPort v => storeSerialPort v
  | serialCommand v => storeSerialCommand v
  | serialProceed v => storeSerialProceed v
  | netsioEnabled v => storeNetsioEnabled v
  | netsioHost v => storeNetsioHost v
  | netsioPort v => storeNetsioPort v
  | boipEnabled v => storeBoipEnabled v
  | boipHost v => storeBoipHost v
  | boipPort v => storeBoipPort v
  | wifiSsid v n => storeWifiSsid v n
  | wifiPassphrase v n => storeWifiPassphrase key v n
  | wifiEnabled v => storeWifiEnabled v
  | resetWifi => FnConfig.resetWifi
  | wifiStoredSsid i v => storeWifiStoredSsid i v
  | wifiStoredPassphrase i v => storeWifiStoredPassphrase i v
  | wifiStoredEnabled i v => storeWifiStoredEnabled i v
  | btStatus v => storeBtStatus v
  | btBaud v => storeBtBaud v
  | btDevname v => storeBtDevname v
  | host num name type => storeHost num name type
  | clearHost num => FnConfig.clearHost num
  | mount num hostslot path mode type => storeMount num hostslot path mode type
  | clearMount num type => FnConfig.clearMount num type
  | printerType num v => storePrinterType num v
  | printerPort num v => storePrinterPort num v
  | modemEnabled v => storeModemEnabled v
  | modemSnifferEnabled v => storeModemSnifferEnabled v
  | cassetteButtons v => storeCassetteButtons v
  | cassettePulldown v => storeCassettePulldown v
  | cassetteEnabled v => storeCassetteEnabled v
  | ccpFilename v => storeCcpFilename v
  | cpmEnabled v => storeCpmEnabled v
  | deviceSlotEnable i v => storeDeviceSlotEnable i v
  | apetimeEnabled v => storeApetimeEnabled v
  | markDirty => fun c => { c with dirty := true }

end FujiNet.FnConfig
