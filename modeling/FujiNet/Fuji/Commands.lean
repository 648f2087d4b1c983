import FujiNet.FileSystem.FilteredDir
import FujiNet.Fuji.HostPrefix
import FujiNet.Fuji.HostSlot
import FujiNet.Fuji.Slots
import FujiNet.Fuji.StoredNetworks
import FujiNet.Sio.Disk

/-!
# The commands of the Fuji device

`sioFuji::sio_process` and what it calls, as far as the answers go: what is received and sent, and the
members of the device that decide about an answer. What the handlers get from the hosts, the network,
the configuration and the C library is part of the surroundings; everything is possible there. The
hosts themselves are members, since a host without a file system ends the process.
-/

namespace FujiNet.Fuji.Commands

open SIO
open Slots (MAX_HOSTS MAX_DISK_DEVICES INVALID_HOST_SLOT MAX_FILENAME_LEN DISK_ACCESS_MODE_WRITE)
open FileSystem (FNFS_INVALID_DIRPOS)

def MAX_APPKEY_LEN : Nat := 64
def MAX_DISPLAY_FILENAME_LEN : Nat := 36
def READ_DEVICE_SLOTS_DISKS1 : UInt8 := 0x00
def SIO_HISPEED_LOWEST_INDEX : UInt8 := 0x0A
def SIO_HISPEED_x2_INDEX : UInt8 := 0x10
def SIO_ATARI_PAL_FREQUENCY : Nat := 1773447

def APPKEYMODE_READ : UInt8 := 0
def APPKEYMODE_WRITE : UInt8 := 1
def APPKEYMODE_INVALID : UInt8 := 2

/-- The `FUJICMD` codes that `sio_process` knows. -/
inductive FujiCommand
  | hsioIndex | setHsioIndex | status | reset | scanNetworks | getScanResult | setSsid | getSsid
  | getWifistatus | mountHost | mountImage | openDirectory | readDirEntry | closeDirectory
  | getDirectoryPosition | setDirectoryPosition | readHostSlots | writeHostSlots | readDeviceSlots
  | writeDeviceSlots | getWifiEnabled | unmountImage | getAdapterconfig | newDisk | unmountHost
  | setDeviceFullpath | setHostPrefix | getHostPrefix | setSioExternalClock | writeAppkey | readAppkey
  | openAppkey | closeAppkey | getDeviceFullpath | configBoot | copyFile | mountAll | setBootMode
  | enableUdpstream | base64EncodeInput | base64EncodeCompute | base64EncodeLength
  | base64EncodeOutput | base64DecodeInput | base64DecodeCompute | base64DecodeLength
  | base64DecodeOutput | hashInput | hashCompute | hashLength | hashOutput
deriving DecidableEq, Repr

namespace FujiCommand

def code : FujiCommand → UInt8
  | hsioIndex => 0x3F
  | setHsioIndex => 0xE3
  | status => 0x53
  | reset => 0xFF
  | scanNetworks => 0xFD
  | getScanResult => 0xFC
  | setSsid => 0xFB
  | getSsid => 0xFE
  | getWifistatus => 0xFA
  | mountHost => 0xF9
  | mountImage => 0xF8
  | openDirectory => 0xF7
  | readDirEntry => 0xF6
  | closeDirectory => 0xF5
  | getDirectoryPosition => 0xE5
  | setDirectoryPosition => 0xE4
  | readHostSlots => 0xF4
  | writeHostSlots => 0xF3
  | readDeviceSlots => 0xF2
  | writeDeviceSlots => 0xF1
  | getWifiEnabled => 0xEA
  | unmountImage => 0xE9
  | getAdapterconfig => 0xE8
  | newDisk => 0xE7
  | unmountHost => 0xE6
  | setDeviceFullpath => 0xE2
  | setHostPrefix => 0xE1
  | getHostPrefix => 0xE0
  | setSioExternalClock => 0xDF
  | writeAppkey => 0xDE
  | readAppkey => 0xDD
  | openAppkey => 0xDC
  | closeAppkey => 0xDB
  | getDeviceFullpath => 0xDA
  | configBoot => 0xD9
  | copyFile => 0xD8
  | mountAll => 0xD7
  | setBootMode => 0xD6
  | enableUdpstream => 0xF0
  | base64EncodeInput => 0xD0
  | base64EncodeCompute => 0xCF
  | base64EncodeLength => 0xCE
  | base64EncodeOutput => 0xCD
  | base64DecodeInput => 0xCC
  | base64DecodeCompute => 0xCB
  | base64DecodeLength => 0xCA
  | base64DecodeOutput => 0xC9
  | hashInput => 0xC8
  | hashCompute => 0xC7
  | hashLength => 0xC6
  | hashOutput => 0xC5

def all : List FujiCommand :=
  [hsioIndex, setHsioIndex, status, reset, scanNetworks, getScanResult, setSsid, getSsid,
    getWifistatus, mountHost, mountImage, openDirectory, readDirEntry, closeDirectory,
    getDirectoryPosition, setDirectoryPosition, readHostSlots, writeHostSlots, readDeviceSlots,
    writeDeviceSlots, getWifiEnabled, unmountImage, getAdapterconfig, newDisk, unmountHost,
    setDeviceFullpath, setHostPrefix, getHostPrefix, setSioExternalClock, writeAppkey, readAppkey,
    openAppkey, closeAppkey, getDeviceFullpath, configBoot, copyFile, mountAll, setBootMode,
    enableUdpstream, base64EncodeInput, base64EncodeCompute, base64EncodeLength, base64EncodeOutput,
    base64DecodeInput, base64DecodeCompute, base64DecodeLength, base64DecodeOutput, hashInput,
    hashCompute, hashLength, hashOutput]

/-- The case of the switch a command code selects. -/
def ofCode (comnd : UInt8) : Option FujiCommand := all.find? fun c => c.code = comnd

theorem ofCode_code (c : FujiCommand) : ofCode c.code = some c := by
  cases c <;> rfl

end FujiCommand

/-- `appkey`. -/
structure Appkey where
  creator : Nat := 0
  app : UInt8 := 0
  key : UInt8 := 0
  mode : UInt8 := APPKEYMODE_INVALID
  reserved : UInt8 := 0
deriving DecidableEq, Repr

def Appkey.toBytes (k : Appkey) : List UInt8 :=
  [lobyte k.creator, hibyte k.creator, k.app, k.key, k.mode, k.reserved]

def Appkey.ofBytes (bytes : List UInt8) : Appkey where
  creator := u16 (bytes.getD 0 0) (bytes.getD 1 0)
  app := bytes.getD 2 0
  key := bytes.getD 3 0
  mode := bytes.getD 4 0
  reserved := bytes.getD 5 0

/-- What a command reads besides the device: the data frame, memory that was not set, and what is
answered outside. Files of hosts open or do not; `mount` returns for the image of a slot, or divides by
the sector size of its header, which is zero; a key is read and written up to some length. -/
structure Surroundings where
  incoming : DataFrame
  uninitialised : Nat → UInt8
  mallocSucceeds : Bool
  scanNetworks : UInt8
  scanResult : UInt8 → List UInt8
  wifiSsid : List UInt8
  wifiPassphrase : List UInt8
  testConnect : List UInt8 → Int
  wifiConnected : Bool
  wifiEnabled : Bool
  adapterConfig : List UInt8
  adapterConfigExtended : List UInt8
  hostPrefix : UInt8 → List UInt8
  outside : Outside
  imageOpens : Nat → Bool
  imageMounts : Nat → Bool
  bootImageMounts : Bool
  diskFilename : UInt8 → List UInt8
  diskBasename : Fin MAX_DISK_DEVICES → List UInt8
  fileExists : Bool
  newDiskOpens : Bool
  newDiskWritten : Bool
  sourceOpens : Bool
  destOpens : Bool
  copyFails : Bool
  dirOpens : Bool
  directoryEntry : List UInt8
  directoryBlock : List UInt8
  dirTell : UInt16
  dirSeek : Bool
  sdRunning : Bool
  keyOpens : Bool
  keyRead : List UInt8
  keyWritten : Nat → Nat
  base64Encode : List UInt8 → Option (List UInt8)
  base64Decode : List UInt8 → Option (List UInt8)
  sha1 : List UInt8 → List UInt8
  sha256 : List UInt8 → List UInt8
  sha512 : List UInt8 → List UInt8

/-- Memory that was not set. -/
def Surroundings.memory (around : Surroundings) (len : Nat) : List UInt8 :=
  (List.range len).map around.uninitialised

/-- A buffer of `len` bytes with `bytes` at its start. -/
def zeroed (len : Nat) (bytes : List UInt8) : List UInt8 := (bytes ++ List.replicate len 0).take len

/-- `sioFuji`, as far as its answers depend on it, and the bus. -/
structure SioFuji where
  hosts : Fin MAX_HOSTS → HostSlot
  hostSlots : Fin MAX_DISK_DEVICES → UInt8
  accessModes : Fin MAX_DISK_DEVICES → UInt8
  currentOpenDirectorySlot : Option (Fin MAX_HOSTS) := none
  countScannedSSIDs : UInt8 := 0
  currentAppkey : Appkey := {}
  base64Buffer : List UInt8 := []
  hashMode : UInt8 := 0
  md5Output : List UInt8
  sha1Output : List UInt8
  sha256Output : List UInt8
  sha512Output : List UInt8
  bootConfig : Bool := true
  bus : Bus

namespace SioFuji

def onBus (f : Bus → Bus) (s : SioFuji) : SioFuji := { s with bus := f s.bus }

def sioComplete (s : SioFuji) : SioFuji := s.onBus Bus.sioComplete

def sioError (s : SioFuji) : SioFuji := s.onBus Bus.sioError

def busToComputer (buf : List UInt8) (err : Bool) (s : SioFuji) : SioFuji :=
  s.onBus (Bus.busToComputer buf err)

/-- `_on_ok` and `_on_error`, for a command. -/
def onOk (s : SioFuji) : SioFuji := s.sioComplete

def onError (s : SioFuji) : SioFuji := s.sioError

/-- The members of a slot that answers depend on. -/
def setSlot (i : Fin MAX_DISK_DEVICES) (hostSlot mode : UInt8) (s : SioFuji) : SioFuji :=
  { s with
    hostSlots := Function.update s.hostSlots i hostSlot
    accessModes := Function.update s.accessModes i mode }

def setHost (i : Fin MAX_HOSTS) (host : HostSlot) (s : SioFuji) : SioFuji :=
  { s with hosts := Function.update s.hosts i host }

/-- Where a null pointer is used or a number is divided by zero, the process ends and nothing more is
sent. -/
def fault (s : SioFuji) : SioFuji := s

section

variable (around : Surroundings) (frame : CmdFrame)

/-- A data frame is received into `buf`, whose size is the length that is asked for. -/
def busToPeripheral (buf : List UInt8) (s : SioFuji) : (List UInt8 × UInt8) × SioFuji :=
  let (received, bus) := s.bus.busToPeripheral around.incoming buf buf.length
  (received, { s with bus })

/-- Many handlers start so: an error if the checksum is wrong. -/
def withFrame (buf : List UInt8) (accept : List UInt8 → SioFuji → SioFuji) (s : SioFuji) : SioFuji :=
  let ((buf, ck), s) := s.busToPeripheral around buf
  if sioChecksum buf ≠ ck then s.sioError else accept buf s

/-! ## Speed, network and configuration -/

/-- `systemBus::setHighSpeedIndex`, for the indices that are accepted here. -/
def setHighSpeedIndex (index : UInt8) (bus : Bus) : Bus :=
  { bus with
    highSpeedIndex := some index
    sioBaudHigh :=
      if index ≤ 4 then SIO_ATARI_PAL_FREQUENCY * 10 / (10 * (2 * (index.toNat + 7)) + 3)
      else if index = 8 then 57600
      else if index = 16 then 38400
      else SIO_ATARI_PAL_FREQUENCY / (2 * (index.toNat + 7)) }

def sioSetHsioIndex (s : SioFuji) : SioFuji :=
  let index := frame.aux1
  if index > SIO_HISPEED_LOWEST_INDEX ∧ index ≠ SIO_HISPEED_x2_INDEX then s.sioError
  else (s.onBus (setHighSpeedIndex index)).sioComplete

def sioStatus (s : SioFuji) : SioFuji := s.busToComputer (List.replicate 4 0) false

def sioResetFujinet (s : SioFuji) : SioFuji := s.sioComplete

def sioNetScanNetworks (s : SioFuji) : SioFuji :=
  { s with countScannedSSIDs := around.scanNetworks }.busToComputer
    (zeroed 4 [around.scanNetworks]) false

/-- The detail is a name of 33 characters and the strength of the signal. -/
def sioNetScanResult (s : SioFuji) : SioFuji :=
  if frame.aux1 < s.countScannedSSIDs then
    s.busToComputer (zeroed (MAX_SSID_LEN + 2) (around.scanResult frame.aux1)) false
  else s.busToComputer (zeroed (MAX_SSID_LEN + 2) []) true

def sioNetGetSsid (s : SioFuji) : SioFuji :=
  s.busToComputer (zeroed (MAX_SSID_LEN + 1) around.wifiSsid ++
    zeroed MAX_WIFI_PASS_LEN around.wifiPassphrase) false

def sioNetSetSsid (s : SioFuji) : SioFuji :=
  s.withFrame around (around.memory (MAX_SSID_LEN + 1 + MAX_WIFI_PASS_LEN)) fun cfg s =>
    if around.testConnect cfg ≠ 0 then s.sioError else s.sioComplete

def sioNetGetWifiStatus (s : SioFuji) : SioFuji :=
  s.busToComputer [if around.wifiConnected then 3 else 6] false

def sioNetGetWifiEnabled (s : SioFuji) : SioFuji :=
  s.busToComputer [if around.wifiEnabled then 1 else 0] false

/-- `AdapterConfig` has 140 bytes, the extended one 240. -/
def sioGetAdapterConfig (s : SioFuji) : SioFuji :=
  if frame.aux1 = 1 then s.busToComputer (zeroed 240 around.adapterConfigExtended) false
  else s.busToComputer (zeroed 140 around.adapterConfig) false

def sioSetSioExternalClock (s : SioFuji) : SioFuji :=
  let speed := u16 frame.aux1 frame.aux2
  (s.onBus fun bus => { bus with
    useUltraHigh := speed ≠ 0, sioBaudUltraHigh := speed * 1000 }).sioComplete

def sioSetBootConfig (s : SioFuji) : SioFuji := { s with bootConfig := frame.aux1 ≠ 0 }.sioComplete

/-- The images of the modes 0 and 1 are mounted as disks. -/
def sioSetBootMode (s : SioFuji) : SioFuji :=
  if frame.aux1 ≤ 1 ∧ ¬ around.bootImageMounts then s.fault
  else { s with bootConfig := true }.sioComplete

def sioEnableUdpstream (s : SioFuji) : SioFuji :=
  s.withFrame around (around.memory 64) fun _ s => s.sioComplete

/-! ## Hosts and disks -/

/-- The host of a slot mounts. -/
def mountAt (hostSlot : UInt8) (s : SioFuji) : Bool × SioFuji :=
  if h : hostSlot.toNat < MAX_HOSTS then
    let (mounted, host) := (s.hosts ⟨hostSlot.toNat, h⟩).mount around.outside
    (mounted, s.setHost ⟨hostSlot.toNat, h⟩ host)
  else (false, s)

def sioMountHost (s : SioFuji) : SioFuji :=
  if frame.aux1.toNat < MAX_HOSTS then
    let (mounted, s) := s.mountAt around frame.aux1
    if ¬ mounted then s.onError else s.onOk
  else s.onError

def sioDiskImageMount (s : SioFuji) : SioFuji :=
  if h : frame.aux1.toNat < MAX_DISK_DEVICES then
    if (s.hostSlots ⟨frame.aux1.toNat, h⟩).toNat < MAX_HOSTS then
      if around.imageOpens frame.aux1.toNat then
        if around.imageMounts frame.aux1.toNat then { s with bootConfig := false }.onOk else s.fault
      else s.onError
    else s.onError
  else s.onError

/-- The loop of `mount_all`, which is left when a slot cannot be mounted. The host slot of a disk is
an index that is not checked. -/
def mountSlots : List (Fin MAX_DISK_DEVICES) → SioFuji → Option (Bool × SioFuji)
  | [], s => some (true, s)
  | i :: rest, s =>
    if s.hostSlots i ≠ INVALID_HOST_SLOT then
      if (s.hostSlots i).toNat < MAX_HOSTS then
        let (mounted, s) := s.mountAt around (s.hostSlots i)
        if ¬ mounted then some (false, s)
        else if ¬ around.imageOpens i then some (false, s)
        else if ¬ around.imageMounts i then none
        else mountSlots rest { s with bootConfig := false }
      else none
    else mountSlots rest s

def mountAll (s : SioFuji) : SioFuji :=
  match mountSlots around (List.finRange MAX_DISK_DEVICES) s with
  | none => s.fault
  | some (false, s) => s.onError
  | some (true, s) => { s with bootConfig := false }.onOk

def sioDiskImageUmount (s : SioFuji) : SioFuji :=
  if h : frame.aux1.toNat < MAX_DISK_DEVICES then
    (s.setSlot ⟨frame.aux1.toNat, h⟩ INVALID_HOST_SLOT Slots.DISK_ACCESS_MODE_READ).onOk
  else s.onError

def sioNewDisk (s : SioFuji) : SioFuji :=
  s.withFrame around (around.memory (6 + MAX_FILENAME_LEN)) fun newDisk s =>
    let hostSlot := newDisk.getD 4 0
    let deviceSlot := newDisk.getD 5 0
    if h : deviceSlot.toNat < MAX_DISK_DEVICES ∧ hostSlot.toNat < MAX_HOSTS then
      let s := s.setSlot ⟨deviceSlot.toNat, h.1⟩ hostSlot DISK_ACCESS_MODE_WRITE
      if around.fileExists then s.sioError
      else if ¬ around.newDiskOpens then s.sioError
      else if ¬ around.newDiskWritten then s.sioError
      else s.sioComplete
    else s.sioError

/-- `umount` is true where it is successful. -/
def sioUnmountHost (s : SioFuji) : SioFuji :=
  let hostSlot := frame.aux1 - 1
  if h : hostSlot.toNat < MAX_HOSTS then
    let s := (List.finRange MAX_DISK_DEVICES).foldl (fun s i =>
      if s.hostSlots i = hostSlot then
        s.setSlot i INVALID_HOST_SLOT Slots.DISK_ACCESS_MODE_READ
      else s) s
    let (unmounted, host) := (s.hosts ⟨hostSlot.toNat, h⟩).umount
    let s := s.setHost ⟨hostSlot.toNat, h⟩ host
    if unmounted then s.sioError else s.sioComplete
  else s.sioError

def sioReadHostSlots (s : SioFuji) : SioFuji :=
  s.busToComputer ((List.finRange MAX_HOSTS).flatMap fun i =>
    let hostname := (s.hosts i).val.hostname.take (MAX_HOSTNAME_LEN - 1)
    zeroed MAX_HOSTNAME_LEN (hostname.map fun c => UInt8.ofNat c.toNat)) false

/-- The name in a slot, up to the NUL behind it. -/
def hostnameIn (hostSlots : List UInt8) (i : Fin MAX_HOSTS) : List Char :=
  ((hostSlots.drop (i * MAX_HOSTNAME_LEN)).takeWhile (· ≠ 0)).map fun c => Char.ofNat c.toNat

/-- The hosts get their names one after the other. -/
def setHostnames (hostname : Fin MAX_HOSTS → List Char) :
    List (Fin MAX_HOSTS) → SioFuji → Option SioFuji
  | [], s => some s
  | i :: rest, s =>
    match (s.hosts i).setHostname (hostname i) with
    | none => none
    | some host => setHostnames hostname rest (s.setHost i host)

def renameHosts (hostSlots : List UInt8) (s : SioFuji) : SioFuji :=
  match setHostnames (hostnameIn hostSlots) (List.finRange MAX_HOSTS) s with
  | none => s.fault
  | some s => s.sioComplete

def sioWriteHostSlots (s : SioFuji) : SioFuji :=
  s.withFrame around (around.memory (MAX_HOSTS * MAX_HOSTNAME_LEN)) renameHosts

def sioSetHostPrefix (s : SioFuji) : SioFuji :=
  s.withFrame around (around.memory MAX_FILENAME_LEN) fun _ s =>
    if frame.aux1.toNat < MAX_HOSTS then s.sioComplete else s.sioError

def sioGetHostPrefix (s : SioFuji) : SioFuji :=
  if frame.aux1.toNat < MAX_HOSTS then
    s.busToComputer (zeroed MAX_HOST_PREFIX_LEN (around.hostPrefix frame.aux1)) false
  else s.sioError

def sioReadDeviceSlots (s : SioFuji) : SioFuji :=
  if frame.aux1 = READ_DEVICE_SLOTS_DISKS1 then
    s.busToComputer ((List.finRange MAX_DISK_DEVICES).flatMap fun i =>
      [s.hostSlots i, s.accessModes i] ++ zeroed MAX_DISPLAY_FILENAME_LEN (around.diskBasename i)) false
  else s.sioError

/-- Each slot has two bytes and a name. -/
def sioWriteDeviceSlots (s : SioFuji) : SioFuji :=
  s.withFrame around (around.memory (MAX_DISK_DEVICES * (2 + MAX_DISPLAY_FILENAME_LEN)))
    fun diskSlots s =>
      let size := 2 + MAX_DISPLAY_FILENAME_LEN
      { s with
        hostSlots := fun i => diskSlots.getD (i * size) 0
        accessModes := fun i => diskSlots.getD (i * size + 1) 0 }.sioComplete

def sioSetDeviceFilename (s : SioFuji) : SioFuji :=
  s.withFrame around (around.memory MAX_FILENAME_LEN) fun _ s =>
    if h : frame.aux1.toNat < MAX_DISK_DEVICES then
      (s.setSlot ⟨frame.aux1.toNat, h⟩ (frame.aux2 >>> 4) (frame.aux2 &&& 0x0F)).sioComplete
    else s.sioError

/-- Behind the last slot, the name is what is there in memory. -/
def sioGetDeviceFilename (s : SioFuji) : SioFuji :=
  let err := frame.aux1 > 7
  s.busToComputer (zeroed MAX_FILENAME_LEN (around.diskFilename frame.aux1)) err

def sioCopyFile (s : SioFuji) : SioFuji :=
  if ¬ around.mallocSucceeds then s.sioError
  else s.withFrame around (List.replicate 256 0) fun csBuf s =>
    let copySpec := csBuf.takeWhile (· ≠ 0)
    if 0x7C ∉ copySpec then s.sioError
    else if frame.aux1 < 1 ∨ frame.aux1 > 8 then s.sioError
    else if frame.aux2 < 1 ∨ frame.aux2 > 8 then s.sioError
    else
      let s := (s.mountAt around (frame.aux1 - 1)).2
      let s := (s.mountAt around (frame.aux2 - 1)).2
      if ¬ around.sourceOpens then s.sioError
      else if ¬ around.destOpens then s.sioError
      else if around.copyFails then s.sioError
      else s.sioComplete

/-! ## Directories -/

def sioOpenDirectory (s : SioFuji) : SioFuji :=
  s.withFrame around (around.memory 256) fun _ s =>
    if h : frame.aux1.toNat < MAX_HOSTS then
      if around.dirOpens then
        { s with currentOpenDirectorySlot := some ⟨frame.aux1.toNat, h⟩ }.sioComplete
      else { s with currentOpenDirectorySlot := none }.sioError
    else s.sioError

/-- The host of the open directory is asked for the next entry, and so many bytes are returned. -/
def readDirectory (len : Nat) (bytes : List UInt8) (s : SioFuji) : SioFuji :=
  match s.currentOpenDirectorySlot with
  | none => s.sioError
  | some slot =>
    match (s.hosts slot).val.dirNextfile with
    | .error _ => s.fault
    | .ok _ => s.busToComputer (zeroed len bytes) false

def sioReadDirectoryBlock (s : SioFuji) : SioFuji :=
  let responseMax := ((frame.aux2 &&& 0x07).toNat + 1) * 256
  s.readDirectory responseMax around.directoryBlock

def sioReadDirectoryEntry (s : SioFuji) : SioFuji :=
  if frame.aux2 &&& 0xC0 = 0xC0 then s.sioReadDirectoryBlock around frame
  else
    let maxlen := frame.aux1.toNat
    s.readDirectory maxlen around.directoryEntry

def sioGetDirectoryPosition (s : SioFuji) : SioFuji :=
  if s.currentOpenDirectorySlot = none then s.sioError
  else
    let pos := around.dirTell
    if pos = FNFS_INVALID_DIRPOS then s.sioError
    else s.busToComputer [lobyte pos.toNat, hibyte pos.toNat] false

def sioSetDirectoryPosition (s : SioFuji) : SioFuji :=
  if s.currentOpenDirectorySlot = none then s.sioError
  else if ¬ around.dirSeek then s.sioError
  else s.sioComplete

def sioCloseDirectory (s : SioFuji) : SioFuji := { s with currentOpenDirectorySlot := none }.sioComplete

/-! ## Application keys -/

/-- The key is received where the current one is kept. -/
def sioOpenAppKey (s : SioFuji) : SioFuji :=
  let ((buf, ck), s) := s.busToPeripheral around s.currentAppkey.toBytes
  let s := { s with currentAppkey := .ofBytes buf }
  if sioChecksum buf ≠ ck then s.sioError
  else if ¬ around.sdRunning then s.sioError
  else if s.currentAppkey.creator = 0 ∨ s.currentAppkey.mode = APPKEYMODE_INVALID then s.sioError
  else s.sioComplete

def closedKey (s : SioFuji) : SioFuji :=
  { s with currentAppkey := { s.currentAppkey with creator := 0, mode := APPKEYMODE_INVALID } }

def sioCloseAppKey (s : SioFuji) : SioFuji := s.closedKey.sioComplete

/-- After a short write there is a second answer. -/
def sioWriteAppKey (s : SioFuji) : SioFuji :=
  let keylen := u16 frame.aux1 frame.aux2
  let ((value, ck), s) := s.busToPeripheral around (around.memory MAX_APPKEY_LEN)
  if sioChecksum value ≠ ck then s
  else if s.currentAppkey.creator = 0 ∨ s.currentAppkey.mode ≠ APPKEYMODE_WRITE then s.sioError
  else if ¬ around.sdRunning then s.sioError
  else
    let s := s.closedKey
    if ¬ around.keyOpens then s.sioError
    else
      let count := around.keyWritten keylen
      let s := if count ≠ keylen then s.sioError else s
      s.sioComplete

def sioReadAppKey (s : SioFuji) : SioFuji :=
  let response := zeroed (2 + MAX_APPKEY_LEN) []
  if ¬ around.sdRunning then s.busToComputer response true
  else if s.currentAppkey.creator = 0 ∨ s.currentAppkey.mode ≠ APPKEYMODE_READ then
    s.busToComputer response true
  else if ¬ around.keyOpens then s.busToComputer response true
  else
    let value := around.keyRead.take MAX_APPKEY_LEN
    s.busToComputer (zeroed (2 + MAX_APPKEY_LEN)
      ([lobyte value.length, hibyte value.length] ++ value)) false

/-! ## BASE64 and hashes -/

/-- The input is taken whether its checksum is right or not. -/
def takeInput (s : SioFuji) : SioFuji :=
  let len := u16 frame.aux1 frame.aux2
  if len = 0 then s.sioError
  else if ¬ around.mallocSucceeds then s.sioError
  else
    let ((p, _), s) := s.busToPeripheral around (around.memory len)
    { s with base64Buffer := s.base64Buffer ++ p }.sioComplete

def sioBase64EncodeInput (s : SioFuji) : SioFuji := s.takeInput around frame

def sioBase64DecodeInput (s : SioFuji) : SioFuji := s.takeInput around frame

def sioHashInput (s : SioFuji) : SioFuji := s.takeInput around frame

def compute (f : List UInt8 → Option (List UInt8)) (s : SioFuji) : SioFuji :=
  match f s.base64Buffer with
  | none => s.sioError
  | some p => { s with base64Buffer := p }.sioComplete

def sioBase64EncodeCompute (s : SioFuji) : SioFuji := s.compute around.base64Encode

def sioBase64DecodeCompute (s : SioFuji) : SioFuji := s.compute around.base64Decode

/-- An error does not end the function. -/
def sioBase64EncodeLength (s : SioFuji) : SioFuji :=
  let l := s.base64Buffer.length
  let s := if l = 0 then s.busToComputer (le32 l) true else s
  s.busToComputer (le32 l) false

def sioBase64DecodeLength (s : SioFuji) : SioFuji :=
  let l := s.base64Buffer.length
  if l = 0 then s.busToComputer (le32 l) true else s.busToComputer (le32 l) false

def giveOutput (l : Nat) (s : SioFuji) : SioFuji :=
  { s with base64Buffer := s.base64Buffer.drop l }.busToComputer (s.base64Buffer.take l) false

/-- Where it refuses, nothing is sent. -/
def sioBase64EncodeOutput (s : SioFuji) : SioFuji :=
  let l := u16 frame.aux1 frame.aux2
  if l = 0 then s
  else if l > s.base64Buffer.length then s
  else if ¬ around.mallocSucceeds then s
  else s.giveOutput l

def sioBase64DecodeOutput (s : SioFuji) : SioFuji :=
  let l := u16 frame.aux1 frame.aux2
  if l = 0 then s.sioError
  else if l > s.base64Buffer.length then s.sioError
  else if ¬ around.mallocSucceeds then s.sioError
  else s.giveOutput l

/-- The mode is a `char`, the low byte of `aux`. -/
def sioHashCompute (s : SioFuji) : SioFuji :=
  let s := { s with hashMode := frame.aux1 }
  let s := match s.hashMode.toNat with
    | 1 => { s with sha1Output := around.sha1 s.base64Buffer }
    | 2 => { s with sha256Output := around.sha256 s.base64Buffer }
    | 3 => { s with sha512Output := around.sha512 s.base64Buffer }
    | _ => s
  { s with base64Buffer := [] }.sioComplete

/-- The length of the hash of a mode. -/
def hashSize (hashMode : UInt8) : Nat :=
  match hashMode.toNat with
  | 0 => 16
  | 1 => 20
  | 2 => 32
  | 3 => 64
  | _ => 0

/-- For hex output the length is not doubled: `m` is. -/
def sioHashLength (s : SioFuji) : SioFuji := s.busToComputer [UInt8.ofNat (hashSize s.hashMode)] false

def hashOf (s : SioFuji) : List UInt8 :=
  match s.hashMode.toNat with
  | 0 => s.md5Output
  | 1 => s.sha1Output
  | 2 => s.sha256Output
  | 3 => s.sha512Output
  | _ => []

/-- `%02x`. -/
def hex (b : UInt8) : List UInt8 :=
  let digit (n : Nat) := UInt8.ofNat (if n < 10 then 0x30 + n else 0x57 + n)
  [digit (b.toNat / 16), digit (b.toNat % 16)]

def sioHashOutput (s : SioFuji) : SioFuji :=
  let m := u16 frame.aux1 frame.aux2
  let hash := zeroed (hashSize s.hashMode) s.hashOf
  let olen := if m = 1 then hashSize s.hashMode * 2 else hashSize s.hashMode
  let o := if m = 0 then hash else if m = 1 then hash.flatMap hex else []
  s.busToComputer (zeroed olen o) false

/-! ## `sio_process` -/

/-- The commands that a data frame follows are acknowledged late. -/
def lateAck : FujiCommand → Bool
  | .setSsid | .openDirectory | .writeHostSlots | .writeDeviceSlots | .newDisk | .setDeviceFullpath
  | .setHostPrefix | .writeAppkey | .openAppkey | .copyFile | .enableUdpstream | .base64EncodeInput
  | .base64DecodeInput | .hashInput => true
  | _ => false

/-- The handler of a command. -/
def handle : FujiCommand → SioFuji → SioFuji
  | .hsioIndex, s => s.onBus Bus.sioHighSpeed
  | .setHsioIndex, s => s.sioSetHsioIndex frame
  | .status, s => s.sioStatus
  | .reset, s => s.sioResetFujinet
  | .scanNetworks, s => s.sioNetScanNetworks around
  | .getScanResult, s => s.sioNetScanResult around frame
  | .setSsid, s => s.sioNetSetSsid around
  | .getSsid, s => s.sioNetGetSsid around
  | .getWifistatus, s => s.sioNetGetWifiStatus around
  | .mountHost, s => s.sioMountHost around frame
  | .mountImage, s => s.sioDiskImageMount around frame
  | .openDirectory, s => s.sioOpenDirectory around frame
  | .readDirEntry, s => s.sioReadDirectoryEntry around frame
  | .closeDirectory, s => s.sioCloseDirectory
  | .getDirectoryPosition, s => s.sioGetDirectoryPosition around
  | .setDirectoryPosition, s => s.sioSetDirectoryPosition around
  | .readHostSlots, s => s.sioReadHostSlots
  | .writeHostSlots, s => s.sioWriteHostSlots around
  | .readDeviceSlots, s => s.sioReadDeviceSlots around frame
  | .writeDeviceSlots, s => s.sioWriteDeviceSlots around
  | .getWifiEnabled, s => s.sioNetGetWifiEnabled around
  | .unmountImage, s => s.sioDiskImageUmount frame
  | .getAdapterconfig, s => s.sioGetAdapterConfig around frame
  | .newDisk, s => s.sioNewDisk around
  | .unmountHost, s => s.sioUnmountHost frame
  | .setDeviceFullpath, s => s.sioSetDeviceFilename around frame
  | .setHostPrefix, s => s.sioSetHostPrefix around frame
  | .getHostPrefix, s => s.sioGetHostPrefix around frame
  | .setSioExternalClock, s => s.sioSetSioExternalClock frame
  | .writeAppkey, s => s.sioWriteAppKey around frame
  | .readAppkey, s => s.sioReadAppKey around
  | .openAppkey, s => s.sioOpenAppKey around
  | .closeAppkey, s => s.sioCloseAppKey
  | .getDeviceFullpath, s => s.sioGetDeviceFilename around frame
  | .configBoot, s => s.sioSetBootConfig frame
  | .copyFile, s => s.sioCopyFile around frame
  | .mountAll, s => s.mountAll around
  | .setBootMode, s => s.sioSetBootMode around frame
  | .enableUdpstream, s => s.sioEnableUdpstream around
  | .base64EncodeInput, s => s.sioBase64EncodeInput around frame
  | .base64EncodeCompute, s => s.sioBase64EncodeCompute around
  | .base64EncodeLength, s => s.sioBase64EncodeLength
  | .base64EncodeOutput, s => s.sioBase64EncodeOutput around frame
  | .base64DecodeInput, s => s.sioBase64DecodeInput around frame
  | .base64DecodeCompute, s => s.sioBase64DecodeCompute around
  | .base64DecodeLength, s => s.sioBase64DecodeLength
  | .base64DecodeOutput, s => s.sioBase64DecodeOutput around frame
  | .hashInput, s => s.sioHashInput around frame
  | .hashCompute, s => s.sioHashCompute around frame
  | .hashLength, s => s.sioHashLength
  | .hashOutput, s => s.sioHashOutput frame

/-- `sio_process`. -/
def sioProcess (s : SioFuji) : SioFuji :=
  match FujiCommand.ofCode frame.comnd with
  | none => s.onBus Bus.sioNak
  | some c =>
    handle around frame c (s.onBus (if lateAck c then Bus.sioLateAck else Bus.sioAck))

end

end SioFuji

end FujiNet.Fuji.Commands
