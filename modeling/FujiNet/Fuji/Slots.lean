import Mathlib.Logic.Function.Basic
import FujiNet.Config.FnConfig
import FujiNet.Control.Machine
import FujiNet.Control.Ownership

/-!
# Drive slots

The Fuji device keeps eight disk slots. A slot names a file on a host, and when it is mounted it holds
the file's handle, which the drive of the slot serves through its medium, or the cassette if the file
is a tape. The commands about slots are embedded with all indices that they use into the two arrays;
a call for a host, or a copy from a slot, that is not there ends the program.

What the hosts and the media answer is part of a command. A frame is `none` when its checksum is wrong.
-/

namespace FujiNet.Fuji.Slots

open Text

def MAX_HOSTS : Nat := 8

def MAX_DISK_DEVICES : Nat := 8

def INVALID_HOST_SLOT : UInt8 := 0xFF

def DISK_ACCESS_MODE_READ : UInt8 := 1

def DISK_ACCESS_MODE_WRITE : UInt8 := 2

def MAX_FILENAME_LEN : Nat := 256

inductive MediaType
  | unknown | atr | atx | xex | cas | wav
deriving DecidableEq, Repr

/-- The types that are for the cassette. -/
def MediaType.IsTape (t : MediaType) : Prop := t = .cas ∨ t = .wav

instance (t : MediaType) : Decidable t.IsTape := inferInstanceAs (Decidable (_ ∨ _))

/-- `discover_disktype`. -/
def discoverDisktype (filename : Str) : MediaType :=
  let l := filename.length
  if l > 4 ∧ filename[l - 4]? = some '.' then
    let ext := filename.drop (l - 3)
    if strcasecmp ext "XEX".toList then .xex
    else if strcasecmp ext "COM".toList then .xex
    else if strcasecmp ext "BIN".toList then .xex
    else if strcasecmp ext "ATR".toList then .atr
    else if strcasecmp ext "ATX".toList then .atx
    else if strcasecmp ext "CAS".toList then .cas
    else if strcasecmp ext "WAV".toList then .wav
    else .unknown
  else .unknown

/-- A medium in a drive. One that did not take its image has no type and no handle. -/
structure Medium where
  type : MediaType := .unknown
  fileh : Option Nat := none
deriving DecidableEq, Repr

/-- `sioDisk`: `_disk`, `device_active` and the device id. -/
structure SioDisk where
  disk : Option Medium := none
  deviceActive : Bool := false
  id : UInt8
deriving DecidableEq, Repr

structure FujiDisk where
  fileh : Option Nat := none
  accessMode : UInt8 := DISK_ACCESS_MODE_READ
  diskType : MediaType := .unknown
  hostSlot : UInt8 := INVALID_HOST_SLOT
  filename : Str := []
  diskDev : SioDisk
deriving DecidableEq, Repr

namespace FujiDisk

/-- `reset`. -/
def reset (d : FujiDisk) : FujiDisk :=
  { d with
    hostSlot := INVALID_HOST_SLOT, filename := [], fileh := none
    accessMode := DISK_ACCESS_MODE_READ, diskType := .unknown }

/-- `reset` with arguments; the name is not taken. -/
def resetTo (hostslot mode : UInt8) (d : FujiDisk) : FujiDisk :=
  { d with fileh := none, diskType := .unknown, hostSlot := hostslot, accessMode := mode }

end FujiDisk

/-- What `sioCassette` knows about its file. -/
structure CassetteDev where
  file : Option Nat := none
  mounted : Bool := false
  active : Bool := false
  record : Bool := false
deriving DecidableEq, Repr

inductive SlotUse
  | host (i : Nat)
  | disk (i : Nat)
deriving DecidableEq, Repr

def SlotUse.InRange : SlotUse → Prop
  | host i => i < MAX_HOSTS
  | disk i => i < MAX_DISK_DEVICES

/-- `sioFuji`, the file handles that were opened, and the indices that were used. -/
structure SioFuji where
  disks : Fin MAX_DISK_DEVICES → FujiDisk
  cassette : CassetteDev := {}
  currentOpenDirectorySlot : Int := -1
  files : Objects := {}
  uses : List SlotUse := []

/-- What opening and mounting an image comes to: the name that is in the slot afterwards, whether the
file could be opened, and whether the medium took it. -/
structure Opening where
  filename : Str
  opened : Bool
  mounted : Bool

/-- The same for a slot when all are mounted, behind the mounting of its host. -/
structure HostOpening extends Opening where
  hostMounted : Bool

structure NewDisk where
  hostSlot : UInt8
  deviceSlot : UInt8
  filename : Str

/-- The members of a device slot frame that are used. -/
structure DeviceSlot where
  hostSlot : UInt8
  mode : UInt8

inductive Command
  | mountImage (slot : UInt8) (o : Opening)
  | mountAll (o : Fin MAX_DISK_DEVICES → HostOpening)
  | unmountImage (slot : UInt8)
  | unmountHost (aux1 : UInt8) (unmounted : Bool)
  | newDisk (frame : Option NewDisk) (fileExists opened written : Bool)
  | writeDeviceSlots (frame : Option (Fin MAX_DISK_DEVICES → DeviceSlot))
  | setDeviceFilename (aux1 aux2 : UInt8) (frame : Option Str)
  | getDeviceFilename (aux1 : UInt8)
  | imageRotate
  | openDirectory (aux1 : UInt8) (frame : Option Str) (opened : Bool)
  | setHostPrefix (aux1 : UInt8) (frame : Option Str)
  | copyFile (aux1 aux2 : UInt8) (frame : Option Str)

/-- The last thing that is sent; `imageRotate` is a call that sends nothing. -/
inductive Answer
  | complete | error | nothing
deriving DecidableEq, Repr

namespace SioFuji

variable (s : SioFuji)

def use (u : SlotUse) : SioFuji := { s with uses := u :: s.uses }

def setDisk (i : Fin MAX_DISK_DEVICES) (f : FujiDisk → FujiDisk) : SioFuji :=
  { s with disks := Function.update s.disks i (f (s.disks i)) }

/-- The loops that visit every slot. -/
def useDisks : SioFuji := { s with uses := (List.range MAX_DISK_DEVICES).map .disk ++ s.uses }

def useHosts : SioFuji := { s with uses := (List.range MAX_HOSTS).map .host ++ s.uses }

def close (h : Option Nat) : SioFuji :=
  { s with files := h.elim s.files fun h => s.files.delete h }

def setCassette (f : CassetteDev → CassetteDev) : SioFuji := { s with cassette := f s.cassette }

/-! ## The drive and the cassette -/

/-- The destructor of the medium closes its file. -/
def deleteMedium (i : Fin MAX_DISK_DEVICES) : SioFuji :=
  let medium := (s.disks i).diskDev.disk
  (s.close (medium.bind Medium.fileh)).setDisk i fun d =>
    { d with diskDev := { d.diskDev with disk := none } }

/-- The drive becomes active with a medium, whether it has taken its image or not. -/
def insertMedium (i : Fin MAX_DISK_DEVICES) (medium : Medium) : SioFuji :=
  s.setDisk i fun d => { d with
    diskType := medium.type
    diskDev := { d.diskDev with disk := some medium, deviceActive := true } }

/-- `sioDisk::mount`, and the type in the slot. `mounted` says whether the medium takes the image. -/
def mountDisk (i : Fin MAX_DISK_DEVICES) (h : Nat) (mounted : Bool) : SioFuji :=
  let s := s.deleteMedium i
  let type := discoverDisktype (s.disks i).filename
  match type with
  | .cas | .wav =>
    (s.setDisk i fun d => { d with diskType := type }).setCassette fun c => { c with
      file := some h, mounted := true }
  | .xex => s.insertMedium i (if mounted then { type := .xex, fileh := some h } else {})
  | _ => s.insertMedium i (if mounted then { type := .atr, fileh := some h } else {})

/-- `sio_disable_cassette`. -/
def disableCassette : SioFuji :=
  if s.cassette.active then
    let s := s.setCassette fun c => { c with active := false }
    if s.cassette.record then (s.close s.cassette.file).setCassette fun c => { c with file := none }
    else s
  else s

/-- The slot and its drive are emptied. -/
def unmountSlot (i : Fin MAX_DISK_DEVICES) : SioFuji :=
  let s := s.deleteMedium i
  let s :=
    if (s.disks i).diskType.IsTape then
      (s.setCassette fun c => { c with mounted := false }).disableCassette
    else s
  s.setDisk i fun d => { d.reset with diskDev := { d.diskDev with deviceActive := false } }

/-- `disk.fileh = host.filehandler_open(…)`. -/
def openImage (i : Fin MAX_DISK_DEVICES) (o : Opening) : SioFuji :=
  { s.setDisk i fun d => { d with
      fileh := if o.opened then some s.files.make.1 else none, filename := o.filename } with
    files := if o.opened then s.files.make.2 else s.files }

/-! ## Commands -/

/-- `sio_disk_image_mount`. -/
def diskImageMount (slot : UInt8) (o : Opening) : Answer × SioFuji :=
  if h : slot.toNat < MAX_DISK_DEVICES then
    let i : Fin MAX_DISK_DEVICES := ⟨slot.toNat, h⟩
    let s := s.use (.disk i)
    let host := (s.disks i).hostSlot
    if host.toNat < MAX_HOSTS then
      let s := (s.use (.host host.toNat)).openImage i o
      match (s.disks i).fileh with
      | none => (.error, s)
      | some h => (.complete, s.mountDisk i h o.mounted)
    else (.error, s)
  else (.error, s)

/-- The loop of `mount_all`: the host is looked up before the slot is tested. -/
def mountAllLoop (o : Fin MAX_DISK_DEVICES → HostOpening) :
    List (Fin MAX_DISK_DEVICES) → SioFuji → Except SlotUse (Answer × SioFuji)
  | [], s => .ok (.complete, s)
  | i :: rest, s =>
    let host := (s.disks i).hostSlot
    let s := (s.use (.disk i)).use (.host host.toNat)
    if host ≠ INVALID_HOST_SLOT then
      if host.toNat < MAX_HOSTS then
        if (o i).hostMounted then
          let s := s.openImage i (o i).toOpening
          match (s.disks i).fileh with
          | none => .ok (.error, s)
          | some h => mountAllLoop o rest (s.mountDisk i h (o i).mounted)
        else .ok (.error, s)
      else .error (.host host.toNat)
    else mountAllLoop o rest s

def mountAll (o : Fin MAX_DISK_DEVICES → HostOpening) : Except SlotUse (Answer × SioFuji) :=
  mountAllLoop o (List.finRange MAX_DISK_DEVICES) s

/-- `sio_disk_image_umount`. -/
def diskImageUmount (slot : UInt8) : Answer × SioFuji :=
  if h : slot.toNat < MAX_DISK_DEVICES then
    (.complete, (s.use (.disk slot.toNat)).unmountSlot ⟨slot.toNat, h⟩)
  else (.error, s)

/-- `sio_unmount_host`: an error if the host says that it was unmounted. -/
def unmountHost (aux1 : UInt8) (unmounted : Bool) : Answer × SioFuji :=
  let hostSlot := aux1 - 1
  if hostSlot.toNat < MAX_HOSTS then
    let s := (List.finRange MAX_DISK_DEVICES).foldl
      (fun s i => if (s.disks i).hostSlot = hostSlot then s.unmountSlot i else s) s.useDisks
    (if unmounted then .error else .complete, s.use (.host hostSlot.toNat))
  else (.error, s)

/-- `sio_new_disk`. -/
def newDisk (frame : Option NewDisk) (fileExists opened written : Bool) : Answer × SioFuji :=
  match frame with
  | none => (.error, s)
  | some d =>
    if h : d.deviceSlot.toNat < MAX_DISK_DEVICES ∧ d.hostSlot.toNat < MAX_HOSTS then
      let i : Fin MAX_DISK_DEVICES := ⟨d.deviceSlot.toNat, h.1⟩
      let s := ((s.use (.disk i)).use (.host d.hostSlot.toNat)).setDisk i fun disk => { disk with
        hostSlot := d.hostSlot, accessMode := DISK_ACCESS_MODE_WRITE, filename := d.filename }
      if fileExists then (.error, s)
      else
        let s := s.openImage i ⟨d.filename, opened, written⟩
        match (s.disks i).fileh with
        | none => (.error, s)
        | some h => (if written then .complete else .error, s.close (some h))
    else (.error, s)

/-- `sio_write_device_slots`. -/
def writeDeviceSlots (frame : Option (Fin MAX_DISK_DEVICES → DeviceSlot)) : Answer × SioFuji :=
  match frame with
  | none => (.error, s)
  | some slots =>
    (.complete, { s.useDisks.useHosts with
      disks := fun i => (s.disks i).resetTo (slots i).hostSlot (slots i).mode })

/-- `sio_set_device_filename`. -/
def setDeviceFilename (aux1 aux2 : UInt8) (frame : Option Str) : Answer × SioFuji :=
  match frame with
  | none => (.error, s)
  | some tmp =>
    if h : aux1.toNat < MAX_DISK_DEVICES then
      (.complete, ((s.use (.disk aux1.toNat)).setDisk ⟨aux1.toNat, h⟩ fun d => { d with
        filename := tmp, hostSlot := aux2 >>> 4, accessMode := aux2 &&& 0x0F }).useDisks.useHosts)
    else (.error, s)

/-- `sio_get_device_filename`: the name is copied before the answer says that there is none. -/
def getDeviceFilename (aux1 : UInt8) : Except SlotUse (Answer × SioFuji) :=
  let err := aux1.toNat > 7
  if aux1.toNat < MAX_DISK_DEVICES then
    .ok (if err then .error else .complete, s.use (.disk aux1.toNat))
  else .error (.disk aux1.toNat)

/-- The first slot without a file: the slot is looked at before its number is tested. -/
def findEmpty (count : Nat) (s : SioFuji) : Except SlotUse (Nat × SioFuji) :=
  if h : count < MAX_DISK_DEVICES then
    if (s.disks ⟨count, h⟩).fileh ≠ none then findEmpty (count + 1) (s.use (.disk count))
    else .ok (count, s.use (.disk count))
  else .error (.disk count)
termination_by MAX_DISK_DEVICES - count

/-- `image_rotate`: each drive takes the id of the one before it, the first that of the last. -/
def imageRotate : Except SlotUse (Answer × SioFuji) :=
  (findEmpty 0 s).map fun (count, s) =>
    if count > 1 then
      let id (n : Nat) := if h : n < MAX_DISK_DEVICES then (s.disks ⟨n, h⟩).diskDev.id else 0
      (.nothing, { s with
        uses := (List.range count).map .disk ++ s.uses
        disks := fun i => if i.val < count then
          { s.disks i with diskDev := { (s.disks i).diskDev with
            id := id (if i.val = 0 then count - 1 else i.val - 1) } } else s.disks i })
    else (.nothing, s)

/-- `sio_open_directory`. -/
def openDirectory (aux1 : UInt8) (frame : Option Str) (opened : Bool) :
    Except SlotUse (Answer × SioFuji) :=
  match frame with
  | none => .ok (.error, s)
  | some _ =>
    if aux1.toNat < MAX_HOSTS then do
      let s ← if s.currentOpenDirectorySlot ≠ -1 then
          if 0 ≤ s.currentOpenDirectorySlot ∧ s.currentOpenDirectorySlot < MAX_HOSTS then
            .ok { s.use (.host s.currentOpenDirectorySlot.toNat) with currentOpenDirectorySlot := -1 }
          else .error (.host s.currentOpenDirectorySlot.toNat)
        else .ok s
      let s := s.use (.host aux1.toNat)
      if opened then .ok (.complete, { s with currentOpenDirectorySlot := aux1.toNat })
      else .ok (.error, s)
    else .ok (.error, s)

/-- `sio_set_host_prefix`. -/
def setHostPrefix (aux1 : UInt8) (frame : Option Str) : Answer × SioFuji :=
  match frame with
  | none => (.error, s)
  | some _ =>
    if aux1.toNat < MAX_HOSTS then (.complete, s.use (.host aux1.toNat)) else (.error, s)

/-- `sio_copy_file`, as far as slots go. -/
def copyFile (aux1 aux2 : UInt8) (frame : Option Str) : Answer × SioFuji :=
  match frame with
  | none => (.error, s)
  | some csBuf =>
    if '|' ∉ cString csBuf then (.error, s)
    else if aux1 < 1 ∨ aux1 > 8 then (.error, s)
    else if aux2 < 1 ∨ aux2 > 8 then (.error, s)
    else (.complete, (s.use (.host (aux1 - 1).toNat)).use (.host (aux2 - 1).toNat))

/-- A command, answered. -/
def perform : Command → SioFuji → Except SlotUse (Answer × SioFuji)
  | .mountImage slot o, s => .ok (s.diskImageMount slot o)
  | .mountAll o, s => s.mountAll o
  | .unmountImage slot, s => .ok (s.diskImageUmount slot)
  | .unmountHost aux1 unmounted, s => .ok (s.unmountHost aux1 unmounted)
  | .newDisk frame fileExists opened written, s => .ok (s.newDisk frame fileExists opened written)
  | .writeDeviceSlots frame, s => .ok (s.writeDeviceSlots frame)
  | .setDeviceFilename aux1 aux2 frame, s => .ok (s.setDeviceFilename aux1 aux2 frame)
  | .getDeviceFilename aux1, s => s.getDeviceFilename aux1
  | .imageRotate, s => s.imageRotate
  | .openDirectory aux1 frame opened, s => s.openDirectory aux1 frame opened
  | .setHostPrefix aux1 frame, s => .ok (s.setHostPrefix aux1 frame)
  | .copyFile aux1 aux2 frame, s => .ok (s.copyFile aux1 aux2 frame)

end SioFuji

/-- A command as a step that may end the program. -/
def step (c : Command) (s : SioFuji) : Except SlotUse SioFuji := (SioFuji.perform c s).map Prod.snd

end FujiNet.Fuji.Slots
