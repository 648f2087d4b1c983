import FujiNet.Control.Machine
import FujiNet.Control.Ownership
import FujiNet.Data.Text
import FujiNet.Fuji.HostPrefix

/-!
# The file system of a host slot

A host slot has a type and a pointer to a file system, which are set by different functions. A call
is safe exactly if the pointer is there when the functions that look at the type only take it for
granted, and if a host is not mounted again after its file system was made but did not start.
-/

namespace FujiNet.Fuji

open Text Utils

def MAX_HOSTNAME_LEN : Nat := 32

inductive HostType
  | uninitialized | localHost | tnfs | smb | ftp
deriving DecidableEq

/-- What `_fs` points to: the global file system of the SD card, or one that was made. -/
inductive FsRef
  | fnSDFAT
  | made (id : Nat) (started : Bool)
deriving DecidableEq

structure FujiHost where
  type : HostType := .uninitialized
  fs : Option FsRef := none
  hostname : List Char := []
  pfx : List UInt8 := []
  objects : Objects := {}

/-- The methods of a file system that a host calls for its caller. -/
inductive Method
  | dirOpen (path : List UInt8)
  | dirRead
  | dirTell
  | dirSeek (pos : UInt16)
  | dirClose
  | exists' (path : List UInt8)
  | filehandlerOpen (path : Option (List UInt8))
  | remove (path : List UInt8)

/-- What a call gives its caller: its own value for a failure, or what the file system returns. -/
inductive Answer
  | refused
  | asked (method : Method)

/-- Undefined behaviour: `_fs` is null, points to a deleted file system, or is the global file system
and is deleted. -/
inductive Fault
  | null
  | dangling
  | global
deriving DecidableEq

/-- What the host finds when it mounts: whether `start` succeeds for a type and a name, and whether the
SD card is running. -/
structure Outside where
  start : HostType → List Char → Bool
  sdRunning : Bool

namespace FujiHost

/-- The file system that is used through `_fs`. -/
def pointee (h : FujiHost) : Except Fault FsRef :=
  match h.fs with
  | none => .error .null
  | some .fnSDFAT => .ok .fnSDFAT
  | some (.made id started) =>
    if id ∈ h.objects.deleted then .error .dangling else .ok (.made id started)

def ask (method : Method) (h : FujiHost) : Except Fault Answer := h.pointee.map fun _ => .asked method

/-- `cleanup`: the null pointer is only noticed by the call of `dir_close`, not by that of
`is_global`. -/
def cleanup (h : FujiHost) : Except Fault FujiHost :=
  h.pointee.map fun
    | .fnSDFAT => { h with fs := none, hostname := [] }
    | .made id _ => { h with fs := none, hostname := [], objects := h.objects.delete id }

def unmount (h : FujiHost) : Except Fault FujiHost := h.cleanup

def setType (type : HostType) (h : FujiHost) : Except Fault FujiHost :=
  match h.type with
  | .uninitialized => .ok { h with type }
  | .localHost | .tnfs | .smb | .ftp => h.cleanup.map fun h => { h with type }

def setHostname (hostname : List Char) (h : FujiHost) : Except Fault FujiHost :=
  let copy := fun h : FujiHost => { h with hostname := hostname.take (MAX_HOSTNAME_LEN - 1) }
  if h.type ≠ .uninitialized then
    if strncasecmp h.hostname hostname MAX_HOSTNAME_LEN then .ok h
    else (h.setType .uninitialized).map copy
  else .ok (copy h)

/-- `_fs != nullptr && _fs->running()`. -/
def running (outside : Outside) (h : FujiHost) : Except Fault Bool :=
  if h.fs = none then .ok false
  else
    h.pointee.map fun
      | .fnSDFAT => outside.sdRunning
      | .made _ started => started

def mountLocal (h : FujiHost) : Except Fault (Bool × FujiHost) :=
  if h.hostname ≠ "SD".toList then .ok (false, h)
  else if h.type = .localHost then .ok (true, h)
  else (h.setType .localHost).map fun h => (true, { h with fs := some .fnSDFAT })

/-- A new file system in `_fs`, and whether it starts. -/
def startNew (started : Bool) (h : FujiHost) : Bool × FujiHost :=
  (started, { h with fs := some (.made h.objects.make.1 started), objects := h.objects.make.2 })

/-- The part that `mount_tnfs`, `mount_smb` and `mount_ftp` share. -/
def mountRemote (outside : Outside) (type : HostType) (url : List Char → List Char) (h : FujiHost) :
    Except Fault (Bool × FujiHost) :=
  let fresh := fun h : FujiHost => h.startNew (outside.start type (url h.hostname))
  if h.type = type then
    (h.running outside).map fun running => if running then (true, h) else fresh h
  else (h.setType type).map fresh

def mountTnfs (outside : Outside) (h : FujiHost) : Except Fault (Bool × FujiHost) :=
  h.mountRemote outside .tnfs id

def mountSmb (outside : Outside) (h : FujiHost) : Except Fault (Bool × FujiHost) :=
  h.mountRemote outside .smb fun hostname => "smb".toList ++ hostname.drop 3

def mountFtp (outside : Outside) (h : FujiHost) : Except Fault (Bool × FujiHost) :=
  h.mountRemote outside .ftp id

def mount (outside : Outside) (h : FujiHost) : Except Fault (Bool × FujiHost) :=
  h.mountLocal.bind fun (mounted, h) =>
    if mounted then .ok (true, h)
    else if strncasecmp "smb://".toList h.hostname 6 then h.mountSmb outside
    else if strncasecmp "ftp://".toList h.hostname 6 then h.mountFtp outside
    else h.mountTnfs outside

def unmountTnfs (h : FujiHost) : Except Fault FujiHost :=
  if h.fs = none then .ok h
  else
    h.pointee.bind fun
      | .fnSDFAT => .error .global
      | .made id _ => .ok { h with fs := none, objects := h.objects.delete id }

def umount (h : FujiHost) : Except Fault (Bool × FujiHost) :=
  if h.type = .localHost then .ok (false, h) else h.unmountTnfs.map (true, ·)

def dirTell (h : FujiHost) : Except Fault Answer :=
  if h.fs = none then .ok .refused
  else if h.type = .uninitialized then .ok .refused
  else h.ask .dirTell

def dirSeek (pos : UInt16) (h : FujiHost) : Except Fault Answer :=
  if h.fs = none then .ok .refused
  else if h.type = .uninitialized then .ok .refused
  else h.ask (.dirSeek pos)

def dirOpen (path : List UInt8) (h : FujiHost) : Except Fault Answer :=
  if h.fs = none then .ok .refused
  else
    let realpath := utilConcatPaths none (some h.pfx) (some path) MAX_PATHLEN
    if realpath.1 = false then .ok .refused
    else if h.type = .uninitialized then .ok .refused
    else h.ask (.dirOpen (realpath.2.getD []))

/-- `dir_nextfile`: only the type is looked at. -/
def dirNextfile (h : FujiHost) : Except Fault Answer :=
  if h.type = .uninitialized then .ok .refused else h.ask .dirRead

def dirClose (h : FujiHost) : Except Fault Answer :=
  if h.type ≠ .uninitialized ∧ h.fs ≠ none then h.ask .dirClose else .ok .refused

def fileExists (path : List UInt8) (h : FujiHost) : Except Fault Answer :=
  if h.type = .uninitialized ∨ h.fs = none then .ok .refused
  else
    let realpath := utilConcatPaths none (some h.pfx) (some path) MAX_PATHLEN
    if realpath.1 = false then .ok .refused else h.ask (.exists' (realpath.2.getD []))

def filehandlerOpen (path : List UInt8) (fullpathlen : Nat) (h : FujiHost) : Except Fault Answer :=
  match Fuji.filehandlerOpen (decide (¬ (h.type = .uninitialized ∨ h.fs = none))) h.pfx path fullpathlen with
  | none => .ok .refused
  | some name => h.ask (.filehandlerOpen name)

def fileRemove (path : List UInt8) (h : FujiHost) : Except Fault Answer :=
  if h.type = .uninitialized ∨ h.fs = none then .ok .refused else h.ask (.remove path)

end FujiHost

inductive HostCall
  | setHostname (hostname : List Char)
  | setType (type : HostType)
  | mount (outside : Outside)
  | umount
  | unmount
  | dirOpen (path : List UInt8)
  | dirNextfile
  | dirTell
  | dirSeek (pos : UInt16)
  | dirClose
  | fileExists (path : List UInt8)
  | filehandlerOpen (path : List UInt8) (fullpathlen : Nat)
  | fileRemove (path : List UInt8)

/-- The host after a call. -/
def HostCall.after (call : HostCall) (h : FujiHost) : Except Fault FujiHost :=
  match call with
  | .setHostname hostname => h.setHostname hostname
  | .setType type => h.setType type
  | .mount outside => (h.mount outside).map (·.2)
  | .umount => h.umount.map (·.2)
  | .unmount => h.unmount
  | .dirOpen path => (h.dirOpen path).map fun _ => h
  | .dirNextfile => h.dirNextfile.map fun _ => h
  | .dirTell => h.dirTell.map fun _ => h
  | .dirSeek pos => (h.dirSeek pos).map fun _ => h
  | .dirClose => h.dirClose.map fun _ => h
  | .fileExists path => (h.fileExists path).map fun _ => h
  | .filehandlerOpen path fullpathlen => (h.filehandlerOpen path fullpathlen).map fun _ => h
  | .fileRemove path => (h.fileRemove path).map fun _ => h

namespace FujiHost

/-- The file system that was made for the host. -/
def owner (h : FujiHost) : Option Nat :=
  match h.fs with
  | some (.made id _) => some id
  | some .fnSDFAT | none => none

/-- Every file system that was made and replaced is deleted exactly once, and that of the host is
not. -/
def Tidy (h : FujiHost) : Prop := h.objects.Owned h.owner

/-- The type that the name asks for. -/
def wanted (h : FujiHost) : HostType :=
  if h.hostname = "SD".toList then .localHost
  else if strncasecmp "smb://".toList h.hostname 6 then .smb
  else if strncasecmp "ftp://".toList h.hostname 6 then .ftp
  else .tnfs

/-- A host with a type has a file system. -/
def Ready (h : FujiHost) : Prop := h.type ≠ .uninitialized → h.fs ≠ none

/-- The host has no file system of this type, or it runs; or the host may change to this type. -/
def MayMount (type : HostType) (h : FujiHost) : Prop :=
  if h.type = type then ∀ id, h.fs ≠ some (.made id false) else h.Ready

end FujiHost

/-- The call ends, and leaves the file systems as they are to be. -/
def HostCall.Safe (call : HostCall) (h : FujiHost) : Prop := ∃ h', call.after h = .ok h' ∧ h'.Tidy

/-- There is a file system where the function takes it for granted, and none is lost by a new
attempt to start one of the same type. -/
def HostCall.Guarded (call : HostCall) (h : FujiHost) : Prop :=
  match call with
  | .setType _ | .dirNextfile => h.Ready
  | .setHostname hostname => strncasecmp h.hostname hostname MAX_HOSTNAME_LEN = false → h.Ready
  | .unmount => h.fs ≠ none
  | .mount _ => h.MayMount h.wanted
  | _ => True

namespace FujiHost

/-- What holds of a host in a run of calls that are guarded. -/
structure Sound (h : FujiHost) : Prop where
  tidy : h.Tidy
  idle : h.type = .uninitialized → h.fs = none
  sdCard : h.fs = some .fnSDFAT → h.type = .localHost
  localHost : h.type = .localHost → ∀ id started, h.fs ≠ some (.made id started)

section Parts

variable {h : FujiHost}

theorem Sound.of_none (null : h.fs = none) (owned : h.objects.Owned none) : Sound h where
  tidy := by
    rw [Tidy, owner, null]
    exact owned
  idle := fun _ => null
  sdCard := fun held => nomatch null.symm.trans held
  localHost := fun _ _ _ held => nomatch null.symm.trans held

theorem owned_of_none (tidy : h.Tidy) (null : h.fs = none) : h.objects.Owned none := by
  rw [Tidy, owner, null] at tidy
  exact tidy

theorem pointee_eq (tidy : h.Tidy) {fs : FsRef} (held : h.fs = some fs) : h.pointee = .ok fs := by
  rw [Tidy, owner, held] at tidy
  rw [pointee, held]
  cases fs with
  | fnSDFAT => rfl
  | made id started => exact if_neg tidy.not_mem

theorem ask_eq (tidy : h.Tidy) (held : h.fs ≠ none) (method : Method) :
    h.ask method = .ok (.asked method) := by
  obtain ⟨fs, held⟩ := Option.ne_none_iff_exists'.mp held
  rw [ask, pointee_eq tidy held]
  rfl

theorem cleanup_null (null : h.fs = none) : h.cleanup = .error .null := by
  rw [cleanup, pointee, null]
  rfl

theorem cleanup_spec (tidy : h.Tidy) (held : h.fs ≠ none) :
    ∃ h', h.cleanup = .ok h' ∧ h'.fs = none ∧ h'.objects.Owned none := by
  obtain ⟨fs, held⟩ := Option.ne_none_iff_exists'.mp held
  have owned := tidy
  rw [Tidy, owner, held] at owned
  rw [cleanup, pointee_eq tidy held]
  cases fs with
  | fnSDFAT => exact ⟨_, rfl, rfl, owned⟩
  | made id started => exact ⟨_, rfl, rfl, owned.delete⟩

theorem setType_null (unready : ¬ h.Ready) (type : HostType) : h.setType type = .error .null := by
  obtain ⟨typed, null⟩ := Classical.not_imp.mp unready
  have clean := cleanup_null (not_not.mp null)
  rw [setType]
  cases kind : h.type with
  | uninitialized => exact absurd kind typed
  | localHost | tnfs | smb | ftp =>
      dsimp only
      rw [clean]
      rfl

theorem setType_spec (sound : h.Sound) (ready : h.Ready) (type : HostType) :
    ∃ h', h.setType type = .ok h' ∧ h'.type = type ∧ h'.fs = none ∧ h'.objects.Owned none := by
  rw [setType]
  cases kind : h.type with
  | uninitialized =>
      have null := sound.idle kind
      exact ⟨_, rfl, rfl, null, owned_of_none sound.tidy null⟩
  | localHost | tnfs | smb | ftp =>
      obtain ⟨h', clean, null, owned⟩ := cleanup_spec sound.tidy (ready (by rw [kind]; exact nofun))
      dsimp only
      rw [clean]
      exact ⟨_, rfl, rfl, null, owned⟩

theorem sound_startNew (owned : h.objects.Owned none)
    (typed : h.type ≠ .uninitialized) (remote : h.type ≠ .localHost) (started : Bool) :
    Sound (h.startNew started).2 where
  tidy := owned.make
  idle := fun kind => absurd kind typed
  sdCard := fun held => nomatch held
  localHost := fun kind => absurd kind remote

end Parts

section Mounting

variable {h : FujiHost} (outside : Outside)

/-- Another attempt with a file system that did not start loses it. -/
theorem not_tidy_startNew (tidy : h.Tidy) {id : Nat} {started started' : Bool}
    (held : h.fs = some (.made id started)) : ¬ Tidy (h.startNew started').2 := by
  rw [Tidy, owner, held] at tidy
  exact tidy.not_make

/-- What one of the three functions does that mount a remote host: it ends in a sound state if it is
guarded, and else it does not end in a tidy one. -/
theorem mountRemote_cases (sound : h.Sound) {type : HostType} (typed : type ≠ .uninitialized)
    (remote : type ≠ .localHost) (url : List Char → List Char) :
    (h.MayMount type ∧ ∃ answer, h.mountRemote outside type url = .ok answer ∧ answer.2.Sound) ∨
      (¬ h.MayMount type ∧ ∀ answer, h.mountRemote outside type url = .ok answer → ¬ answer.2.Tidy) := by
  rw [mountRemote, MayMount]
  by_cases same : h.type = type
  · rw [if_pos same, if_pos same, running]
    cases held : h.fs with
    | none =>
        refine .inl ⟨fun _ => nofun, _, rfl, ?_⟩
        exact sound_startNew (owned_of_none sound.tidy held) (same ▸ typed) (same ▸ remote) _
    | some fs =>
        rw [if_neg nofun, pointee_eq sound.tidy held]
        cases fs with
        | fnSDFAT => exact absurd (same.symm.trans (sound.sdCard held)) remote
        | made id started =>
            cases started with
            | true => exact .inl ⟨fun _ => nofun, _, rfl, sound⟩
            | false =>
                refine .inr ⟨fun none => none id rfl, fun answer done => ?_⟩
                exact Except.ok.inj done ▸ not_tidy_startNew sound.tidy held
  · rw [if_neg same, if_neg same]
    by_cases ready : h.Ready
    · obtain ⟨h', set, type', -, owned⟩ := setType_spec sound ready type
      refine .inl ⟨ready, _, by rw [set]; rfl, ?_⟩
      exact sound_startNew owned (type' ▸ typed) (type' ▸ remote) _
    · refine .inr ⟨ready, fun answer done => ?_⟩
      rw [setType_null ready] at done
      exact nomatch done

theorem mount_cases (sound : h.Sound) :
    (h.MayMount h.wanted ∧ ∃ answer, h.mount outside = .ok answer ∧ answer.2.Sound) ∨
      (¬ h.MayMount h.wanted ∧ ∀ answer, h.mount outside = .ok answer → ¬ answer.2.Tidy) := by
  rw [mount, mountLocal]
  by_cases sd : h.hostname = "SD".toList
  · have wanted : h.wanted = .localHost := if_pos sd
    rw [if_neg (not_not.mpr sd), wanted, MayMount]
    by_cases same : h.type = .localHost
    · rw [if_pos same, if_pos same]
      exact .inl ⟨fun id => sound.localHost same id false, _, rfl, sound⟩
    · rw [if_neg same, if_neg same]
      by_cases ready : h.Ready
      · obtain ⟨h', set, type', null, owned⟩ := setType_spec sound ready .localHost
        refine .inl ⟨ready, _, by rw [set]; rfl, ?_⟩
        exact ⟨owned, fun idle => (nomatch type'.symm.trans idle), fun _ => type', fun _ _ _ => nofun⟩
      · refine .inr ⟨ready, fun answer done => ?_⟩
        rw [setType_null ready] at done
        exact nomatch done
  · rw [if_pos sd]
    have wanted : h.wanted = if strncasecmp "smb://".toList h.hostname 6 then .smb
        else if strncasecmp "ftp://".toList h.hostname 6 then .ftp else .tnfs := if_neg sd
    rw [wanted]
    dsimp only [Except.bind]
    rw [if_neg Bool.false_ne_true]
    by_cases smb : strncasecmp "smb://".toList h.hostname 6
    · rw [if_pos smb, if_pos smb]
      exact mountRemote_cases outside sound (nofun : HostType.smb ≠ .uninitialized) nofun _
    rw [if_neg smb, if_neg smb]
    by_cases ftp : strncasecmp "ftp://".toList h.hostname 6
    · rw [if_pos ftp, if_pos ftp]
      exact mountRemote_cases outside sound (nofun : HostType.ftp ≠ .uninitialized) nofun _
    rw [if_neg ftp, if_neg ftp]
    exact mountRemote_cases outside sound (nofun : HostType.tnfs ≠ .uninitialized) nofun _

theorem umount_spec (sound : h.Sound) : ∃ answer, h.umount = .ok answer ∧ answer.2.Sound := by
  rw [umount]
  by_cases local' : h.type = .localHost
  · rw [if_pos local']
    exact ⟨_, rfl, sound⟩
  · rw [if_neg local', unmountTnfs]
    cases held : h.fs with
    | none => exact ⟨_, rfl, sound⟩
    | some fs =>
        rw [if_neg nofun, pointee_eq sound.tidy held]
        cases fs with
        | fnSDFAT => exact absurd (sound.sdCard held) local'
        | made id started =>
            have tidy := sound.tidy
            rw [Tidy, owner, held] at tidy
            exact ⟨_, rfl, .of_none rfl tidy.delete⟩

end Mounting

section Asking

variable {h : FujiHost}

/-- A function that looks at the pointer does not use it if it is null. -/
theorem dirTell_spec (tidy : h.Tidy) : ∃ answer, h.dirTell = .ok answer := by
  rw [dirTell]
  split_ifs with null
  · exact ⟨_, rfl⟩
  · exact ⟨_, rfl⟩
  · exact ⟨_, ask_eq tidy null _⟩

theorem dirSeek_spec (tidy : h.Tidy) (pos : UInt16) : ∃ answer, h.dirSeek pos = .ok answer := by
  rw [dirSeek]
  split_ifs with null
  · exact ⟨_, rfl⟩
  · exact ⟨_, rfl⟩
  · exact ⟨_, ask_eq tidy null _⟩

theorem dirOpen_spec (tidy : h.Tidy) (path : List UInt8) : ∃ answer, h.dirOpen path = .ok answer := by
  rw [dirOpen]
  dsimp only
  split_ifs with null
  · exact ⟨_, rfl⟩
  · exact ⟨_, rfl⟩
  · exact ⟨_, rfl⟩
  · exact ⟨_, ask_eq tidy null _⟩

theorem dirClose_spec (tidy : h.Tidy) : ∃ answer, h.dirClose = .ok answer := by
  rw [dirClose]
  split_ifs with there
  · exact ⟨_, ask_eq tidy there.2 _⟩
  · exact ⟨_, rfl⟩

theorem fileExists_spec (tidy : h.Tidy) (path : List UInt8) :
    ∃ answer, h.fileExists path = .ok answer := by
  rw [fileExists]
  dsimp only
  split_ifs with null
  · exact ⟨_, rfl⟩
  · exact ⟨_, rfl⟩
  · exact ⟨_, ask_eq tidy (not_or.mp null).2 _⟩

theorem filehandlerOpen_spec (tidy : h.Tidy) (path : List UInt8) (fullpathlen : Nat) :
    ∃ answer, h.filehandlerOpen path fullpathlen = .ok answer := by
  rw [filehandlerOpen]
  by_cases null : h.type = .uninitialized ∨ h.fs = none
  · rw [decide_eq_false (not_not.mpr null)]
    exact ⟨_, rfl⟩
  · split
    · exact ⟨_, rfl⟩
    · exact ⟨_, ask_eq tidy (not_or.mp null).2 _⟩

theorem fileRemove_spec (tidy : h.Tidy) (path : List UInt8) :
    ∃ answer, h.fileRemove path = .ok answer := by
  rw [fileRemove]
  split_ifs with null
  · exact ⟨_, rfl⟩
  · exact ⟨_, ask_eq tidy (not_or.mp null).2 _⟩

/-- `dir_nextfile` uses the pointer of every host with a type. -/
theorem dirNextfile_iff (sound : h.Sound) : (∃ answer, h.dirNextfile = .ok answer) ↔ h.Ready := by
  rw [dirNextfile]
  split_ifs with kind
  · exact iff_of_true ⟨_, rfl⟩ (fun typed => absurd kind typed)
  · constructor
    · rintro ⟨answer, done⟩ - null
      rw [ask, pointee, null] at done
      exact nomatch done
    · exact fun ready => ⟨_, ask_eq sound.tidy (ready kind) _⟩

end Asking

end FujiHost

open FujiHost

/-- A guarded call ends in a sound state; another one does not end in a tidy one. -/
theorem HostCall.cases (call : HostCall) {h : FujiHost} (sound : h.Sound) :
    (call.Guarded h ∧ ∃ h', call.after h = .ok h' ∧ h'.Sound) ∨
      (¬ call.Guarded h ∧ ∀ h', call.after h = .ok h' → ¬ h'.Tidy) := by
  have asked : ∀ {answer : Except Fault Answer}, (∃ a, answer = .ok a) →
      ∃ h', answer.map (fun _ => h) = .ok h' ∧ h'.Sound := by
    rintro _ ⟨a, rfl⟩
    exact ⟨h, rfl, sound⟩
  have typing : ∀ type (f : FujiHost → FujiHost), (∀ h', h'.fs = none → h'.objects.Owned none →
      (f h').Sound) → (h.Ready ∧ ∃ h', (h.setType type).map f = .ok h' ∧ h'.Sound) ∨
      (¬ h.Ready ∧ ∀ h', (h.setType type).map f = .ok h' → ¬ h'.Tidy) := by
    intro type f sound'
    by_cases ready : h.Ready
    · obtain ⟨h', set, -, null, owned⟩ := setType_spec sound ready type
      exact .inl ⟨ready, f h', by rw [set]; rfl, sound' h' null owned⟩
    · refine .inr ⟨ready, fun h' done => ?_⟩
      rw [setType_null ready] at done
      exact nomatch done
  cases call with
  | setHostname hostname =>
      rw [after, FujiHost.setHostname, Guarded]
      dsimp only
      by_cases typed : h.type ≠ .uninitialized
      · rw [if_pos typed]
        by_cases same : strncasecmp h.hostname hostname MAX_HOSTNAME_LEN = true
        · rw [if_pos same]
          exact .inl ⟨fun other => (nomatch same.symm.trans other), _, rfl, sound⟩
        · rw [if_neg same, forall_prop_of_true (Bool.eq_false_of_not_eq_true same)]
          exact typing _ _ fun h' null owned => .of_none null owned
      · rw [if_neg typed]
        have null := sound.idle (not_not.mp typed)
        refine .inl ⟨fun _ typed' => absurd typed' typed, _, rfl, ?_⟩
        exact .of_none null (owned_of_none sound.tidy null)
  | setType type =>
      have set := typing type id fun h' null owned => .of_none null owned
      rwa [Except.map_id] at set
  | mount outside =>
      rcases mount_cases outside sound with ⟨may, answer, done, sound'⟩ | ⟨may, lost⟩
      · exact .inl ⟨may, answer.2, by rw [after, done]; rfl, sound'⟩
      · refine .inr ⟨may, fun h' done => ?_⟩
        rw [after] at done
        cases mounted : h.mount outside with
        | error e =>
            rw [mounted] at done
            exact nomatch done
        | ok answer =>
            rw [mounted] at done
            exact Except.ok.inj done ▸ lost answer mounted
  | umount =>
      obtain ⟨answer, done, sound'⟩ := umount_spec sound
      exact .inl ⟨trivial, answer.2, by rw [after, done]; rfl, sound'⟩
  | unmount =>
      by_cases null : h.fs = none
      · refine .inr ⟨not_not.mpr null, fun h' done => ?_⟩
        rw [after, FujiHost.unmount, cleanup_null null] at done
        exact nomatch done
      · obtain ⟨h', clean, null', owned⟩ := cleanup_spec sound.tidy null
        exact .inl ⟨null, h', clean, .of_none null' owned⟩
  | dirNextfile =>
      by_cases ready : h.Ready
      · exact .inl ⟨ready, asked ((dirNextfile_iff sound).mpr ready)⟩
      · refine .inr ⟨ready, fun h' done => ?_⟩
        cases read : h.dirNextfile with
        | error e =>
            rw [after, read] at done
            exact nomatch done
        | ok answer => exact absurd ((dirNextfile_iff sound).mp ⟨answer, read⟩) ready
  | dirOpen path => exact .inl ⟨trivial, asked (dirOpen_spec sound.tidy path)⟩
  | dirTell => exact .inl ⟨trivial, asked (dirTell_spec sound.tidy)⟩
  | dirSeek pos => exact .inl ⟨trivial, asked (dirSeek_spec sound.tidy pos)⟩
  | dirClose => exact .inl ⟨trivial, asked (dirClose_spec sound.tidy)⟩
  | fileExists path => exact .inl ⟨trivial, asked (fileExists_spec sound.tidy path)⟩
  | filehandlerOpen path fullpathlen =>
      exact .inl ⟨trivial, asked (filehandlerOpen_spec sound.tidy path fullpathlen)⟩
  | fileRemove path => exact .inl ⟨trivial, asked (fileRemove_spec sound.tidy path)⟩

/-- A call is safe exactly if it is guarded. -/
theorem HostCall.safe_iff (call : HostCall) {h : FujiHost} (sound : h.Sound) :
    call.Safe h ↔ call.Guarded h := by
  rcases call.cases sound with ⟨guarded, h', done, sound'⟩ | ⟨not', lost⟩
  · exact iff_of_true ⟨h', done, sound'.tidy⟩ guarded
  · refine iff_of_false ?_ not'
    rintro ⟨h', done, tidy⟩
    exact lost h' done tidy

/-- In every run of a new host, all calls are safe exactly if all of them are guarded. -/
theorem host_safe_iff (pfx : List UInt8) (calls : List HostCall) :
    Machine.Along HostCall.after HostCall.Safe calls { pfx } ↔
      Machine.Along HostCall.after HostCall.Guarded calls { pfx } := by
  refine Machine.along_congr_of (I := Sound) ?_ (fun call h sound => call.safe_iff sound)
    (.of_none rfl Objects.owned_initial)
  intro call h h' sound guarded done
  rcases call.cases sound with ⟨-, h'', done', sound'⟩ | ⟨not', -⟩
  · exact Except.ok.inj (done.symm.trans done') ▸ sound'
  · exact absurd guarded not'

/-- A directory is read after the host was unmounted. -/
theorem read_after_umount :
    ¬ Machine.Along HostCall.after HostCall.Safe
      [.setHostname "tnfs".toList, .mount ⟨fun _ _ => true, true⟩, .umount, .dirNextfile] {} := by
  intro along
  have last := along.2 _ rfl
  obtain ⟨h', done, -⟩ := ((last.2 _ rfl).2 _ rfl).1
  exact nomatch done

end FujiNet.Fuji
