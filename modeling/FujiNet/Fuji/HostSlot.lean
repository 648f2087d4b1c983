import FujiNet.Fuji.Host

/-!
# The hosts of the Fuji device

The commands of the Fuji device mount, unmount and rename the hosts of its slots. What they leave there
is always intact: no host points to a deleted file system, and the type of a host is the one that its
name asks for. So a host of a slot can always be mounted; it can be renamed and its directory read
unless it has a type and no file system, which is how `umount` leaves it.
-/

namespace FujiNet.Fuji

open Text

namespace FujiHost

/-- What the commands keep of a host. -/
structure Intact (h : FujiHost) : Prop where
  alive : ∀ id started, h.fs = some (.made id started) → id < h.objects.made ∧ id ∉ h.objects.deleted
  fresh : ∀ id ∈ h.objects.deleted, id < h.objects.made
  sdCard : h.fs = some .fnSDFAT → h.type = .localHost
  named : h.type ≠ .uninitialized → h.type = h.wanted

section

variable {h : FujiHost}

theorem intact_new : Intact {} where
  alive := by
    intro id started held
    cases held
  fresh := by
    intro id deleted
    cases deleted
  sdCard := by
    intro held
    cases held
  named := fun typed => absurd rfl typed

theorem Intact.pointee (intact : h.Intact) {fs : FsRef} (held : h.fs = some fs) : h.pointee = .ok fs := by
  rw [FujiHost.pointee, held]
  cases fs with
  | fnSDFAT => rfl
  | made id started => exact if_neg (intact.alive id started held).2

/-- The host without a file system, which was deleted if it was made. -/
theorem Intact.cleanup (intact : h.Intact) (held : h.fs ≠ none) :
    ∃ objects, h.cleanup = .ok { h with fs := none, hostname := [], objects } ∧
      ∀ id ∈ objects.deleted, id < objects.made := by
  obtain ⟨fs, held⟩ := Option.ne_none_iff_exists'.mp held
  rw [FujiHost.cleanup, intact.pointee held]
  cases fs with
  | fnSDFAT => exact ⟨h.objects, rfl, intact.fresh⟩
  | made id started =>
    refine ⟨h.objects.delete id, rfl, fun other deleted => ?_⟩
    rcases List.mem_cons.mp deleted with rfl | before
    · exact (intact.alive _ started held).1
    · exact intact.fresh other before

/-- A new file system is neither an old one nor deleted. -/
theorem Intact.startNew (intact : h.Intact) (typed : h.type = h.wanted) (started : Bool) :
    Intact (h.startNew started).2 where
  alive := by
    intro id started' held
    obtain ⟨rfl, -⟩ := FsRef.made.inj (Option.some.inj held)
    exact ⟨Nat.lt_succ_self _, fun deleted => (intact.fresh _ deleted).ne rfl⟩
  fresh := fun id deleted => Nat.lt_succ_of_lt (intact.fresh id deleted)
  sdCard := by
    intro held
    cases held
  named := fun _ => typed

/-- A host without a type gets the one of its name. -/
theorem Intact.setType (intact : h.Intact) (idle : h.type = .uninitialized) {type : HostType}
    (wanted : h.wanted = type) :
    h.setType type = .ok { h with type } ∧ Intact { h with type } := by
  refine ⟨by rw [FujiHost.setType, idle], intact.alive, intact.fresh, fun held => ?_, fun _ => wanted.symm⟩
  cases idle.symm.trans (intact.sdCard held)

theorem Intact.idle_of_ne (intact : h.Intact) {type : HostType} (wanted : h.wanted = type)
    (other : h.type ≠ type) : h.type = .uninitialized := by
  by_contra typed
  exact other ((intact.named typed).trans wanted)

/-- Another name is taken unless there is a type and no file system. -/
theorem Intact.setHostname_cases (intact : h.Intact) (hostname : List Char) :
    ((strncasecmp h.hostname hostname MAX_HOSTNAME_LEN = false → h.Ready) ∧
      ∃ h', h.setHostname hostname = .ok h' ∧ h'.Intact) ∨
    (¬ (strncasecmp h.hostname hostname MAX_HOSTNAME_LEN = false → h.Ready) ∧
      h.setHostname hostname = .error .null) := by
  rw [setHostname]
  dsimp only
  by_cases idle : h.type = .uninitialized
  · rw [if_neg (not_not.mpr idle)]
    exact .inl ⟨fun _ typed => absurd idle typed, _, rfl, intact.alive, intact.fresh, intact.sdCard,
      fun typed => absurd idle typed⟩
  rw [if_pos idle]
  by_cases same : strncasecmp h.hostname hostname MAX_HOSTNAME_LEN = true
  · rw [if_pos same]
    exact .inl ⟨fun other => absurd (same.symm.trans other) Bool.noConfusion, h, rfl, intact⟩
  rw [if_neg same, forall_prop_of_true (Bool.eq_false_of_not_eq_true same)]
  by_cases held : h.fs = none
  · refine .inr ⟨fun ready => ready idle held, ?_⟩
    rw [setType_null fun ready => ready idle held]
    rfl
  · obtain ⟨objects, clean, fresh⟩ := intact.cleanup held
    have set : h.setType .uninitialized =
        .ok { h with type := .uninitialized, fs := none, hostname := [], objects := objects } := by
      rw [FujiHost.setType]
      cases kind : h.type with
      | uninitialized => exact absurd kind idle
      | localHost | tnfs | smb | ftp =>
        dsimp only
        rw [clean]
        rfl
    refine .inl ⟨fun _ => held, { h with
      type := .uninitialized, fs := none, objects := objects,
      hostname := hostname.take (MAX_HOSTNAME_LEN - 1) }, by rw [set]; rfl, ?_, fresh, ?_, ?_⟩
    · intro id started held'
      cases held'
    · intro held'
      cases held'
    · exact fun typed => absurd rfl typed

/-- A file system that starts runs. -/
theorem Intact.startNew_runs (intact : h.Intact) (typed : h.type = h.wanted) (outside : Outside)
    {started : Bool} (success : (h.startNew started).1 = true) :
    (h.startNew started).2.running outside = .ok true := by
  have held : (h.startNew started).2.fs = some (.made h.objects.make.1 started) := rfl
  rw [running, held, if_neg (Option.some_ne_none _), (intact.startNew typed started).pointee held]
  exact congrArg Except.ok success

/-- What one of the three functions does that mount a remote host, if the name asks for its type. -/
theorem Intact.mountRemote (intact : h.Intact) (outside : Outside) {type : HostType}
    (wanted : h.wanted = type) (url : List Char → List Char) :
    ∃ answer, h.mountRemote outside type url = .ok answer ∧ answer.2.Intact ∧
      answer.2.hostname = h.hostname ∧
      (answer.1 = true → answer.2.mountRemote outside type url = .ok (true, answer.2)) := by
  have again {h' : FujiHost} (typed : h'.type = type) (runs : h'.running outside = .ok true) :
      h'.mountRemote outside type url = .ok (true, h') := by
    rw [FujiHost.mountRemote, if_pos typed, runs]
    rfl
  have new {h' : FujiHost} (intact' : h'.Intact) (typed : h'.type = type) (named : h'.wanted = type)
      (started : Bool) : (h'.startNew started).2.Intact ∧ ((h'.startNew started).1 = true →
        (h'.startNew started).2.mountRemote outside type url = .ok (true, (h'.startNew started).2)) :=
    ⟨intact'.startNew (typed.trans named.symm) started,
      fun success => again typed (intact'.startNew_runs (typed.trans named.symm) outside success)⟩
  rw [FujiHost.mountRemote]
  by_cases typed : h.type = type
  · rw [if_pos typed]
    have fresh := new intact typed wanted (outside.start type (url h.hostname))
    obtain ⟨answer, runs⟩ : ∃ answer, h.running outside = .ok answer := by
      rw [running]
      split
      · exact ⟨_, rfl⟩
      · next held =>
        obtain ⟨fs, held⟩ := Option.ne_none_iff_exists'.mp held
        rw [intact.pointee held]
        exact ⟨_, rfl⟩
    rw [runs]
    cases answer with
    | true => exact ⟨(true, h), rfl, intact, rfl, fun _ => again typed runs⟩
    | false => exact ⟨_, rfl, fresh.1, rfl, fresh.2⟩
  · obtain ⟨set, intact'⟩ := intact.setType (intact.idle_of_ne wanted typed) wanted
    have fresh := new intact' rfl wanted (outside.start type (url h.hostname))
    rw [if_neg typed, set]
    exact ⟨_, rfl, fresh.1, rfl, fresh.2⟩

/-- A host can be mounted, and one that is mounted can be mounted again. -/
theorem Intact.mount (intact : h.Intact) (outside : Outside) :
    ∃ answer, h.mount outside = .ok answer ∧ answer.2.Intact ∧
      (answer.1 = true → answer.2.mount outside = .ok (true, answer.2)) := by
  rw [FujiHost.mount, mountLocal]
  by_cases sd : h.hostname = "SD".toList
  · have wanted : h.wanted = .localHost := if_pos sd
    have again {h' : FujiHost} (hostname : h'.hostname = h.hostname) (typed : h'.type = .localHost) :
        h'.mount outside = .ok (true, h') := by
      rw [FujiHost.mount, mountLocal, if_neg (not_not.mpr (hostname.trans sd)), if_pos typed]
      rfl
    rw [if_neg (not_not.mpr sd)]
    by_cases typed : h.type = .localHost
    · rw [if_pos typed]
      exact ⟨_, rfl, intact, fun _ => again rfl typed⟩
    · obtain ⟨set, intact'⟩ := intact.setType (intact.idle_of_ne wanted typed) wanted
      rw [if_neg typed, set]
      refine ⟨_, rfl, ⟨?_, intact.fresh, fun _ => rfl, intact'.named⟩, fun _ => again rfl rfl⟩
      intro id started held
      cases held
  · have remote {h' : FujiHost} (hostname : h'.hostname = h.hostname) : h'.mount outside =
        if strncasecmp "smb://".toList h.hostname 6 then h'.mountSmb outside
        else if strncasecmp "ftp://".toList h.hostname 6 then h'.mountFtp outside
        else h'.mountTnfs outside := by
      rw [FujiHost.mount, mountLocal, if_pos (hostname ▸ sd), ← hostname]
      rfl
    have wanted : h.wanted = if strncasecmp "smb://".toList h.hostname 6 then .smb
        else if strncasecmp "ftp://".toList h.hostname 6 then .ftp else .tnfs := if_neg sd
    rw [if_pos sd]
    dsimp only [Except.bind]
    rw [if_neg Bool.false_ne_true]
    by_cases smb : strncasecmp "smb://".toList h.hostname 6 = true
    · rw [if_pos smb] at wanted ⊢
      obtain ⟨answer, done, intact', hostname, again⟩ := intact.mountRemote outside wanted _
      refine ⟨answer, done, intact', fun success => ?_⟩
      rw [remote hostname, if_pos smb]
      exact again success
    rw [if_neg smb] at wanted ⊢
    by_cases ftp : strncasecmp "ftp://".toList h.hostname 6 = true
    · rw [if_pos ftp] at wanted ⊢
      obtain ⟨answer, done, intact', hostname, again⟩ := intact.mountRemote outside wanted _
      refine ⟨answer, done, intact', fun success => ?_⟩
      rw [remote hostname, if_neg smb, if_pos ftp]
      exact again success
    rw [if_neg ftp] at wanted ⊢
    obtain ⟨answer, done, intact', hostname, again⟩ := intact.mountRemote outside wanted _
    refine ⟨answer, done, intact', fun success => ?_⟩
    rw [remote hostname, if_neg smb, if_neg ftp]
    exact again success

theorem Intact.of_mount (intact : h.Intact) {outside : Outside} {answer : Bool × FujiHost}
    (done : h.mount outside = .ok answer) : answer.2.Intact := by
  obtain ⟨answer', done', intact', -⟩ := intact.mount outside
  exact Except.ok.inj (done'.symm.trans done) ▸ intact'

theorem Intact.umount (intact : h.Intact) : ∃ answer, h.umount = .ok answer ∧ answer.2.Intact := by
  rw [FujiHost.umount]
  by_cases local' : h.type = .localHost
  · rw [if_pos local']
    exact ⟨_, rfl, intact⟩
  rw [if_neg local', unmountTnfs]
  cases held : h.fs with
  | none => exact ⟨_, rfl, intact⟩
  | some fs =>
    rw [if_neg (Option.some_ne_none _), intact.pointee held]
    cases fs with
    | fnSDFAT => exact absurd (intact.sdCard held) local'
    | made id started =>
      refine ⟨_, rfl, ?_, fun other deleted => ?_, ?_, intact.named⟩
      · intro id' started' held'
        cases held'
      · rcases List.mem_cons.mp deleted with rfl | before
        · exact (intact.alive _ started held).1
        · exact intact.fresh other before
      · intro held'
        cases held'

theorem Intact.of_umount (intact : h.Intact) {answer : Bool × FujiHost}
    (done : h.umount = .ok answer) : answer.2.Intact := by
  obtain ⟨answer', done', intact'⟩ := intact.umount
  exact Except.ok.inj (done'.symm.trans done) ▸ intact'

theorem Intact.of_setHostname (intact : h.Intact) {hostname : List Char} {h' : FujiHost}
    (done : h.setHostname hostname = .ok h') : h'.Intact := by
  rcases intact.setHostname_cases hostname with ⟨-, h'', done', intact'⟩ | ⟨-, fault⟩
  · exact Except.ok.inj (done'.symm.trans done) ▸ intact'
  · cases fault.symm.trans done

/-- The next entry of a directory is only there to be read if the host is ready. -/
theorem Intact.dirNextfile_iff (intact : h.Intact) :
    (∃ answer, h.dirNextfile = .ok answer) ↔ h.Ready := by
  rw [dirNextfile]
  split_ifs with idle
  · exact iff_of_true ⟨_, rfl⟩ fun typed => absurd idle typed
  · rw [ask]
    cases held : h.fs with
    | none =>
      rw [FujiHost.pointee, held]
      refine iff_of_false ?_ fun ready => ready idle held
      rintro ⟨answer, done⟩
      cases done
    | some fs =>
      rw [intact.pointee held]
      exact iff_of_true ⟨_, rfl⟩ fun _ null => Option.some_ne_none fs (held.symm.trans null)

end

end FujiHost

/-- A host of the Fuji device. -/
abbrev HostSlot := { h : FujiHost // h.Intact }

namespace HostSlot

/-- `mount`, which always ends, and its answer. -/
def mount (outside : Outside) (h : HostSlot) : Bool × HostSlot :=
  match done : h.val.mount outside with
  | .error _ => (false, h)
  | .ok answer => (answer.1, ⟨answer.2, h.property.of_mount done⟩)

/-- `umount`, which always ends, and its answer. -/
def umount (h : HostSlot) : Bool × HostSlot :=
  match done : h.val.umount with
  | .error _ => (false, h)
  | .ok answer => (answer.1, ⟨answer.2, h.property.of_umount done⟩)

/-- `set_hostname`, where it ends. -/
def setHostname (hostname : List Char) (h : HostSlot) : Option HostSlot :=
  match done : h.val.setHostname hostname with
  | .error _ => none
  | .ok h' => some ⟨h', h.property.of_setHostname done⟩

/-- The host has its name but for case, or it has a file system or no type. -/
def MayRename (hostname : List Char) (h : HostSlot) : Prop :=
  strncasecmp h.val.hostname hostname MAX_HOSTNAME_LEN = false → h.val.Ready

variable {h : HostSlot}

theorem mount_eq {outside : Outside} {answer : Bool × FujiHost}
    (done : h.val.mount outside = .ok answer) :
    h.mount outside = (answer.1, ⟨answer.2, h.property.of_mount done⟩) := by
  rw [mount]
  split
  · next failed => cases failed.symm.trans done
  · next done' =>
    cases Except.ok.inj (done'.symm.trans done)
    rfl

theorem mounts_again {outside : Outside} (success : (h.mount outside).1 = true) :
    ((h.mount outside).2.mount outside).1 = true := by
  obtain ⟨answer, done, -, again⟩ := h.property.mount outside
  rw [mount_eq done] at success ⊢
  rw [mount_eq (again success)]

theorem setHostname_isSome_iff (hostname : List Char) :
    (h.setHostname hostname).isSome ↔ h.MayRename hostname := by
  rw [setHostname, MayRename]
  rcases h.property.setHostname_cases hostname with ⟨may, h', done, -⟩ | ⟨not', fault⟩
  · refine iff_of_true ?_ may
    split
    · next failed => cases failed.symm.trans done
    · rfl
  · refine iff_of_false ?_ not'
    split
    · exact Bool.false_ne_true
    · next done => cases done.symm.trans fault

end HostSlot

end FujiNet.Fuji
