import FujiNet.Config.Dirty

/-!
# Names of enumerators

`save` looks the names of modes and pins up by their index. An unknown name in a file
is read as the enumerator behind the last name, so that `save` can go beyond a table:
for a pin always, for a mode where the slot is in use. Host types are guarded, and the
setters of the pins refuse what has no name. It looks up nothing where `_dirty` is not
set, so that a file with an unknown name does no harm until another value is stored.

Which of the lines of a file decide can be read off its sections: the last one for a
pin, and the last ones since a disk slot was cleared for that slot.
-/

namespace FujiNet.FnConfig

open Text Lines

/-! ## When `save` stays within the tables -/

/-- A slot that is not in use or whose mode has a name. -/
def MountInfo.Named (m : MountInfo) : Prop := 0 ≤ m.hostSlot → m.mode ≠ .invalid

/-- Every index that `save` uses is in its table. -/
structure Named (c : FnConfig) : Prop where
  command : c.serial.command ≠ .invalid
  proceed : c.serial.proceed ≠ .invalid
  mounts : ∀ i, (c.mountSlots i).Named
  tapes : ∀ i, (c.tapeSlots i).Named

theorem isSome_mapM {α β : Type} {f : α → Option β} {l : List α} :
    (l.mapM f).isSome = true ↔ ∀ a ∈ l, (f a).isSome = true := by
  induction l with
  | nil => simp
  | cons a l ih =>
      rw [List.forall_mem_cons, ← ih, List.mapM_cons]
      cases f a with
      | none => simp
      | some b => cases l.mapM f <;> simp

theorem serialBlock_isSome {s : SerialInfo} :
    (serialBlock s).isSome = true ↔ s.command ≠ .invalid ∧ s.proceed ≠ .invalid := by
  rw [← nameOf_serialCommand_isSome, ← nameOf_serialProceed_isSome, serialBlock]
  cases nameOf serialCommands serialCommandPinNames s.command with
  | none => simp
  | some command => cases nameOf serialProceeds serialProceedPinNames s.proceed <;> simp

theorem hostBlock_isSome {hosts : Fin MAX_HOST_SLOTS → HostInfo} {i : Fin MAX_HOST_SLOTS} :
    (hostBlock hosts i).isSome = true ↔ (hosts i).type ≠ .invalid := by
  rw [← nameOf_hostType_isSome, hostBlock]
  cases nameOf hostTypes hostTypeNames (hosts i).type <;> simp

theorem mountBlock_isSome {n : Nat} {title : Str} {mounts : Fin n → MountInfo} {i : Fin n} :
    (mountBlock title mounts i).isSome = true ↔ (mounts i).mode ≠ .invalid := by
  rw [← nameOf_mountMode_isSome, mountBlock]
  cases nameOf mountModes mountModeNames (mounts i).mode <;> simp

theorem mountBlocks_isSome {n : Nat} {title : Str} {mounts : Fin n → MountInfo} :
    ((mountsSaved mounts).mapM (mountBlock title mounts)).isSome = true ↔ ∀ i, (mounts i).Named := by
  rw [isSome_mapM]
  simp [mountsSaved, mountBlock_isSome, MountInfo.Named]

/-- The host types are looked up only where they are valid. -/
theorem text_isSome_iff {c : FnConfig} : c.text.isSome = true ↔ c.Named := by
  have hosts : ((hostsSaved c.hostSlots).mapM (hostBlock c.hostSlots)).isSome = true := by
    rw [isSome_mapM]
    simp [hostsSaved, hostBlock_isSome]
  have all : c.text.isSome = true ↔ (serialBlock c.serial).isSome = true ∧
      ((mountsSaved c.mountSlots).mapM (mountBlock "Mount".toList c.mountSlots)).isSome = true ∧
      ((mountsSaved c.tapeSlots).mapM (mountBlock "Tape".toList c.tapeSlots)).isSome = true := by
    obtain ⟨hostBlocks, found⟩ := Option.isSome_iff_exists.mp hosts
    rw [text, Option.isSome_map, blocks, found]
    cases serialBlock c.serial with
    | none => simp
    | some serial =>
        cases (mountsSaved c.mountSlots).mapM (mountBlock "Mount".toList c.mountSlots) with
        | none => simp
        | some mounts =>
            cases (mountsSaved c.tapeSlots).mapM (mountBlock "Tape".toList c.tapeSlots) <;> simp
  rw [all, serialBlock_isSome, mountBlocks_isSome, mountBlocks_isSome]
  constructor
  · rintro ⟨⟨command, proceed⟩, mounts, tapes⟩
    exact ⟨command, proceed, mounts, tapes⟩
  · rintro ⟨command, proceed, mounts, tapes⟩
    exact ⟨⟨command, proceed⟩, mounts, tapes⟩

/-! ## The last line with a name -/

/-- The value of a line with the given name. -/
def valueOf (name line : Str) : Option Str :=
  match splitNameValue line with
  | some (n, value) => if strcasecmp n name then some value else none
  | none => none

/-- The value of the last line with the given name. -/
def lastValue (name : Str) (lines : List Str) : Option Str := (lines.filterMap (valueOf name)).getLast?

/-- What a reader without failures does with some lines. -/
def readBody {α : Type} (step : Str → Str → α → α) (lines : List Str) (a : α) : α :=
  lines.foldl
    (fun a line =>
      match splitNameValue line with
      | some (name, value) => step name value a
      | none => a) a

theorem readBody_append {α : Type} (step : Str → Str → α → α) (lines lines' : List Str) (a : α) :
    readBody step (lines ++ lines') a = readBody step lines' (readBody step lines a) :=
  List.foldl_append

/-- A field that is set by the lines with one name has what the last of them says. -/
theorem readBody_eq_lastValue {α β : Type} {step : Str → Str → α → α} {get : α → β} {name : Str}
    {conv : Str → β}
    (h : ∀ n value a, get (step n value a) = if strcasecmp n name then conv value else get a)
    (lines : List Str) (a : α) :
    get (readBody step lines a) = (lastValue name lines).elim (get a) conv := by
  induction lines using List.reverseRecOn with
  | nil => rfl
  | append_singleton lines line ih =>
      rw [readBody_append, lastValue, List.filterMap_append, List.getLast?_append]
      simp only [readBody, List.foldl_cons, List.foldl_nil, List.filterMap_cons,
        List.filterMap_nil, valueOf]
      cases splitNameValue line with
      | none => exact ih
      | some found =>
          simp only [h]
          split
          · rfl
          · exact ih

/-! ## What a file leaves in one member -/

/-- How the readers of the sections act on a part of the configuration. -/
structure View (β : Type) where
  get : FnConfig → β
  field : Section → Str → Str → β → β
  reset : Section → β → β
  get_field : ∀ sec name value c d,
    Section.field name value sec c = some d → get d = field sec name value (get c)
  get_reset : ∀ sec c, get (Section.reset sec c) = reset sec (get c)
  get_atLine : ∀ sec c, get (Section.atLine sec c) = get c
  get_dirty : ∀ c b, get { c with dirty := b } = get c

namespace View

variable {β : Type} (v : View β)

/-- A section with its lines. -/
def readSection (b : β) (s : Section × List Str) : β := readBody (v.field s.1) s.2 (v.reset s.1 b)

theorem get_onLine {sec : Section} {c d : FnConfig} {line : Str} (h : sec.onLine c line = some d) :
    v.get d = readBody (v.field sec) [line] (v.get c) := by
  cases split : splitNameValue line with
  | none =>
      simp only [Section.onLine, split, Option.some.injEq] at h
      simp only [readBody, List.foldl_cons, List.foldl_nil, split]
      rw [← h, v.get_atLine]
  | some entry =>
      simp only [Section.onLine, split] at h
      simp only [readBody, List.foldl_cons, List.foldl_nil, split]
      rw [v.get_field _ _ _ _ _ h, v.get_atLine]

theorem get_readSection {s : Section × List Str} {c d : FnConfig}
    (h : FnConfig.readSection c s = some d) : v.get d = v.readSection (v.get c) s := by
  obtain ⟨sec, lines⟩ := s
  rw [FnConfig.readSection] at h
  rw [readSection, ← v.get_reset]
  generalize sec.reset c = c at h
  induction lines generalizing c with
  | nil =>
      cases h
      rfl
  | cons line lines ih =>
      rw [List.foldlM_cons, Option.bind_eq_bind, Option.bind_eq_some_iff] at h
      obtain ⟨c', first, rest⟩ := h
      rw [ih c' rest, v.get_onLine first]
      rfl

theorem get_load {file : Str} {c d : FnConfig} (h : load (some file) c = some d) :
    v.get d = (sections (inibuffer file)).foldl v.readSection (v.get c) := by
  rw [load_some, Option.map_eq_some_iff] at h
  obtain ⟨d, read, rfl⟩ := h
  rw [v.get_dirty]
  generalize sections (inibuffer file) = found at read
  induction found generalizing c with
  | nil =>
      cases read
      rfl
  | cons s found ih =>
      rw [List.foldlM_cons, Option.bind_eq_bind, Option.bind_eq_some_iff] at read
      obtain ⟨c', first, rest⟩ := read
      rw [ih rest, v.get_readSection first]
      rfl

/-- The members of the section `[Serial]`. -/
def serial : View SerialInfo where
  get := (·.serial)
  field sec name value s := if sec = .serial then serialField name value s else s
  reset _ s := s
  get_field sec name value c d h := by
    cases sec with
    | bt =>
        obtain ⟨b, -, rfl⟩ := Option.map_eq_some_iff.mp h
        rfl
    | _ => cases h; rfl
  get_reset sec c := by cases sec <;> rfl
  get_atLine sec c := by cases sec <;> rfl
  get_dirty _ _ := rfl

/-- The reader of a disk slot clears it first, that of a tape slot goes on with what is in the disk
slot of the same number. -/
def mount (i : Fin MAX_MOUNT_SLOTS) : View MountInfo where
  get c := c.mountSlots i
  field sec name value m :=
    match sec with
    | .mount j => if i = j then mountField name value m else m
    | .tape j => if i = j.castLE tapeSlots_le_mountSlots then mountField name value m else m
    | _ => m
  reset sec m :=
    match sec with
    | .mount j => if i = j then {} else m
    | _ => m
  get_field sec name value c d h := by
    cases sec with
    | bt =>
        obtain ⟨b, -, rfl⟩ := Option.map_eq_some_iff.mp h
        rfl
    | mount j =>
        cases h
        simp only [modifySlot, Function.update_apply]
        split
        · rename_i same
          rw [same]
        · rfl
    | tape j =>
        cases h
        simp only [modifySlot, Function.update_apply]
        split
        · rename_i same
          rw [same]
        · rfl
    | _ => cases h; rfl
  get_reset sec c := by
    cases sec with
    | mount j => exact Function.update_apply _ _ _ _
    | _ => rfl
  get_atLine sec c := by cases sec <;> rfl
  get_dirty _ _ := rfl

/-- The tape slots are only ever cleared. -/
def tape (i : Fin MAX_TAPE_SLOTS) : View MountInfo where
  get c := c.tapeSlots i
  field _ _ _ m := m
  reset sec m :=
    match sec with
    | .tape j => if i = j then {} else m
    | _ => m
  get_field sec name value c d h := by
    cases sec with
    | bt =>
        obtain ⟨b, -, rfl⟩ := Option.map_eq_some_iff.mp h
        rfl
    | _ => cases h; rfl
  get_reset sec c := by
    cases sec with
    | tape j => exact Function.update_apply _ _ _ _
    | _ => rfl
  get_atLine sec c := by cases sec <;> rfl
  get_dirty _ _ := rfl

end View

/-! ## The lines that decide -/

/-- The lines of all sections `[Serial]`. -/
def serialLines (found : List (Section × List Str)) : List Str :=
  found.flatMap fun s => if s.1 = .serial then s.2 else []

/-- The lines that went to a disk slot since it was cleared last. -/
def mountLines (i : Fin MAX_MOUNT_SLOTS) (found : List (Section × List Str)) : List Str :=
  found.foldl
    (fun lines s =>
      match s.1 with
      | .mount j => if i = j then s.2 else lines
      | .tape j => if i = j.castLE tapeSlots_le_mountSlots then lines ++ s.2 else lines
      | _ => lines) []

/-- The last lines for a pin have a known name, and where the last line for a host slot has one that
exists, the last line for the mode has a known name. -/
structure FileNamed (found : List (Section × List Str)) : Prop where
  command : ∀ v ∈ lastValue "command".toList (serialLines found), serialCommandFromString v ≠ .invalid
  proceed : ∀ v ∈ lastValue "proceed".toList (serialLines found), serialProceedFromString v ≠ .invalid
  mount : ∀ i, ∀ v ∈ lastValue "hostslot".toList (mountLines i found), 0 ≤ hostSlotOf v →
    ∃ m ∈ lastValue "mode".toList (mountLines i found), mountModeFromString m ≠ .invalid

theorem readBody_ite {α : Type} (p : Prop) [Decidable p] (step : Str → Str → α → α)
    (lines : List Str) (a : α) :
    readBody (fun name value a => if p then step name value a else a) lines a =
      if p then readBody step lines a else a := by
  by_cases h : p
  · simp only [if_pos h]
  · simp only [if_neg h]
    induction lines with
    | nil => rfl
    | cons line lines ih =>
        rw [readBody, List.foldl_cons]
        cases splitNameValue line <;> exact ih

theorem foldl_serial (found : List (Section × List Str)) (s : SerialInfo) :
    found.foldl View.serial.readSection s = readBody serialField (serialLines found) s := by
  induction found generalizing s with
  | nil => rfl
  | cons first found ih =>
      have cons : serialLines (first :: found) =
          (if first.1 = .serial then first.2 else []) ++ serialLines found := List.flatMap_cons
      rw [List.foldl_cons, ih, cons, readBody_append]
      congr 1
      refine (readBody_ite (first.1 = .serial) serialField first.2 s).trans ?_
      split <;> rfl

theorem foldl_mount (i : Fin MAX_MOUNT_SLOTS) (found : List (Section × List Str)) :
    found.foldl (View.mount i).readSection {} = readBody mountField (mountLines i found) {} := by
  induction found using List.reverseRecOn with
  | nil => rfl
  | append_singleton found last ih =>
      obtain ⟨sec, body⟩ := last
      simp only [List.foldl_append, List.foldl_cons, List.foldl_nil, ih, mountLines]
      cases sec with
      | mount j =>
          refine (readBody_ite (i = j) mountField body _).trans ?_
          by_cases same : i = j
          · simp only [if_pos same, View.mount]
          · simp only [if_neg same, View.mount]
      | tape j =>
          refine (readBody_ite (i = j.castLE tapeSlots_le_mountSlots) mountField body _).trans ?_
          by_cases same : i = j.castLE tapeSlots_le_mountSlots
          · simp only [if_pos same, View.mount, readBody_append]
          · simp only [if_neg same, View.mount]
      | _ => exact (readBody_ite False mountField body _).trans (if_neg not_false)

theorem serialField_command (n value : Str) (s : SerialInfo) :
    (serialField n value s).command =
      if strcasecmp n "command".toList then serialCommandFromString value else s.command := by
  unfold serialField
  split
  · rename_i port
    rw [strcasecmp_of_ne port rfl]
    rfl
  · split
    · rfl
    · split <;> rfl

theorem serialField_proceed (n value : Str) (s : SerialInfo) :
    (serialField n value s).proceed =
      if strcasecmp n "proceed".toList then serialProceedFromString value else s.proceed := by
  unfold serialField
  split
  · rename_i port
    rw [strcasecmp_of_ne port rfl]
    rfl
  · split
    · rename_i command
      rw [strcasecmp_of_ne command rfl]
      rfl
    · split <;> rfl

theorem mountField_hostSlot (n value : Str) (m : MountInfo) :
    (mountField n value m).hostSlot =
      if strcasecmp n "hostslot".toList then hostSlotOf value else m.hostSlot := by
  unfold mountField
  split
  · rfl
  · split
    · rfl
    · split <;> rfl

theorem mountField_mode (n value : Str) (m : MountInfo) :
    (mountField n value m).mode =
      if strcasecmp n "mode".toList then mountModeFromString value else m.mode := by
  unfold mountField
  split
  · rename_i hostslot
    rw [strcasecmp_of_ne hostslot rfl]
    rfl
  · split
    · rfl
    · split <;> rfl

theorem readBody_mount_named_iff (lines : List Str) :
    (readBody mountField lines {}).Named ↔
      ∀ v ∈ lastValue "hostslot".toList lines, 0 ≤ hostSlotOf v →
        ∃ m ∈ lastValue "mode".toList lines, mountModeFromString m ≠ .invalid := by
  rw [MountInfo.Named, readBody_eq_lastValue mountField_hostSlot,
    readBody_eq_lastValue mountField_mode]
  cases lastValue "hostslot".toList lines with
  | none => simp [HOST_SLOT_INVALID]
  | some v =>
      cases lastValue "mode".toList lines with
      | none => simp
      | some m => simp

/-- After a file was read into a new configuration. -/
theorem named_load_iff {file : Str} {c : FnConfig} (loaded : load (some file) fresh = some c) :
    c.Named ↔ FileNamed (sections (inibuffer file)) := by
  have pins : c.serial = readBody serialField (serialLines (sections (inibuffer file))) {} := by
    rw [← foldl_serial]
    exact View.serial.get_load loaded
  have slot (i : Fin MAX_MOUNT_SLOTS) :
      c.mountSlots i = readBody mountField (mountLines i (sections (inibuffer file))) {} := by
    rw [← foldl_mount]
    exact (View.mount i).get_load loaded
  have noTape (i : Fin MAX_TAPE_SLOTS) : c.tapeSlots i = {} := by
    have read := (View.tape i).get_load loaded
    refine read.trans ?_
    generalize sections (inibuffer file) = found
    induction found with
    | nil => rfl
    | cons s found ih =>
        have unchanged : (View.tape i).readSection {} s = {} := by
          refine (readBody_ite False mountField s.2 _).trans ?_
          rw [if_neg not_false]
          simp only [View.tape]
          split
          · split <;> rfl
          · rfl
        rw [List.foldl_cons]
        exact (congrArg (found.foldl _) unchanged).trans ih
  generalize sections (inibuffer file) = found at pins slot
  have command := readBody_eq_lastValue serialField_command (serialLines found) {}
  have proceed := readBody_eq_lastValue serialField_proceed (serialLines found) {}
  rw [← pins] at command proceed
  have commandNamed : c.serial.command ≠ .invalid ↔
      ∀ v ∈ lastValue "command".toList (serialLines found), serialCommandFromString v ≠ .invalid := by
    rw [command]
    cases lastValue "command".toList (serialLines found) <;> simp
  have proceedNamed : c.serial.proceed ≠ .invalid ↔
      ∀ v ∈ lastValue "proceed".toList (serialLines found), serialProceedFromString v ≠ .invalid := by
    rw [proceed]
    cases lastValue "proceed".toList (serialLines found) <;> simp
  constructor
  · intro named
    refine ⟨commandNamed.mp named.command, proceedNamed.mp named.proceed, fun i => ?_⟩
    exact (readBody_mount_named_iff _).mp (slot i ▸ named.mounts i)
  · intro named
    refine ⟨commandNamed.mpr named.command, proceedNamed.mpr named.proceed, fun i => ?_, fun i => ?_⟩
    · rw [slot i]
      exact (readBody_mount_named_iff _).mpr (named.mount i)
    · rw [noTape i]
      exact fun used => absurd used (by decide)

/-! ## Setters -/

/-- What `save` looks up in tables that it does not guard. -/
def named (c : FnConfig) :
    SerialCommand × SerialProceed × (Fin MAX_MOUNT_SLOTS → MountInfo) ×
      (Fin MAX_TAPE_SLOTS → MountInfo) :=
  (c.serial.command, c.serial.proceed, c.mountSlots, c.tapeSlots)

theorem named_congr {c c' : FnConfig} (h : named c' = named c) : c'.Named ↔ c.Named := by
  simp only [named, Prod.mk.injEq] at h
  obtain ⟨command, proceed, mounts, tapes⟩ := h
  constructor
  · intro named
    exact ⟨command ▸ named.command, proceed ▸ named.proceed, mounts ▸ named.mounts,
      tapes ▸ named.tapes⟩
  · intro named
    exact ⟨command ▸ named.command, proceed ▸ named.proceed, mounts ▸ named.mounts,
      tapes ▸ named.tapes⟩

theorem get_storeIfChanged {α β : Type} [DecidableEq α] {get : FnConfig → α}
    {set : FnConfig → α → FnConfig} {value : α} {c : FnConfig} (view : FnConfig → β)
    (h : view { set c value with dirty := true } = view c) :
    view (storeIfChanged get set value c) = view c := by
  unfold storeIfChanged
  split
  · rfl
  · exact h

/-- A slot gets its new value, or there is no slot of that number. -/
theorem storeSlot_cases {n : Nat} {α : Type} [DecidableEq α] (slots : FnConfig → Fin n → α)
    (set : FnConfig → (Fin n → α) → FnConfig) (num : UInt8) (value : Fin n → α) (c : FnConfig) :
    (∃ h : num.toNat < n, slots c ⟨num.toNat, h⟩ = value ⟨num.toNat, h⟩ ∧
        storeSlot slots set num value c = c) ∨
      (∃ h : num.toNat < n, storeSlot slots set num value c =
        { set c (Function.update (slots c) ⟨num.toNat, h⟩ (value ⟨num.toNat, h⟩)) with
          dirty := true }) ∨
      ¬ num.toNat < n ∧ storeSlot slots set num value c = c := by
  unfold storeSlot
  split
  · rename_i h
    unfold storeIfChanged
    split
    · rename_i same
      exact .inl ⟨h, same, rfl⟩
    · exact .inr (.inl ⟨h, rfl⟩)
  · rename_i h
    exact .inr (.inr ⟨h, rfl⟩)

/-- A slot that is put in has a mode with a name, or is not in use, or has no place. -/
def PutNamed (num : UInt8) (mount : MountInfo) : MountType → Prop
  | .disk => num.toNat < MAX_MOUNT_SLOTS → mount.Named
  | .tape => num.toNat < MAX_TAPE_SLOTS → mount.Named

theorem forall_update_named_iff {n : Nat} {slots : Fin n → MountInfo} (h : ∀ i, (slots i).Named)
    (i : Fin n) (mount : MountInfo) :
    (∀ j, (Function.update slots i mount j).Named) ↔ mount.Named := by
  constructor
  · intro all
    have this := all i
    rwa [Function.update_self] at this
  · intro named j
    by_cases same : j = i
    · rw [same, Function.update_self]
      exact named
    · rw [Function.update_of_ne same]
      exact h j

theorem named_putMount_iff {num : UInt8} {mount : MountInfo} {type : MountType} {c : FnConfig}
    (h : c.Named) : (putMount num mount type c).Named ↔ PutNamed num mount type := by
  cases type with
  | disk =>
      rw [putMount, PutNamed]
      rcases storeSlot_cases (·.mountSlots) (fun c slots => { c with mountSlots := slots }) num
        (fun _ => mount) c with ⟨inside, same, stored⟩ | ⟨inside, stored⟩ | ⟨outside, stored⟩
      · rw [stored]
        exact ⟨fun _ _ => same ▸ h.mounts _, fun _ => h⟩
      · rw [stored]
        constructor
        · exact fun named _ => (forall_update_named_iff h.mounts _ mount).mp named.mounts
        · exact fun named => ⟨h.command, h.proceed,
            (forall_update_named_iff h.mounts _ mount).mpr (named inside), h.tapes⟩
      · rw [stored]
        exact ⟨fun _ inside => absurd inside outside, fun _ => h⟩
  | tape =>
      rw [putMount, PutNamed]
      rcases storeSlot_cases (·.tapeSlots) (fun c slots => { c with tapeSlots := slots }) num
        (fun _ => mount) c with ⟨inside, same, stored⟩ | ⟨inside, stored⟩ | ⟨outside, stored⟩
      · rw [stored]
        exact ⟨fun _ _ => same ▸ h.tapes _, fun _ => h⟩
      · rw [stored]
        constructor
        · exact fun named _ => (forall_update_named_iff h.tapes _ mount).mp named.tapes
        · exact fun named => ⟨h.command, h.proceed, h.mounts,
            (forall_update_named_iff h.tapes _ mount).mpr (named inside)⟩
      · rw [stored]
        exact ⟨fun _ inside => absurd inside outside, fun _ => h⟩

/-- Only `store_mount` can store what has no name. -/
def Setter.PutsNamed : Setter → Prop
  | .mount num hostslot path mode type =>
    PutNamed num { hostSlot := hostslot, mode := mode, path := path } type
  | _ => True

theorem named_storeSlot {n : Nat} {α : Type} [DecidableEq α] {slots : FnConfig → Fin n → α}
    {set : FnConfig → (Fin n → α) → FnConfig} {num : UInt8} {value : Fin n → α} {c : FnConfig}
    (h : ∀ new, named (set c new) = named c) : named (storeSlot slots set num value c) = named c := by
  rcases storeSlot_cases slots set num value c with ⟨_, _, stored⟩ | ⟨_, stored⟩ | ⟨_, stored⟩
  · rw [stored]
  · rw [stored]
    exact h _
  · rw [stored]

/-- The other setters leave alone what `save` looks up. -/
def Setter.Neutral : Setter → Prop
  | .serialCommand _ | .serialProceed _ | .mount .. | .clearMount .. => False
  | _ => True

theorem Setter.named_apply_neutral {key : Str} {f : Setter} (neutral : f.Neutral) (c : FnConfig) :
    FnConfig.named (f.apply key c) = FnConfig.named c := by
  cases f with
  | serialCommand | serialProceed | mount | clearMount => exact neutral.elim
  | generalEncryptPassphrase v =>
      simp only [apply, storeGeneralEncryptPassphrase]
      split <;> rfl
  | wifiSsid v n =>
      simp only [apply, storeWifiSsid]
      split <;> rfl
  | wifiPassphrase v n =>
      simp only [apply, storeWifiPassphrase]
      split <;> rfl
  | wifiEnabled | wifiStoredSsid | wifiStoredPassphrase | wifiStoredEnabled | btStatus | btBaud
  | btDevname | markDirty | generalInterfaceUrl | generalConfigPath | generalSDPath | udpstreamHost
  | udpstreamPort | resetWifi => rfl
  | host | clearHost | printerType | printerPort => exact named_storeSlot fun _ => rfl
  | _ => exact get_storeIfChanged FnConfig.named rfl

theorem MountInfo.named_inUse_iff (m : MountInfo) : m.inUse.Named ↔ m.Named := by
  rw [MountInfo.inUse]
  split
  · next unused =>
      exact iff_of_true (fun used => absurd used (by decide)) fun used => absurd unused (not_lt.mpr used)
  · exact Iff.rfl

theorem named_persisted_iff (c : FnConfig) : (persisted c).Named ↔ c.Named := by
  have mount (m : MountInfo) := m.named_inUse_iff
  constructor
  · intro named
    exact ⟨named.command, named.proceed, fun i => (mount _).mp (named.mounts i),
      fun i => (mount _).mp (named.tapes i)⟩
  · intro named
    exact ⟨named.command, named.proceed, fun i => (mount _).mpr (named.mounts i),
      fun i => (mount _).mpr (named.tapes i)⟩

/-- What has names changes only with the flag. -/
theorem Setter.named_apply_of_clean {key : Str} {f : Setter} {c : FnConfig}
    (clean : (f.apply key c).dirty = false) : (f.apply key c).Named ↔ c.Named := by
  by_cases reset : f = .resetWifi
  · subst reset
    exact named_congr rfl
  · rcases @Setter.tracked key f c fun same => absurd same reset with dirty | ⟨same, -⟩
    · exact absurd (clean.symm.trans dirty) Bool.false_ne_true
    · rw [← named_persisted_iff, same, named_persisted_iff]

theorem Setter.named_apply_iff {key : Str} {f : Setter} {c : FnConfig} (h : c.Named) :
    (f.apply key c).Named ↔ f.PutsNamed := by
  have of_neutral (neutral : f.Neutral) (free : f.PutsNamed) : (f.apply key c).Named ↔ f.PutsNamed :=
    iff_of_true ((named_congr (named_apply_neutral neutral c)).mpr h) free
  cases f with
  | mount num hostslot path mode type => exact named_putMount_iff h
  | clearMount num type =>
      refine (named_putMount_iff h).trans (iff_of_true ?_ trivial)
      cases type <;> exact fun _ used => absurd used (by decide)
  | serialCommand pin =>
      refine iff_of_true ?_ trivial
      simp only [apply, storeSerialCommand]
      split
      · exact h
      · rename_i taken
        exact ⟨fun e => taken (.inl e), h.proceed, h.mounts, h.tapes⟩
  | serialProceed pin =>
      refine iff_of_true ?_ trivial
      simp only [apply, storeSerialProceed]
      split
      · exact h
      · rename_i taken
        exact ⟨h.command, fun e => taken (.inl e), h.mounts, h.tapes⟩
  | _ => exact of_neutral trivial trivial

/-- The slot exists and is put in with a name or out of use, and nothing else lacks a name. -/
def PutsMissingMount (num : UInt8) (mount : MountInfo) (type : MountType) (c : FnConfig) : Prop :=
  c.serial.command ≠ .invalid ∧ c.serial.proceed ≠ .invalid ∧ mount.Named ∧
    match type with
    | .disk =>
      num.toNat < MAX_MOUNT_SLOTS ∧ (∀ i, i.val ≠ num.toNat → (c.mountSlots i).Named) ∧
        ∀ i, (c.tapeSlots i).Named
    | .tape =>
      num.toNat < MAX_TAPE_SLOTS ∧ (∀ i, (c.mountSlots i).Named) ∧
        ∀ i, i.val ≠ num.toNat → (c.tapeSlots i).Named

/-- The setter puts in the only name that is missing. -/
def Setter.PutsMissing (c : FnConfig) : Setter → Prop
  | .serialCommand pin =>
    pin ≠ .invalid ∧ c.serial.proceed ≠ .invalid ∧ (∀ i, (c.mountSlots i).Named) ∧
      ∀ i, (c.tapeSlots i).Named
  | .serialProceed pin =>
    pin ≠ .invalid ∧ c.serial.command ≠ .invalid ∧ (∀ i, (c.mountSlots i).Named) ∧
      ∀ i, (c.tapeSlots i).Named
  | .mount num hostslot path mode type =>
    PutsMissingMount num { hostSlot := hostslot, mode := mode, path := path } type c
  | .clearMount num type => PutsMissingMount num {} type c
  | _ => False

theorem forall_update_iff {n : Nat} {slots : Fin n → MountInfo} (i : Fin n) (mount : MountInfo) :
    (∀ j, (Function.update slots i mount j).Named) ↔
      mount.Named ∧ ∀ j, j.val ≠ i.val → (slots j).Named := by
  refine ⟨fun all => ⟨?_, fun j other => ?_⟩, fun ⟨named, others⟩ j => ?_⟩
  · have this := all i
    rwa [Function.update_self] at this
  · have this := all j
    rwa [Function.update_of_ne fun same => other (congrArg Fin.val same)] at this
  · by_cases same : j = i
    · rw [same, Function.update_self]
      exact named
    · rw [Function.update_of_ne same]
      exact others j fun value => same (Fin.ext value)

theorem named_putMount_of_missing {num : UInt8} {mount : MountInfo} {type : MountType} {c : FnConfig}
    (clean : c.dirty = false) (set : (putMount num mount type c).dirty = true) :
    (putMount num mount type c).Named ↔ PutsMissingMount num mount type c := by
  have unchanged {c' : FnConfig} (same : c' = c) (dirty : c'.dirty = true) : False := by
    rw [same, clean] at dirty
    cases dirty
  cases type with
  | disk =>
      rw [putMount] at set ⊢
      rcases storeSlot_cases (·.mountSlots) (fun c slots => { c with mountSlots := slots }) num
        (fun _ => mount) c with ⟨_, _, stored⟩ | ⟨inside, stored⟩ | ⟨_, stored⟩
      · exact (unchanged stored set).elim
      · rw [stored]
        constructor
        · intro named
          obtain ⟨mount', others⟩ := (forall_update_iff ..).mp named.mounts
          exact ⟨named.command, named.proceed, mount', inside, others, named.tapes⟩
        · rintro ⟨command, proceed, mount', -, others, tapes⟩
          exact ⟨command, proceed, (forall_update_iff ..).mpr ⟨mount', others⟩, tapes⟩
      · exact (unchanged stored set).elim
  | tape =>
      rw [putMount] at set ⊢
      rcases storeSlot_cases (·.tapeSlots) (fun c slots => { c with tapeSlots := slots }) num
        (fun _ => mount) c with ⟨_, _, stored⟩ | ⟨inside, stored⟩ | ⟨_, stored⟩
      · exact (unchanged stored set).elim
      · rw [stored]
        constructor
        · intro named
          obtain ⟨mount', others⟩ := (forall_update_iff ..).mp named.tapes
          exact ⟨named.command, named.proceed, mount', inside, named.mounts, others⟩
        · rintro ⟨command, proceed, mount', -, mounts, others⟩
          exact ⟨command, proceed, mounts, (forall_update_iff ..).mpr ⟨mount', others⟩⟩
      · exact (unchanged stored set).elim

/-- Where a name is missing, a setter that sets the flag has to put it in. -/
theorem Setter.named_apply_of_missing {key : Str} {f : Setter} {c : FnConfig} (missing : ¬ c.Named)
    (clean : c.dirty = false) (set : (f.apply key c).dirty = true) :
    (f.apply key c).Named ↔ f.PutsMissing c := by
  have of_neutral (neutral : f.Neutral) (none : ¬ f.PutsMissing c) :
      (f.apply key c).Named ↔ f.PutsMissing c := by
    refine iff_of_false (fun named => missing ?_) none
    exact (named_congr (named_apply_neutral neutral c)).mp named
  cases f with
  | mount num hostslot path mode type => exact named_putMount_of_missing clean set
  | clearMount num type => exact named_putMount_of_missing clean set
  | serialCommand pin =>
      simp only [apply, storeSerialCommand] at set ⊢
      split at set
      · exact absurd (clean.symm.trans set) Bool.false_ne_true
      · rename_i taken
        rw [if_neg taken]
        constructor
        · exact fun named => ⟨named.command, named.proceed, named.mounts, named.tapes⟩
        · rintro ⟨command, proceed, mounts, tapes⟩
          exact ⟨command, proceed, mounts, tapes⟩
  | serialProceed pin =>
      simp only [apply, storeSerialProceed] at set ⊢
      split at set
      · exact absurd (clean.symm.trans set) Bool.false_ne_true
      · rename_i taken
        rw [if_neg taken]
        constructor
        · exact fun named => ⟨named.proceed, named.command, named.mounts, named.tapes⟩
        · rintro ⟨proceed, command, mounts, tapes⟩
          exact ⟨command, proceed, mounts, tapes⟩
  | _ => exact of_neutral trivial id

/-! ## Runs -/

namespace Session

/-- A call of a setter or of `save`, with no slot in use that has no name for its mode. -/
def PutsNamed : Call → Prop
  | .set f => f.PutsNamed
  | _ => True

def isLoad : Call → Bool
  | .load _ => true
  | _ => false

/-- Where the flag is set, `save` finds every index in its table. Without it `save` looks nothing
up. -/
def Valid (s : Session) : Prop := s.config.dirty = true → s.config.text.isSome = true

/-- `P` holds of every call and of the state in which it is made. -/
def Along (key : Str) (P : Call → Session → Prop) : List Call → Session → Prop
  | [], _ => True
  | call :: calls, s =>
    P call s ∧ ∀ answer s', step key call s = some (answer, s') → Along key P calls s'

/-- The call returns, and `save` would use valid indices in the state after it. -/
def LeavesValid (key : Str) (call : Call) (s : Session) : Prop :=
  ∃ answer s', step key call s = some (answer, s') ∧ s'.Valid

/-- In every state that the calls lead to, and where they save themselves, valid indices are used. -/
def ValidRun (key : Str) (calls : List Call) (s : Session) : Prop :=
  s.Valid ∧ Along key (LeavesValid key) calls s

/-- The call does not set the flag. -/
def Quiet (key : Str) (call : Call) (s : Session) : Prop :=
  match call with
  | .set f => (f.apply key s.config).dirty = false
  | .addPbNumber pbnum pbhost pbport => s.config.addPbNumber pbnum pbhost pbport = none
  | .delPbNumber pbnum => s.config.delPbNumber pbnum = none
  | .save => True
  | .clearPb | .load _ => False

/-- The call puts in the only name that is missing. -/
def PutsMissing (call : Call) (s : Session) : Prop :=
  match call with
  | .set f => f.PutsMissing s.config
  | _ => False

/-- Where all names are there, no slot in use is put in without one; where one is missing, the flag is
not set, or that name is put in. -/
def Guarded (key : Str) (call : Call) (s : Session) : Prop :=
  (s.config.Named → PutsNamed call) ∧ (¬ s.config.Named → Quiet key call s ∨ PutsMissing call s)

theorem named_save {s : Session} (h : s.config.Named) : ∃ s', s.save = some s' ∧ s'.config.Named := by
  obtain ⟨t, made⟩ := Option.isSome_iff_exists.mp (text_isSome_iff.mpr h)
  cases dirty : s.config.dirty with
  | true =>
      refine ⟨_, congrArg (Option.map _) (save_of_text dirty made), ?_⟩
      exact ⟨h.command, h.proceed, h.mounts, h.tapes⟩
  | false =>
      refine ⟨s, ?_, h⟩
      simp [save, FnConfig.save, dirty]

/-- As long as the indices are valid, a setter returns, and they stay valid if it puts in names
only. -/
theorem named_step {key : Str} {call : Call} {s : Session} (h : s.config.Named)
    (setter : isLoad call = false) :
    ∃ answer s', step key call s = some (answer, s') ∧ (s'.config.Named ↔ PutsNamed call) := by
  cases call with
  | set f => exact ⟨_, _, rfl, Setter.named_apply_iff h⟩
  | addPbNumber pbnum pbhost pbport =>
      simp only [step]
      split
      · rename_i c stored
        have same : named c = named s.config := by
          unfold FnConfig.addPbNumber at stored
          split at stored
          · cases stored
          · obtain ⟨i, -, rfl⟩ := Option.map_eq_some_iff.mp stored
            rfl
        obtain ⟨s', saved, named⟩ := @named_save { s with config := c } ((named_congr same).mpr h)
        exact ⟨_, _, congrArg (Option.map _) saved, iff_of_true named trivial⟩
      · exact ⟨_, _, rfl, iff_of_true h trivial⟩
  | delPbNumber pbnum =>
      simp only [step]
      split
      · rename_i c stored
        have same : named c = named s.config := by
          obtain ⟨i, -, rfl⟩ := Option.map_eq_some_iff.mp stored
          rfl
        obtain ⟨s', saved, named⟩ := @named_save { s with config := c } ((named_congr same).mpr h)
        exact ⟨_, _, congrArg (Option.map _) saved, iff_of_true named trivial⟩
      · exact ⟨_, _, rfl, iff_of_true h trivial⟩
  | clearPb =>
      have cleared : s.config.clearedPb.Named := ⟨h.command, h.proceed, h.mounts, h.tapes⟩
      obtain ⟨s', saved, named⟩ := @named_save { s with config := s.config.clearedPb } cleared
      refine ⟨_, _, congrArg (Option.map _) saved, iff_of_true ?_ trivial⟩
      exact ⟨named.command, named.proceed, named.mounts, named.tapes⟩
  | save =>
      obtain ⟨s', saved, named⟩ := named_save h
      exact ⟨_, _, congrArg (Option.map _) saved, iff_of_true named trivial⟩
  | load file => cases setter

theorem valid_iff {s : Session} : s.Valid ↔ (s.config.dirty = true → s.config.Named) := by
  rw [Valid, text_isSome_iff]

theorem leavesValid_of_named {key : Str} {call : Call} {s : Session} (named : s.config.Named)
    (setter : isLoad call = false) : LeavesValid key call s ↔ PutsNamed call := by
  obtain ⟨answer, s', next, names⟩ := @named_step key call s named setter
  constructor
  · rintro ⟨answer', s'', next', valid⟩
    cases Option.some.inj (next.symm.trans next')
    cases call with
    | set f =>
        cases next
        rw [valid_iff] at valid
        cases clean : (f.apply key s.config).dirty with
        | false => exact names.mp ((Setter.named_apply_of_clean clean).mpr named)
        | true => exact names.mp (valid clean)
    | addPbNumber | delPbNumber | clearPb | save => trivial
    | load file => cases setter
  · exact fun puts => ⟨answer, s', next, valid_iff.mpr fun _ => names.mpr puts⟩

/-- With the flag set and a name missing, `save` does not return. -/
theorem save_eq_none {s : Session} (dirty : s.config.dirty = true) (missing : ¬ s.config.Named) :
    s.save = none := by
  rw [← text_isSome_iff, Bool.not_eq_true, Option.isSome_eq_false_iff, Option.isNone_iff_eq_none]
    at missing
  rw [save, FnConfig.save, if_pos dirty, missing]
  rfl

theorem save_of_clean {s : Session} (clean : s.config.dirty = false) : s.save = some s := by
  rw [save, FnConfig.save, clean, if_neg Bool.false_ne_true]
  rfl

theorem leavesValid_of_missing {key : Str} {call : Call} {s : Session} (missing : ¬ s.config.Named)
    (clean : s.config.dirty = false) (setter : isLoad call = false) :
    LeavesValid key call s ↔ Quiet key call s ∨ PutsMissing call s := by
  have unchanged : s.Valid := fun dirty => absurd (clean.symm.trans dirty) Bool.false_ne_true
  cases call with
  | set f =>
      have next : LeavesValid key (.set f) s ↔ Valid { s with config := f.apply key s.config } := by
        constructor
        · rintro ⟨answer, s', next, valid⟩
          cases next
          exact valid
        · exact fun valid => ⟨_, _, rfl, valid⟩
      rw [next, valid_iff, Quiet, PutsMissing]
      cases set : (f.apply key s.config).dirty with
      | false => exact iff_of_true (fun dirty => absurd dirty Bool.false_ne_true) (.inl rfl)
      | true =>
          rw [forall_prop_of_true rfl, Setter.named_apply_of_missing missing clean set,
            or_iff_right (fun quiet => by cases quiet)]
  | addPbNumber pbnum pbhost pbport =>
      simp only [LeavesValid, step, Quiet, PutsMissing, or_false]
      cases stored : s.config.addPbNumber pbnum pbhost pbport with
      | none => exact iff_of_true ⟨_, _, rfl, unchanged⟩ rfl
      | some c =>
          have same : named c = named s.config := by
            unfold FnConfig.addPbNumber at stored
            split at stored
            · cases stored
            · obtain ⟨i, -, rfl⟩ := Option.map_eq_some_iff.mp stored
              rfl
          have stuck := @save_eq_none { s with config := c } (dirty_of_addPbNumber stored)
            fun named => missing ((named_congr same).mp named)
          simp [stuck]
  | delPbNumber pbnum =>
      simp only [LeavesValid, step, Quiet, PutsMissing, or_false]
      cases stored : s.config.delPbNumber pbnum with
      | none => exact iff_of_true ⟨_, _, rfl, unchanged⟩ rfl
      | some c =>
          have same : named c = named s.config := by
            obtain ⟨i, -, rfl⟩ := Option.map_eq_some_iff.mp stored
            rfl
          have stuck := @save_eq_none { s with config := c } (dirty_of_delPbNumber stored)
            fun named => missing ((named_congr same).mp named)
          simp [stuck]
  | clearPb =>
      -- The flag is set behind a `save` that does nothing.
      refine iff_of_false ?_ (by simp [Quiet, PutsMissing])
      rintro ⟨answer, s', next, valid⟩
      rw [step, @save_of_clean { s with config := s.config.clearedPb } clean] at next
      cases next
      have named := valid_iff.mp valid rfl
      exact missing ⟨named.command, named.proceed, named.mounts, named.tapes⟩
  | save =>
      refine iff_of_true ⟨true, s, ?_, unchanged⟩ (.inl trivial)
      rw [step, save_of_clean clean]
      rfl
  | load file => cases setter

theorem leavesValid_iff {key : Str} {call : Call} {s : Session} (valid : s.Valid)
    (setter : isLoad call = false) : LeavesValid key call s ↔ Guarded key call s := by
  rw [Guarded]
  by_cases named : s.config.Named
  · rw [forall_prop_of_true named, forall_prop_of_false (not_not.mpr named), and_true]
    exact leavesValid_of_named named setter
  · rw [forall_prop_of_false named, forall_prop_of_true named, true_and]
    refine leavesValid_of_missing named ?_ setter
    exact Bool.eq_false_of_not_eq_true fun dirty => named (valid_iff.mp valid dirty)

theorem along_leavesValid_iff {key : Str} {calls : List Call} {s : Session} (valid : s.Valid)
    (setters : ∀ call ∈ calls, isLoad call = false) :
    Along key (LeavesValid key) calls s ↔ Along key (Guarded key) calls s := by
  induction calls generalizing s with
  | nil => exact Iff.rfl
  | cons call calls ih =>
      rw [List.forall_mem_cons] at setters
      rw [Along, Along, leavesValid_iff valid setters.1]
      refine and_congr_right fun guarded => forall₃_congr fun answer s' next => ?_
      obtain ⟨answer', s'', next', valid'⟩ := (leavesValid_iff valid setters.1).mpr guarded
      cases Option.some.inj (next.symm.trans next')
      exact ih valid' setters.2

/-- After a file was read into a new configuration, and through any calls of setters and of `save`:
every index that `save` uses is in its table exactly if every call is guarded. In the beginning all
names are there exactly if the file has them for its pins and for the modes of the slots that it
uses. -/
theorem name_indices_valid_iff {key file : Str} {c : FnConfig}
    (loaded : load (some file) fresh = some c) {calls : List Call}
    (setters : ∀ call ∈ calls, isLoad call = false) :
    (ValidRun key calls { config := c } ↔ Along key (Guarded key) calls { config := c }) ∧
      (c.Named ↔ FileNamed (sections (inibuffer file))) := by
  refine ⟨?_, named_load_iff loaded⟩
  have clean : c.dirty = false := by
    rw [load_some, Option.map_eq_some_iff] at loaded
    obtain ⟨read, -, rfl⟩ := loaded
    rfl
  have valid : Valid { config := c } := fun dirty => absurd (clean.symm.trans dirty) Bool.false_ne_true
  rw [ValidRun, and_iff_right valid]
  exact along_leavesValid_iff valid setters

theorem name_indices_valid_of_cts :
    ∃ c, load (some "[Serial]\r\ncommand=CTS\r\n".toList) fresh = some c ∧
      ValidRun [] [.set (.mount 0 0 "/dos.atr".toList .write .disk), .save] { config := c } := by
  obtain ⟨c, loaded⟩ : ∃ c, load (some "[Serial]\r\ncommand=CTS\r\n".toList) fresh = some c :=
    ⟨_, rfl⟩
  have setters : ∀ call ∈ [Call.set (.mount 0 0 "/dos.atr".toList .write .disk), .save],
      isLoad call = false := by simp [isLoad]
  obtain ⟨valid, file⟩ := @name_indices_valid_iff [] _ _ loaded _ setters
  have named : c.Named := by
    refine file.mpr ⟨?_, ?_, ?_⟩
    · decide
    · decide
    · have free : ∀ i, lastValue "hostslot".toList (mountLines i
          (sections (inibuffer "[Serial]\r\ncommand=CTS\r\n".toList))) = none := by decide
      intro i v given
      rw [free i] at given
      cases given
  refine ⟨c, loaded, valid.mpr ⟨⟨fun _ _ _ => ?_, fun no => absurd named no⟩, fun answer s' next => ?_⟩⟩
  · decide
  · cases next
    have stored : (Setter.apply [] (.mount 0 0 "/dos.atr".toList .write .disk) c).Named :=
      (Setter.named_apply_iff named).mpr fun _ _ => by decide
    exact ⟨⟨fun _ => trivial, fun no => absurd stored no⟩, fun _ _ _ => trivial⟩

/-- With a name missing, another value is stored, and then the configuration is saved: a pin with an
unknown name, and a slot in use without a mode. -/
theorem invalid_indices_of_files :
    (∃ c s, load (some "[Serial]\r\ncommand=bogus\r\n".toList) fresh = some c ∧
      step [] (.set (.generalDevicename "Atari".toList)) { config := c } = some (true, s) ∧
      step [] .save s = none) ∧
    ∃ c s, load (some "[Mount1]\r\nhostslot=1\r\n".toList) fresh = some c ∧
      step [] (.set (.generalDevicename "Atari".toList)) { config := c } = some (true, s) ∧
      step [] .save s = none :=
  ⟨⟨_, _, rfl, rfl, rfl⟩, ⟨_, _, rfl, rfl, rfl⟩⟩

end Session

end FujiNet.FnConfig
