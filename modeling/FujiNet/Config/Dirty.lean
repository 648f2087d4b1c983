import FujiNet.Config.Persisted
import FujiNet.Control.Machine

/-!
# The flag for unsaved changes

A session is a configuration with a record of the file: its persisted members as they
were last written or read. Memory may differ from that record only while `_dirty` is
set. Every setter but `reset_wifi` keeps to this. `load` does where nothing is in
memory yet, since it leaves alone what the file does not mention.

`add_pb_number` and `del_pb_number` save what they change. `clear_pb` calls `save`
before it sets `_dirty`, so that nothing is written unless it was set already.
-/

namespace FujiNet.FnConfig

/-! ## Setters and the flag -/

/-- A change that sets the flag or leaves the persisted members and the flag as they are. -/
def Tracked (c c' : FnConfig) : Prop :=
  c'.dirty = true ∨ persisted c' = persisted c ∧ c'.dirty = c.dirty

theorem tracked_storeIfChanged {α : Type} [DecidableEq α] (get : FnConfig → α)
    (set : FnConfig → α → FnConfig) (value : α) (c : FnConfig) :
    Tracked c (storeIfChanged get set value c) := by
  unfold storeIfChanged
  split
  · exact .inr ⟨rfl, rfl⟩
  · exact .inl rfl

theorem tracked_storeSlot {n : Nat} {α : Type} [DecidableEq α] (slots : FnConfig → Fin n → α)
    (set : FnConfig → (Fin n → α) → FnConfig) (num : UInt8) (value : Fin n → α) (c : FnConfig) :
    Tracked c (storeSlot slots set num value c) := by
  unfold storeSlot
  split
  · exact tracked_storeIfChanged _ _ _ c
  · exact .inr ⟨rfl, rfl⟩

/-- `reset_wifi` is the one setter that can change a persisted member behind the flag. -/
theorem Setter.tracked {key : Str} {f : Setter} {c : FnConfig}
    (h : f = .resetWifi → c.dirty = true ∨ c.wifi.ssid = [] ∧ c.wifi.passphrase = []) :
    Tracked c (f.apply key c) := by
  cases f with
  | generalEncryptPassphrase v =>
      simp only [apply, storeGeneralEncryptPassphrase]
      split
      · exact .inr ⟨rfl, rfl⟩
      · exact .inl rfl
  | serialCommand v =>
      simp only [apply, storeSerialCommand]
      split
      · exact .inr ⟨rfl, rfl⟩
      · exact .inl rfl
  | serialProceed v =>
      simp only [apply, storeSerialProceed]
      split
      · exact .inr ⟨rfl, rfl⟩
      · exact .inl rfl
  | wifiSsid v n =>
      simp only [apply, storeWifiSsid]
      split
      · exact .inr ⟨rfl, rfl⟩
      · exact .inl rfl
  | wifiPassphrase v n =>
      simp only [apply, storeWifiPassphrase]
      split
      · exact .inr ⟨rfl, rfl⟩
      · exact .inl rfl
  | resetWifi =>
      rcases h rfl with dirty | ⟨ssid, passphrase⟩
      · exact .inl dirty
      · have same : apply key .resetWifi c = c := by
          have wifi : { c.wifi with ssid := [], passphrase := [] } = c.wifi :=
            WifiInfo.ext ssid.symm passphrase.symm rfl
          simp only [apply, FnConfig.resetWifi, wifi]
        rw [same]
        exact .inr ⟨rfl, rfl⟩
  | wifiEnabled | wifiStoredSsid | wifiStoredPassphrase | wifiStoredEnabled | btStatus | btBaud
  | btDevname | markDirty => exact .inl rfl
  | generalInterfaceUrl | generalConfigPath | generalSDPath | udpstreamHost | udpstreamPort =>
      exact .inr ⟨rfl, rfl⟩
  | host | clearHost | printerType | printerPort => exact tracked_storeSlot _ _ _ _ c
  | mount num hostslot path mode type => cases type <;> exact tracked_storeSlot _ _ _ _ c
  | clearMount num type => cases type <;> exact tracked_storeSlot _ _ _ _ c
  | _ => exact tracked_storeIfChanged _ _ _ c

/-! ## Loading into a new configuration -/

/-- `c` with those members of `d` that are not in the file. -/
def keep (d c : FnConfig) : FnConfig :=
  { c with
    dirty := d.dirty
    general :=
      { c.general with
        interfaceUrl := d.general.interfaceUrl
        configFilePath := d.general.configFilePath
        sdDirPath := d.general.sdDirPath }
    network :=
      { c.network with
        udpstreamHost := d.network.udpstreamHost
        udpstreamPort := d.network.udpstreamPort } }

/-- The members of the file have the values of a new configuration. -/
def AtDefaults (c : FnConfig) : Prop := c = keep c fresh

theorem ite_eq_apply {α : Type} {F : α → α} {p : Prop} [Decidable p] {x y x' y' : α}
    (hx : x' = F x) (hy : y' = F y) : (if p then x' else y') = F (if p then x else y) := by
  split
  · exact hx
  · exact hy

theorem generalField_keep (name value url path dir : Str) (g : GeneralInfo) :
    generalField name value { g with interfaceUrl := url, configFilePath := path, sdDirPath := dir } =
      { generalField name value g with
        interfaceUrl := url, configFilePath := path, sdDirPath := dir } := by
  let F : GeneralInfo → GeneralInfo := fun g =>
    { g with interfaceUrl := url, configFilePath := path, sdDirPath := dir }
  change generalField name value (F g) = F (generalField name value g)
  unfold generalField
  iterate 10 refine ite_eq_apply (F := F) rfl ?_
  rfl

theorem Section.field_keep (sec : Section) (d : FnConfig) (name value : Str) (c : FnConfig) :
    sec.field name value (keep d c) = (sec.field name value c).map (keep d) := by
  cases sec with
  | general =>
      exact congrArg (fun g => some { keep d c with general := g })
        (generalField_keep name value _ _ _ c.general)
  | network =>
      simp only [field, Option.map_some, networkField]
      split <;> rfl
  | bt =>
      have same : (keep d c).bt = c.bt := rfl
      simp only [field, Option.map_map, same]
      rfl
  | _ => rfl

theorem Section.onLine_keep (sec : Section) (d c : FnConfig) (line : Str) :
    sec.onLine (keep d c) line = (sec.onLine c line).map (keep d) := by
  have atLine : sec.atLine (keep d c) = keep d (sec.atLine c) := by
    cases sec <;> rfl
  unfold onLine
  rw [atLine]
  split
  · exact sec.field_keep d _ _ _
  · rfl

theorem foldlM_keep {α : Type} {step : FnConfig → α → Option FnConfig} {d : FnConfig}
    (h : ∀ c a, step (keep d c) a = (step c a).map (keep d)) (l : List α) (c : FnConfig) :
    l.foldlM step (keep d c) = (l.foldlM step c).map (keep d) := by
  induction l generalizing c with
  | nil => rfl
  | cons a l ih =>
      rw [List.foldlM_cons, List.foldlM_cons, h]
      cases step c a with
      | none => rfl
      | some c' => exact ih c'

/-- The members that are not in the file have no part in reading it. -/
theorem load_keep (file : Str) (d c : FnConfig) :
    (load (some file) (keep d c)).map persisted = (load (some file) c).map persisted := by
  have section_ (c : FnConfig) (s : Section × List Str) :
      readSection (keep d c) s = (readSection c s).map (keep d) := by
    have reset : s.1.reset (keep d c) = keep d (s.1.reset c) := by
      cases s.1 <;> rfl
    rw [readSection, readSection, reset]
    exact foldlM_keep (fun c line => s.1.onLine_keep d c line) _ _
  rw [load_some, load_some, foldlM_keep section_]
  cases (sections (inibuffer file)).foldlM readSection c <;> rfl

theorem AtDefaults.load {c : FnConfig} (h : c.AtDefaults) (file : Str) :
    (FnConfig.load (some file) c).map persisted = (FnConfig.load (some file) fresh).map persisted := by
  rw [h]
  exact load_keep file c fresh

/-! ## Sessions -/

/-- A configuration in memory and the persisted members as the file was last written or read. -/
structure Session where
  config : FnConfig := fresh
  contents : Option FnConfig := none

/-- A call of one of the members of `fnConfig`. For `load`, the file that is found; for `save`, and
where it is called in turn, the file can be written. -/
inductive Call
  | set (f : Setter)
  | addPbNumber (pbnum pbhost pbport : Str)
  | delPbNumber (pbnum : Str)
  | clearPb
  | save
  | load (file : Option Str)

namespace Session

/-- The file says what is in memory. -/
def Agrees (s : Session) : Prop := s.contents = some (persisted s.config)

def save (s : Session) : Option Session :=
  s.config.save.map fun result =>
    { config := result.2
      contents := if result.1.isSome then some (persisted s.config) else s.contents }

/-- A call with its result, which is `true` where there is none. What a file says is what a new
configuration reads from it. -/
def step (key : Str) : Call → Session → Option (Bool × Session)
  | .set f, s => some (true, { s with config := f.apply key s.config })
  | .addPbNumber pbnum pbhost pbport, s =>
    match s.config.addPbNumber pbnum pbhost pbport with
    | some c => (save { s with config := c }).map (true, ·)
    | none => some (false, s)
  | .delPbNumber pbnum, s =>
    match s.config.delPbNumber pbnum with
    | some c => (save { s with config := c }).map (true, ·)
    | none => some (false, s)
  | .clearPb, s =>
    (save { s with config := s.config.clearedPb }).map fun s =>
      (true, { s with config := { s.config with dirty := true } })
  | .save, s => s.save.map (true, ·)
  | .load file, s =>
    (FnConfig.load file s.config).map fun c =>
      (true,
        { config := c
          contents := file.bind fun file => (FnConfig.load (some file) fresh).map persisted })

/-- Calls after which the flag can be trusted. -/
def Allowed : Call → Session → Prop
  | .set .resetWifi, s =>
    s.config.dirty = true ∨ s.config.wifi.ssid = [] ∧ s.config.wifi.passphrase = []
  | .load (some _), s => s.config.AtDefaults
  | _, _ => True

/-- Memory differs from the file only while the flag is set. -/
def Inv (s : Session) : Prop :=
  ∀ k, s.contents = some k → k ≠ persisted s.config → s.config.dirty = true

theorem Agrees.inv {s : Session} (h : s.Agrees) : s.Inv := by
  intro k contents differs
  exact absurd (Option.some.inj (contents.symm.trans h)) differs

/-- A save writes everything or, without changes, nothing. -/
theorem save_cases {s s' : Session} (h : s.save = some s') :
    s.config.dirty = true ∧ s'.Agrees ∨ s.config.dirty = false ∧ s' = s := by
  unfold save FnConfig.save at h
  cases dirty : s.config.dirty with
  | true =>
      rw [dirty, if_pos rfl, Option.map_map, Option.map_eq_some_iff] at h
      obtain ⟨t, -, rfl⟩ := h
      exact .inl ⟨rfl, rfl⟩
  | false =>
      rw [dirty, if_neg Bool.false_ne_true] at h
      cases h
      exact .inr ⟨rfl, rfl⟩

theorem dirty_of_addPbNumber {pbnum pbhost pbport : Str} {c c' : FnConfig}
    (h : c.addPbNumber pbnum pbhost pbport = some c') : c'.dirty = true := by
  unfold addPbNumber at h
  split at h
  · cases h
  · obtain ⟨i, -, rfl⟩ := Option.map_eq_some_iff.mp h
    rfl

theorem dirty_of_delPbNumber {pbnum : Str} {c c' : FnConfig}
    (h : c.delPbNumber pbnum = some c') : c'.dirty = true := by
  obtain ⟨i, -, rfl⟩ := Option.map_eq_some_iff.mp h
  rfl

/-- What is stored with the flag set is written. -/
theorem agrees_of_save {s s' : Session} {c : FnConfig} (dirty : c.dirty = true)
    (h : save { s with config := c } = some s') : s'.Agrees := by
  rcases save_cases h with ⟨-, agrees⟩ | ⟨clean, -⟩
  · exact agrees
  · exact absurd (clean.symm.trans dirty) Bool.false_ne_true

theorem inv_step {key : Str} {call : Call} {s s' : Session} {answer : Bool} (inv : s.Inv)
    (h : step key call s = some (answer, s')) (allowed : Allowed call s) : s'.Inv := by
  cases call with
  | set f =>
      cases h
      have change : Tracked s.config (f.apply key s.config) := by
        refine Setter.tracked fun reset => ?_
        subst reset
        exact allowed
      intro k contents differs
      rcases change with dirty | ⟨same, flag⟩
      · exact dirty
      · exact flag.trans (inv k contents fun e => differs (e.trans same.symm))
  | addPbNumber pbnum pbhost pbport =>
      simp only [step] at h
      split at h
      · rename_i c stored
        obtain ⟨s₁, saved, same⟩ := Option.map_eq_some_iff.mp h
        cases same
        exact (agrees_of_save (dirty_of_addPbNumber stored) saved).inv
      · cases h
        exact inv
  | delPbNumber pbnum =>
      simp only [step] at h
      split at h
      · rename_i c stored
        obtain ⟨s₁, saved, same⟩ := Option.map_eq_some_iff.mp h
        cases same
        exact (agrees_of_save (dirty_of_delPbNumber stored) saved).inv
      · cases h
        exact inv
  | clearPb =>
      obtain ⟨s₁, -, same⟩ := Option.map_eq_some_iff.mp h
      cases same
      exact fun _ _ _ => rfl
  | save =>
      obtain ⟨s₁, saved, same⟩ := Option.map_eq_some_iff.mp h
      cases same
      rcases save_cases saved with ⟨-, agrees⟩ | ⟨-, rfl⟩
      · exact agrees.inv
      · exact inv
  | load file =>
      obtain ⟨c, loaded, same⟩ := Option.map_eq_some_iff.mp h
      cases same
      cases file with
      | none => exact fun k contents => nomatch contents
      | some file =>
          have read := AtDefaults.load allowed file
          rw [loaded] at read
          exact Agrees.inv read.symm

/-! ## Setters that save -/

end Session

/-- The setters that are to save at once. -/
def Call.savesAtOnce : Call → Bool
  | .addPbNumber .. | .delPbNumber .. | .clearPb => true
  | _ => false

namespace Session

/-- When such a setter leaves the file in agreement with memory. -/
def Saved : Call → Session → Prop
  | .addPbNumber pbnum _ _, s =>
    (pbnum.length ≤ PHONEBOOK_CHAR_WIDTH ∧ ∃ i, (s.config.phonebookSlots i).phnumber = []) ∨ s.Agrees
  | .delPbNumber pbnum, s => (∃ i, (s.config.phonebookSlots i).phnumber = pbnum) ∨ s.Agrees
  | .clearPb, s =>
    s.config.dirty = true ∨ s.Agrees ∧ ∀ i, (s.config.phonebookSlots i).phnumber = []
  | _, _ => True

theorem findPbSlot_isSome {c : FnConfig} {pbnum : Str} :
    (c.findPbSlot pbnum).isSome = true ↔ ∃ i, (c.phonebookSlots i).phnumber = pbnum := by
  simp [findPbSlot]

theorem addPbNumber_isSome {c : FnConfig} {pbnum : Str} (pbhost pbport : Str) :
    (c.addPbNumber pbnum pbhost pbport).isSome = true ↔
      pbnum.length ≤ PHONEBOOK_CHAR_WIDTH ∧ ∃ i, (c.phonebookSlots i).phnumber = [] := by
  rw [← findPbSlot_isSome]
  unfold addPbNumber
  split
  · rename_i long
    exact ⟨fun h => (nomatch h), fun h => absurd h.1 (Nat.not_le.mpr long)⟩
  · rename_i short
    rw [Option.isSome_map]
    exact ⟨fun h => ⟨Nat.not_lt.mp short, h⟩, And.right⟩

theorem delPbNumber_isSome {c : FnConfig} {pbnum : Str} :
    (c.delPbNumber pbnum).isSome = true ↔ ∃ i, (c.phonebookSlots i).phnumber = pbnum := by
  rw [← findPbSlot_isSome, delPbNumber, Option.isSome_map]

/-- Clearing an empty phonebook changes nothing that is written, clearing another does. -/
theorem persisted_clearedPb_iff {c : FnConfig} :
    persisted c.clearedPb = persisted c ↔ ∀ i, (c.phonebookSlots i).phnumber = [] := by
  constructor
  · intro same i
    have slot := congrArg (fun c => (c.phonebookSlots i).phnumber) same
    by_contra used
    simp only [persisted, clearedPb, PhbookInfo.inUse, if_neg used] at slot
    exact used slot.symm
  · intro empty
    apply FnConfig.ext <;> try rfl
    funext i
    simp only [persisted, clearedPb, PhbookInfo.inUse, if_pos (empty i)]
    rfl

theorem agrees_step_iff {key : Str} {call : Call} {s s' : Session} {answer : Bool} (inv : s.Inv)
    (atOnce : call.savesAtOnce = true) (h : step key call s = some (answer, s')) :
    s'.Agrees ↔ Saved call s := by
  cases call with
  | addPbNumber pbnum pbhost pbport =>
      rw [Saved, ← addPbNumber_isSome pbhost pbport]
      simp only [step] at h
      split at h
      · rename_i c stored
        obtain ⟨s₁, saved, same⟩ := Option.map_eq_some_iff.mp h
        cases same
        rw [stored]
        exact ⟨fun _ => .inl rfl, fun _ => agrees_of_save (dirty_of_addPbNumber stored) saved⟩
      · rename_i refused
        cases h
        rw [refused]
        exact ⟨.inr, fun either => either.resolve_left (fun h => nomatch h)⟩
  | delPbNumber pbnum =>
      rw [Saved, ← delPbNumber_isSome]
      simp only [step] at h
      split at h
      · rename_i c stored
        obtain ⟨s₁, saved, same⟩ := Option.map_eq_some_iff.mp h
        cases same
        rw [stored]
        exact ⟨fun _ => .inl rfl, fun _ => agrees_of_save (dirty_of_delPbNumber stored) saved⟩
      · rename_i refused
        cases h
        rw [refused]
        exact ⟨.inr, fun either => either.resolve_left (fun h => nomatch h)⟩
  | clearPb =>
      obtain ⟨s₁, saved, same⟩ := Option.map_eq_some_iff.mp h
      cases same
      rcases save_cases saved with ⟨dirty, agrees⟩ | ⟨clean, rfl⟩
      · exact ⟨fun _ => .inl dirty, fun _ => agrees⟩
      · have flag : s.config.dirty = false := clean
        rw [Saved, flag, ← persisted_clearedPb_iff]
        constructor
        · intro agrees
          have before : persisted s.config.clearedPb = persisted s.config := by
            by_contra differs
            exact Bool.false_ne_true (flag.symm.trans (inv _ agrees differs))
          exact .inr ⟨agrees.trans (congrArg some before), before⟩
        · rintro (h | ⟨agrees, same⟩)
          · cases h
          · exact agrees.trans (congrArg some same.symm)
  | set f => cases atOnce
  | save => cases atOnce
  | load file => cases atOnce

/-- In a run of calls with no `reset_wifi` that clears a saved network, and no `load` into a
configuration that was changed, memory differs from the file only while `_dirty` is set; and the
setters that save at once leave them in agreement exactly where `Saved` says so. -/
theorem dirty_of_differs {key : Str} {s : Session}
    (reached : Machine.Reaches (step key) (fun call s _ _ => Allowed call s) {} s) :
    (∀ k, s.contents = some k → k ≠ persisted s.config → s.config.dirty = true) ∧
      ∀ call answer s', call.savesAtOnce = true → step key call s = some (answer, s') →
        (s'.Agrees ↔ Saved call s) := by
  have inv : s.Inv := by
    refine reached.invariant Inv ?_ fun call s answer s' inv h allowed => inv_step inv h allowed
    exact fun k contents => nomatch contents
  exact ⟨inv, fun call answer s' atOnce h => agrees_step_iff inv atOnce h⟩

theorem dirty_of_differs_after_host :
    ∃ s, Machine.Reaches (step []) (fun call s _ _ => Allowed call s) {} s ∧
      s.contents = some (persisted fresh) ∧ s.config.dirty = true ∧
      ∀ k, s.contents = some k → k ≠ persisted s.config → s.config.dirty = true := by
  have loaded : step [] (.load (some [])) {} =
      some (true, { config := fresh, contents := some (persisted fresh) }) := rfl
  have first : Machine.Reaches (step []) (fun call s _ _ => Allowed call s) {} _ :=
    Machine.Reaches.refl.next loaded (show fresh.AtDefaults from rfl)
  have reached := first.next
    (show step [] (.set (.host 0 "SD".toList .sd)) _ = some (true, _) from rfl) trivial
  exact ⟨_, reached, rfl, rfl, (dirty_of_differs reached).1⟩

/-- After `reset_wifi` the file still has the network, and `_dirty` is not set; after `clear_pb` it
still has the phonebook. -/
theorem resetWifi_clearPb_not_written :
    (∃ answers s, Machine.run (step [])
        [.set (.wifiSsid "attic".toList 32), .save, .set .resetWifi] {} = some (answers, s) ∧
      s.contents.isSome = true ∧ ¬ s.Agrees ∧ s.config.dirty = false) ∧
    ∃ answers s, Machine.run (step [])
        [.addPbNumber "555".toList "bbs".toList "23".toList, .clearPb] {} = some (answers, s) ∧
      ¬ s.Agrees := by
  refine ⟨⟨_, _, rfl, rfl, fun agrees => ?_, rfl⟩, _, _, rfl, fun agrees => ?_⟩
  · have ssid := congrArg (fun k => k.wifi.ssid) (Option.some.inj agrees)
    cases ssid
  · have entry := congrArg (fun k => (k.phonebookSlots 0).phnumber) (Option.some.inj agrees)
    cases entry

end Session

end FujiNet.FnConfig
