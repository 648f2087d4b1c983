import FujiNet.Config.Storable
import FujiNet.Config.Setters

/-!
# What comes back after a restart

`persisted` keeps of a configuration what has a place in the file. Where strings and
numbers are of the kind the reader accepts, `save` and `load` keep all of it, except
for two things. The loop of `save` over the stored WiFi entries ends at the first one
that is not enabled. And the readers of tape and printer sections mix up slots: a tape
goes to a disk slot, and all printers go to the first.
-/

namespace FujiNet.FnConfig

open Text Lines

/-! ## Persisted members -/

def HostInfo.inUse (h : HostInfo) : HostInfo := if h.type = .invalid then {} else h
def MountInfo.inUse (m : MountInfo) : MountInfo := if m.hostSlot < 0 then {} else m
def PrinterInfo.inUse (p : PrinterInfo) : PrinterInfo := if p.type = .invalid then {} else p
def WifiInfo.inUse (w : WifiInfo) : WifiInfo := if w.enabled then w else { enabled := false }
def PhbookInfo.inUse (p : PhbookInfo) : PhbookInfo := if p.phnumber = [] then {} else p

/-- The members with a place in the file. The others, and slots that are not in use, are as in a
new configuration. -/
def persisted (c : FnConfig) : FnConfig :=
  { c with
    dirty := false
    hostSlots := fun i => (c.hostSlots i).inUse
    mountSlots := fun i => (c.mountSlots i).inUse
    printerSlots := fun i => (c.printerSlots i).inUse
    tapeSlots := fun i => (c.tapeSlots i).inUse
    wifiStored := fun i => (c.wifiStored i).inUse
    phonebookSlots := fun i => (c.phonebookSlots i).inUse
    network := { sntpserver := c.network.sntpserver }
    general :=
      { c.general with
        interfaceUrl := fresh.general.interfaceUrl
        configFilePath := fresh.general.configFilePath
        sdDirPath := fresh.general.sdDirPath } }

/-- Strings and numbers that the reader takes as they were written. -/
structure Storable (c : FnConfig) : Prop where
  plain : ∀ s ∈ c.strings, PlainText s
  trimmed : ∀ s ∈ c.strings, Trimmed s
  sntpserver : c.network.sntpserver.length < 40
  hsioIndex : -1 ≤ c.general.hsioIndex ∧ c.general.hsioIndex ≤ 10 ∨ c.general.hsioIndex = 16
  bootMode : isInt32 c.general.bootMode = true
  btBaud : isInt32 c.bt.btBaud = true
  netsioPort : 0 < c.netsio.port ∧ c.netsio.port ≤ 65535
  boipPort : 0 < c.boip.port ∧ c.boip.port ≤ 65535
  hostSlot : ∀ i, (c.mountSlots i).hostSlot < MAX_HOST_SLOTS

/-! ## Values that come back -/

theorem hsioIndexOf_decimal {index : Int} (h : -1 ≤ index ∧ index ≤ 10 ∨ index = 16) (old : Int) :
    hsioIndexOf (decimal index) old = index := by
  have fits : isInt32 index = true := by
    simp only [isInt32, Bool.and_eq_true, decide_eq_true_eq]
    omega
  rw [hsioIndexOf, atoi_decimal fits, if_pos h]

theorem hostSlotOf_mem (value : Str) : -1 ≤ hostSlotOf value ∧ hostSlotOf value < MAX_HOST_SLOTS := by
  unfold hostSlotOf HOST_SLOT_INVALID
  split <;> omega

theorem hostSlotOf_decimal {slot : Int} (low : 0 ≤ slot) (high : slot < MAX_HOST_SLOTS) :
    hostSlotOf (decimal (slot + 1)) = slot := by
  have fits : isInt32 (slot + 1) = true := by
    simp only [isInt32, MAX_HOST_SLOTS, Bool.and_eq_true, decide_eq_true_eq] at high ⊢
    omega
  rw [hostSlotOf, atoi_decimal fits, if_neg (by omega)]
  omega

theorem printerPortOf_mem (value : Str) : 0 ≤ printerPortOf value ∧ printerPortOf value ≤ 3 := by
  unfold printerPortOf
  split <;> omega

theorem printerPortOf_decimal {port : Int} (low : 0 ≤ port) (high : port ≤ 3) :
    printerPortOf (decimal (port + 1)) = port := by
  have fits : isInt32 (port + 1) = true := by
    simp only [isInt32, Bool.and_eq_true, decide_eq_true_eq]
    omega
  rw [printerPortOf, atoi_decimal fits, if_neg (by omega)]
  omega

theorem reloadMount_eq {m : MountInfo} (low : 0 ≤ m.hostSlot) (high : m.hostSlot < MAX_HOST_SLOTS)
    (path : Trimmed m.path) : reloadMount m = m :=
  MountInfo.ext (hostSlotOf_decimal low high) rfl path.trim

theorem mem_takeWhile_iff {α : Type} [LinearOrder α] {p : α → Bool} {l : List α}
    (sorted : l.Pairwise (· < ·)) {a : α} :
    a ∈ l.takeWhile p ↔ a ∈ l ∧ ∀ b ∈ l, b ≤ a → p b = true := by
  induction l with
  | nil => simp
  | cons x l ih =>
      obtain ⟨first, rest⟩ := List.pairwise_cons.mp sorted
      by_cases hx : p x = true
      · rw [List.takeWhile_cons_of_pos hx, List.mem_cons, List.mem_cons, List.forall_mem_cons,
          ih rest]
        constructor
        · rintro (rfl | ⟨mem, all⟩)
          · exact ⟨.inl rfl, fun _ => hx, fun b mem le => absurd (first b mem) (not_lt.mpr le)⟩
          · exact ⟨.inr mem, fun _ => hx, all⟩
        · rintro ⟨rfl | mem, -, all⟩
          · exact .inl rfl
          · exact .inr ⟨mem, all⟩
      · rw [List.takeWhile_cons_of_neg hx, List.forall_mem_cons]
        refine ⟨fun mem => absurd mem List.not_mem_nil, ?_⟩
        rintro ⟨mem, atFirst, -⟩
        rcases List.mem_cons.mp mem with rfl | mem
        · exact absurd (atFirst le_rfl) hx
        · exact absurd (atFirst (first a mem).le) hx

/-- The entries that are saved are those with only enabled ones up to them. -/
theorem mem_wifiStoredSaved {stored : Fin MAX_WIFI_STORED → WifiInfo} {i : Fin MAX_WIFI_STORED} :
    i ∈ wifiStoredSaved stored ↔ ∀ j ≤ i, (stored j).enabled = true := by
  rw [wifiStoredSaved, mem_takeWhile_iff (List.pairwise_lt_finRange _)]
  simp

/-! ## Slots that come back -/

section Slots

variable {c : FnConfig}

theorem inUse_hosts (names : ∀ i, Trimmed (c.hostSlots i).name) :
    (fun i => (if i ∈ hostsSaved c.hostSlots then reloadHost (c.hostSlots i)
      else fresh.hostSlots i).inUse) = fun i => (c.hostSlots i).inUse := by
  funext i
  by_cases used : (c.hostSlots i).type = .invalid
  · have gone : i ∉ hostsSaved c.hostSlots := by simpa [hostsSaved] using used
    rw [if_neg gone, HostInfo.inUse, HostInfo.inUse, if_pos used]
    rfl
  · have saved : i ∈ hostsSaved c.hostSlots := by simpa [hostsSaved] using used
    rw [if_pos saved, reloadHost, (names i).trim]

theorem inUse_phonebook (entries : ∀ i, Trimmed (c.phonebookSlots i).phnumber ∧
    Trimmed (c.phonebookSlots i).hostname ∧ Trimmed (c.phonebookSlots i).port) :
    (fun i => (if i ∈ phonebookSaved c.phonebookSlots then reloadPhbook (c.phonebookSlots i)
      else fresh.phonebookSlots i).inUse) = fun i => (c.phonebookSlots i).inUse := by
  funext i
  by_cases used : (c.phonebookSlots i).phnumber = []
  · have gone : i ∉ phonebookSaved c.phonebookSlots := by simpa [phonebookSaved] using used
    rw [if_neg gone, PhbookInfo.inUse, PhbookInfo.inUse, if_pos used]
    rfl
  · have saved : i ∈ phonebookSaved c.phonebookSlots := by simpa [phonebookSaved] using used
    obtain ⟨number, host, port⟩ := entries i
    rw [if_pos saved, reloadPhbook, number.trim, host.trim, port.trim]

/-- Without tapes, the disk slots come back where the host slots exist. -/
theorem inUse_reloadMounts_iff (paths : ∀ i, Trimmed (c.mountSlots i).path) :
    (fun i => (reloadMounts c fresh i).inUse) = (fun i => (c.mountSlots i).inUse) ↔
      ∀ i, (c.mountSlots i).hostSlot < MAX_HOST_SLOTS := by
  constructor
  · intro same i
    by_contra high
    have used : ¬ (c.mountSlots i).hostSlot < 0 := by omega
    have saved : i ∈ mountsSaved c.mountSlots := by simpa [mountsSaved] using used
    have back := congrArg MountInfo.hostSlot (congrFun same i)
    simp only [reloadMounts, if_pos saved, MountInfo.inUse, if_neg used] at back
    have inRange := hostSlotOf_mem (decimal ((c.mountSlots i).hostSlot + 1))
    split at back
    · simp only [HOST_SLOT_INVALID] at back
      omega
    · have slot : (reloadMount (c.mountSlots i)).hostSlot =
          hostSlotOf (decimal ((c.mountSlots i).hostSlot + 1)) := rfl
      omega
  · intro exist
    funext i
    by_cases used : (c.mountSlots i).hostSlot < 0
    · have gone : i ∉ mountsSaved c.mountSlots := by simpa [mountsSaved] using used
      rw [reloadMounts, if_neg gone, MountInfo.inUse, MountInfo.inUse, if_pos used]
      rfl
    · have saved : i ∈ mountsSaved c.mountSlots := by simpa [mountsSaved] using used
      rw [reloadMounts, if_pos saved, reloadMount_eq (by omega) (exist i) (paths i)]

/-- Printers come back where there is only the first one, on a port from 0 to 3. -/
theorem inUse_printers_iff (printers : Fin MAX_PRINTER_SLOTS → PrinterInfo) :
    (fun i => (((printersSaved printers).foldl
        (fun slots i => Function.update slots 0 (reloadPrinter (printers i)))
        fresh.printerSlots) i).inUse) = (fun i => (printers i).inUse) ↔
      (∀ i, i ≠ 0 → (printers i).type = .invalid) ∧
        ((printers 0).type ≠ .invalid → 0 ≤ (printers 0).port ∧ (printers 0).port ≤ 3) := by
  have others (l : List (Fin MAX_PRINTER_SLOTS)) (slots : Fin MAX_PRINTER_SLOTS → PrinterInfo)
      {i : Fin MAX_PRINTER_SLOTS} (ne : i ≠ 0) :
      l.foldl (fun slots i => Function.update slots 0 (reloadPrinter (printers i))) slots i =
        slots i := by
    induction l generalizing slots with
    | nil => rfl
    | cons j l ih => rw [List.foldl_cons, ih, Function.update_of_ne ne]
  have only (rest : ∀ i, i ≠ 0 → (printers i).type = .invalid) :
      printersSaved printers = if (printers 0).type = .invalid then [] else [0] := by
    have list : List.finRange MAX_PRINTER_SLOTS = [0, 1, 2, 3] := rfl
    rw [printersSaved, list]
    by_cases used : (printers 0).type = .invalid
    · simp [used, rest 1 (by decide), rest 2 (by decide), rest 3 (by decide)]
    · simp [used, rest 1 (by decide), rest 2 (by decide), rest 3 (by decide)]
  constructor
  · intro same
    have rest : ∀ i, i ≠ 0 → (printers i).type = .invalid := by
      intro i ne
      by_contra used
      have back := congrArg PrinterInfo.type (congrFun same i)
      simp only [others _ _ ne, PrinterInfo.inUse, if_neg used] at back
      exact used back.symm
    refine ⟨rest, fun used => ?_⟩
    have back := congrArg PrinterInfo.port (congrFun same 0)
    simp only [only rest, if_neg used, List.foldl_cons, List.foldl_nil, Function.update_self,
      reloadPrinter, PrinterInfo.inUse] at back
    rw [← back]
    exact printerPortOf_mem _
  · rintro ⟨rest, port⟩
    funext i
    by_cases ne : i = 0
    · subst ne
      rw [only rest]
      by_cases used : (printers 0).type = .invalid
      · simp only [if_pos used, PrinterInfo.inUse, List.foldl_nil]
        rfl
      · simp only [if_neg used, List.foldl_cons, List.foldl_nil, Function.update_self]
        rw [reloadPrinter, printerPortOf_decimal (port used).1 (port used).2]
    · simp only [others _ _ ne, PrinterInfo.inUse, if_pos (rest i ne)]
      rfl

theorem inUse_wifiStored_iff {stored : Fin MAX_WIFI_STORED → WifiInfo}
    (trimmed : ∀ i, Trimmed (stored i).ssid ∧ Trimmed (stored i).passphrase) :
    (fun i => (if i ∈ wifiStoredSaved stored then { reloadWifi (stored i) with enabled := true }
        else fresh.wifiStored i).inUse) = (fun i => (stored i).inUse) ↔
      ∀ i j, i < j → (stored j).enabled = true → (stored i).enabled = true := by
  constructor
  · intro same i j lt enabled
    have back := congrArg WifiInfo.enabled (congrFun same j)
    by_contra off
    have lost : j ∉ wifiStoredSaved stored := fun mem =>
      off (mem_wifiStoredSaved.mp mem i lt.le)
    simp only [if_neg lost, WifiInfo.inUse, if_pos enabled] at back
    rw [enabled] at back
    cases back
  · intro noGap
    funext i
    by_cases enabled : (stored i).enabled = true
    · have saved : i ∈ wifiStoredSaved stored := by
        refine mem_wifiStoredSaved.mpr fun j le => ?_
        rcases le.lt_or_eq with lt | rfl
        · exact noGap j i lt enabled
        · exact enabled
      rw [if_pos saved, reloadWifi, (trimmed i).1.trim, (trimmed i).2.trim,
        WifiInfo.with_enabled enabled]
    · have lost : i ∉ wifiStoredSaved stored := fun mem =>
        enabled (mem_wifiStoredSaved.mp mem i le_rfl)
      rw [if_neg lost, WifiInfo.inUse, WifiInfo.inUse, if_neg enabled]
      rfl

end Slots

/-! ## The file as a whole -/

theorem save_of_text {c : FnConfig} {t : Str} (dirty : c.dirty = true) (made : c.text = some t) :
    c.save = some (some t, { c with dirty := false }) := by
  rw [save, if_pos dirty, made]
  rfl

/-- What `save` writes is within a bound if the length that it has is. -/
theorem save_of_length {c : FnConfig} {n : Nat}
    (small : (c.save.bind Prod.fst).any (fun t => t.length ≤ n) = true) :
    ∃ t c', c.save = some (some t, c') ∧ t.length ≤ n := by
  cases saved : c.save with
  | none => simp [saved] at small
  | some r =>
      obtain ⟨t, c'⟩ := r
      cases t with
      | none => simp [saved] at small
      | some t => exact ⟨t, c', rfl, by simpa [saved] using small⟩

theorem text_of_save {c c' : FnConfig} {t : Str} (saved : c.save = some (some t, c')) :
    c.text = some t := by
  unfold save at saved
  split at saved
  · obtain ⟨t', made, same⟩ := Option.map_eq_some_iff.mp saved
    cases same
    exact made
  · cases saved

/-- The members that come back in any case. -/
theorem persisted_reload {c : FnConfig} (h : c.Storable)
    (tapes : ∀ i, (c.tapeSlots i).hostSlot < 0) (printers : ∀ i, (c.printerSlots i).type = .invalid) :
    persisted (reload c fresh) =
      { persisted c with
        wifiStored := fun i =>
          (if i ∈ wifiStoredSaved c.wifiStored then
              { reloadWifi (c.wifiStored i) with enabled := true }
            else fresh.wifiStored i).inUse } := by
  obtain ⟨⟨name, zone, port, ssid, passphrase, btName, server, ccp, netsio, boip⟩, -, hosts,
    mounts, -, phonebook⟩ := forall_mem_strings.mp h.trimmed
  have noTape : 0 ∉ mountsSaved c.tapeSlots := by simpa [mountsSaved] using tapes 0
  apply FnConfig.ext
  · rfl
  · exact inUse_hosts hosts
  · simp only [persisted, reload, if_neg noTape]
    exact (inUse_reloadMounts_iff mounts).mpr h.hostSlot
  · refine (inUse_printers_iff c.printerSlots).mpr ⟨fun i _ => printers i, fun used => ?_⟩
    exact absurd (printers 0) used
  · simp only [persisted, reload, if_neg noTape]
    funext i
    rw [MountInfo.inUse, MountInfo.inUse, if_pos (tapes i)]
    rfl
  · rfl
  · exact WifiInfo.ext ssid.trim passphrase.trim rfl
  · exact BtInfo.ext rfl rfl btName.trim
  · have short : (trim c.network.sntpserver).take 39 = c.network.sntpserver := by
      rw [server.trim]
      exact List.take_of_length_le (Nat.le_of_lt_succ h.sntpserver)
    exact NetworkInfo.ext short rfl rfl
  · have timezone : (if c.general.timezone = [] then fresh.general.timezone
        else trim c.general.timezone) = c.general.timezone := by
      split
      · rename_i empty
        rw [empty]
        rfl
      · exact zone.trim
    exact GeneralInfo.ext name.trim (hsioIndexOf_decimal h.hsioIndex _) timezone rfl rfl
      (atoi_decimal h.bootMode) rfl rfl rfl rfl rfl rfl rfl
  · rfl
  · rfl
  · exact SerialInfo.ext port.trim rfl rfl
  · exact NetsioInfo.ext rfl netsio.trim (portOf_decimal h.netsioPort.1 h.netsioPort.2)
  · exact BoipInfo.ext rfl boip.trim (portOf_decimal h.boipPort.1 h.boipPort.2)
  · exact CpmInfo.ext rfl ccp.trim
  · rfl
  · exact inUse_phonebook phonebook

/-- `save` and `load` keep every persisted member in its slot exactly if no stored WiFi entry that
is enabled has one in front of it that is not. -/
theorem load_save_persisted_iff {c c' : FnConfig} {t : Str} (saved : c.save = some (some t, c'))
    (storable : c.Storable) (tapes : ∀ i, (c.tapeSlots i).hostSlot < 0)
    (printers : ∀ i, (c.printerSlots i).type = .invalid) (small : t.length ≤ 2047) :
    (load (some t) fresh).map persisted = some (persisted c) ↔
      ∀ i j, i < j → (c.wifiStored j).enabled = true → (c.wifiStored i).enabled = true := by
  have back := load_text (text_of_save saved) storable.plain storable.btBaud
    (show t.length ≤ CONFIG_FILEBUFFSIZE from Nat.le_succ_of_le small) fresh
  have kept : persisted { reload c fresh with dirty := false } = _ :=
    persisted_reload storable tapes printers
  rw [back, Option.map_some, Option.some.injEq, kept,
    ← inUse_wifiStored_iff (forall_mem_strings.mp storable.trimmed).2.1]
  constructor
  · intro same
    exact congrArg FnConfig.wifiStored same
  · intro same
    rw [same]
    rfl

attribute [local instance] neZero_slots

/-- A host, a disk on it, a phone number and one stored WiFi entry. -/
def sampleConfig : FnConfig :=
  storeWifiStoredEnabled 0 true (storeWifiStoredSsid 0 "attic".toList
    (storeMount 2 0 "/dos.atr".toList .write .disk (storeHost 0 "SD".toList .sd fresh)))

theorem sampleConfig_storable : sampleConfig.Storable where
  plain := by decide
  trimmed := by decide
  sntpserver := by decide
  hsioIndex := by decide
  bootMode := by decide
  btBaud := by decide
  netsioPort := by decide
  boipPort := by decide
  hostSlot := by decide

theorem save_sampleConfig :
    ∃ t c', sampleConfig.save = some (some t, c') ∧ t.length ≤ 2047 :=
  save_of_length (by decide +kernel)

theorem load_save_persisted_sampleConfig :
    ∃ t c', sampleConfig.save = some (some t, c') ∧ t.length ≤ 2047 ∧
      (load (some t) fresh).map persisted = some (persisted sampleConfig) := by
  obtain ⟨t, c', saved, small⟩ := save_sampleConfig
  refine ⟨t, c', saved, small, ?_⟩
  exact (load_save_persisted_iff saved sampleConfig_storable (by decide) (by decide) small).mpr
    (by decide)

/-- Only the second of the stored WiFi entries is enabled. -/
def gapConfig : FnConfig :=
  storeWifiStoredEnabled 1 true (storeWifiStoredSsid 1 "attic".toList fresh)

theorem gapConfig_storable : gapConfig.Storable where
  plain := by decide
  trimmed := by decide
  sntpserver := by decide
  hsioIndex := by decide
  bootMode := by decide
  btBaud := by decide
  netsioPort := by decide
  boipPort := by decide
  hostSlot := by decide

set_option maxRecDepth 4000 in
theorem gapConfig_loses_entry :
    gapConfig.Storable ∧ (∀ i, (gapConfig.tapeSlots i).hostSlot < 0) ∧
      (∀ i, (gapConfig.printerSlots i).type = .invalid) ∧
      ∃ t c', gapConfig.save = some (some t, c') ∧ t.length ≤ 2047 ∧
        (load (some t) fresh).map persisted ≠ some (persisted gapConfig) := by
  refine ⟨gapConfig_storable, by decide, by decide, _, _, rfl, by decide, ?_⟩
  rw [load_text rfl gapConfig_storable.plain rfl (by decide) fresh, Option.map_some]
  intro same
  have entry := congrArg (fun c => (c.wifiStored 1).enabled) (Option.some.inj same)
  cases entry

/-- Tape, printer and disk slots come back exactly if no tape is mounted, only the first printer is
in use, on a port from 0 to 3, and the disks are on host slots that exist. -/
theorem load_save_slots_iff {c c' : FnConfig} {t : Str} (saved : c.save = some (some t, c'))
    (plain : ∀ s ∈ c.strings, PlainText s) (baud : isInt32 c.bt.btBaud = true)
    (paths : ∀ i, Trimmed (c.mountSlots i).path) (small : t.length ≤ 2047) :
    (∃ d, load (some t) fresh = some d ∧
      (persisted d).tapeSlots = (persisted c).tapeSlots ∧
      (persisted d).printerSlots = (persisted c).printerSlots ∧
      (persisted d).mountSlots = (persisted c).mountSlots) ↔
      (∀ i, (c.tapeSlots i).hostSlot < 0) ∧
      ((∀ i, i ≠ 0 → (c.printerSlots i).type = .invalid) ∧
        ((c.printerSlots 0).type ≠ .invalid →
          0 ≤ (c.printerSlots 0).port ∧ (c.printerSlots 0).port ≤ 3)) ∧
      ∀ i, (c.mountSlots i).hostSlot < MAX_HOST_SLOTS := by
  have back := load_text (text_of_save saved) plain baud
    (show t.length ≤ CONFIG_FILEBUFFSIZE from Nat.le_succ_of_le small) fresh
  rw [← inUse_printers_iff c.printerSlots, ← inUse_reloadMounts_iff paths]
  constructor
  · rintro ⟨d, loaded, tapes, printers, mounts⟩
    rw [back] at loaded
    cases loaded
    have noTape : ∀ i, (c.tapeSlots i).hostSlot < 0 := by
      intro i
      by_contra used
      obtain rfl : i = 0 := Subsingleton.elim _ _
      have mounted : 0 ∈ mountsSaved c.tapeSlots := by simpa [mountsSaved] using used
      have slot := congrArg MountInfo.hostSlot (congrFun tapes 0)
      simp only [persisted, reload, if_pos mounted, Function.update_self, MountInfo.inUse,
        if_neg used] at slot
      exact used (slot ▸ by decide)
    have unused : 0 ∉ mountsSaved c.tapeSlots := by simpa [mountsSaved] using noTape 0
    simp only [persisted, reload, if_neg unused] at mounts
    exact ⟨noTape, printers, mounts⟩
  · rintro ⟨noTape, printers, mounts⟩
    have unused : 0 ∉ mountsSaved c.tapeSlots := by simpa [mountsSaved] using noTape 0
    refine ⟨_, back, ?_, printers, ?_⟩
    · simp only [persisted, reload, if_neg unused]
      funext i
      rw [MountInfo.inUse, MountInfo.inUse, if_pos (noTape i)]
      rfl
    · simp only [persisted, reload, if_neg unused]
      exact mounts

theorem load_save_slots_sampleConfig :
    ∃ t c', sampleConfig.save = some (some t, c') ∧ t.length ≤ 2047 ∧
      ∃ d, load (some t) fresh = some d ∧
        (persisted d).tapeSlots = (persisted sampleConfig).tapeSlots ∧
        (persisted d).printerSlots = (persisted sampleConfig).printerSlots ∧
        (persisted d).mountSlots = (persisted sampleConfig).mountSlots := by
  obtain ⟨t, c', saved, small⟩ := save_sampleConfig
  refine ⟨t, c', saved, small, ?_⟩
  exact (load_save_slots_iff saved sampleConfig_storable.plain rfl (by decide) small).mpr
    ⟨by decide, by decide, by decide⟩

/-- A tape and the third printer. -/
def tapeConfig : FnConfig :=
  storePrinterType 2 .epson (storeMount 0 0 "/zork.cas".toList .read .tape
    (storeMount 0 0 "/dos.atr".toList .write .disk (storeHost 0 "SD".toList .sd fresh)))

theorem tapeConfig_plain : ∀ s ∈ tapeConfig.strings, PlainText s := by decide

set_option maxRecDepth 4000 in
/-- After a restart the tape is in the first disk slot, and the printer is the first. -/
theorem tapeConfig_moves_slots :
    (∀ s ∈ tapeConfig.strings, PlainText s) ∧ isInt32 tapeConfig.bt.btBaud = true ∧
      (∀ i, Trimmed (tapeConfig.mountSlots i).path) ∧
      (∀ i, Trimmed (tapeConfig.tapeSlots i).path) ∧
      ∃ t c', tapeConfig.save = some (some t, c') ∧ t.length ≤ 2047 ∧
        ∃ d, load (some t) fresh = some d ∧
          d.tapeSlots 0 = {} ∧ (d.mountSlots 0).path = "/zork.cas".toList ∧
          (d.printerSlots 0).type = .epson ∧ (d.printerSlots 2).type = .invalid ∧
          (persisted d).tapeSlots ≠ (persisted tapeConfig).tapeSlots := by
  refine ⟨tapeConfig_plain, rfl, by decide, by decide, _, _, rfl, by decide, _,
    load_text rfl tapeConfig_plain rfl (by decide) fresh, rfl, rfl, rfl, rfl, fun same => ?_⟩
  have slot := congrArg MountInfo.hostSlot (congrFun same 0)
  cases slot

end FujiNet.FnConfig
