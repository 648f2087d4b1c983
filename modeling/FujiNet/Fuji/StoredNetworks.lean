import FujiNet.Config.Credentials
import FujiNet.Control.Machine
import FujiNet.Data.Recent
import FujiNet.Sio.Bus

/-!
# The stored networks

SET SSID puts the network that was the current one at the top of the stored ones. They are those that
were current before, the last one first, and every one of them has the passphrase that was given for it
last, unless the text that is given is the cipher text in which the current passphrase is kept.
-/

namespace FujiNet.Fuji

open FnConfig Text SIO

def MAX_SSID_LEN : Nat := 32
def MAX_WIFI_PASS_LEN : Nat := 64

/-- The data of SET SSID, and the characters that follow it in memory. -/
structure SsidFrame where
  ssid : Str
  password : Str
  behind : Str
  ssid_length : ssid.length = MAX_SSID_LEN + 1
  password_length : password.length = MAX_WIFI_PASS_LEN

namespace SsidFrame

/-- The octets from the start of `ssid` on. -/
def ssidOctets (f : SsidFrame) : Str := f.ssid ++ f.password ++ f.behind

/-- The octets from the start of `password` on. -/
def passwordOctets (f : SsidFrame) : Str := f.password ++ f.behind

/-- The network that the data name, with its passphrase. -/
def network (f : SsidFrame) : Str × Str :=
  (cString f.ssidOctets, octets f.passwordOctets MAX_WIFI_PASS_LEN)

end SsidFrame

section Code

variable (key : Str)

def haveWifiInfo (c : FnConfig) : Bool := !c.wifi.ssid.isEmpty

/-- Slot `i` is copied to slot `j`. -/
def copyStored (i j : Fin MAX_WIFI_STORED) (c : FnConfig) : FnConfig :=
  let c := storeWifiStoredSsid j (c.wifiStored i).ssid c
  let c := storeWifiStoredPassphrase j (c.wifiStored i).passphrase c
  storeWifiStoredEnabled j true c

/-- The loops over the stored networks, from slot `k` up to slot 1: each gets the one before it. That
of the first case leaves out what is not enabled. -/
def moveDown (skipDisabled : Bool) : (k : Nat) → k < MAX_WIFI_STORED → FnConfig → FnConfig
  | 0, _, c => c
  | k + 1, lt, c =>
    let c :=
      if skipDisabled && !(c.wifiStored ⟨k, Nat.lt_of_succ_lt lt⟩).enabled then c
      else copyStored ⟨k, Nat.lt_of_succ_lt lt⟩ ⟨k + 1, lt⟩ c
    moveDown skipDisabled k (Nat.lt_of_succ_lt lt) c

attribute [local instance] FnConfig.neZero_slots

/-- The current network is put in slot 0. -/
def pushCurrent (c : FnConfig) : FnConfig :=
  let c := storeWifiStoredSsid 0 c.getWifiSsid c
  let c := storeWifiStoredPassphrase 0 (c.getWifiPassphrase key) c
  storeWifiStoredEnabled 0 true c

/-- The first slot with this name. -/
def ssidInStored (ssid : Str) (c : FnConfig) : Option (Fin MAX_WIFI_STORED) :=
  (List.finRange MAX_WIFI_STORED).find? fun i => (c.wifiStored i).ssid = ssid

/-- The two cases in which the stored networks change. -/
def replaceCurrent (ssid : Str) (c : FnConfig) : FnConfig :=
  if haveWifiInfo c && decide (c.getWifiSsid ≠ ssid) then
    match ssidInStored ssid c with
    | none => pushCurrent key (moveDown true (MAX_WIFI_STORED - 1) (by decide) c)
    | some k => pushCurrent key (moveDown false k k.isLt c)
  else c

/-- `sio_net_set_ssid`: the last reply, and the configuration afterwards. -/
def sioNetSetSsid (f : SsidFrame) (checksumGood : Bool) (testResult : Int) (save : Bool) (c : FnConfig) :
    Option (Reply × FnConfig) :=
  if checksumGood = false then some (.error, c)
  else if testResult ≠ 0 then some (.error, c)
  else if save = false then some (.complete, c)
  else
    let c := replaceCurrent key (cString f.ssidOctets) c
    let c := storeWifiSsid f.ssidOctets (MAX_SSID_LEN + 1) c
    let c := storeWifiPassphrase key f.passwordOctets MAX_WIFI_PASS_LEN c
    c.save.map fun saved => (.complete, saved.2)

end Code

/-- SET SSID with a network that has a name, and with its NUL. -/
structure SetSsid extends SsidFrame where
  terminated : '\x00' ∈ ssid
  named : cString ssid ≠ []

/-- The configuration, and the networks that were given so far, the last one first. -/
structure Networks where
  config : FnConfig
  given : List (Str × Str) := []

/-- An empty configuration, with any general settings. -/
def Networks.start (general : GeneralInfo) : Networks where
  config := { general }

/-- A command that connects and saves. -/
def SetSsid.after (key : Str) (command : SetSsid) (n : Networks) : Except Unit Networks :=
  match sioNetSetSsid key command.toSsidFrame true 0 true n.config with
  | none => .error ()
  | some (_, config) => .ok { config, given := command.network :: n.given }

/-- The stored networks that are enabled are the others that were given, the one that was replaced last
first, and those in front if there are too many. -/
structure Networks.MostRecentFirst (n : Networks) : Prop where
  distinct : ∀ i j, (n.config.wifiStored i).enabled → (n.config.wifiStored j).enabled →
    (n.config.wifiStored i).ssid = (n.config.wifiStored j).ssid → i = j
  notCurrent : ∀ i, (n.config.wifiStored i).enabled → (n.config.wifiStored i).ssid ≠ n.config.getWifiSsid
  front : ∀ i j, i ≤ j → (n.config.wifiStored j).enabled → (n.config.wifiStored i).enabled
  listed : ∀ i, ((n.config.wifiStored i).enabled ↔ i < (recent n.given).tail.length) ∧
    ∀ e ∈ (recent n.given).tail[i.val]?, (n.config.wifiStored i).ssid = e.1
  passphrase : ∀ i, (n.config.wifiStored i).enabled →
    n.given.lookup (n.config.wifiStored i).ssid = some (n.config.wifiStored i).passphrase

/-- The command ends, and the stored networks are as they are to be. -/
def SetSsid.Good (key : Str) (command : SetSsid) (n : Networks) : Prop :=
  ∃ n', command.after key n = .ok n' ∧ n'.MostRecentFirst

/-- With encryption on, the passphrase is not the cipher text that is kept for the current network, or
it is the cipher text of itself. -/
def SetSsid.Takes (key : Str) (command : SetSsid) (n : Networks) : Prop :=
  n.config.general.encryptPassphrase = true →
    n.config.wifi.passphrase = cString command.passwordOctets →
      Crypto.crypt key (cString command.passwordOctets) = cString command.passwordOctets

section Slots

variable {key : Str} {c : FnConfig}

/-- The slots when each up to `k` got the one before it. -/
def movedDown (skipDisabled : Bool) (k : Nat) (stored : Fin MAX_WIFI_STORED → WifiInfo)
    (i : Fin MAX_WIFI_STORED) : WifiInfo :=
  let before := stored ⟨i.val - 1, Nat.lt_of_le_of_lt (Nat.sub_le ..) i.isLt⟩
  if 0 < i.val ∧ i.val ≤ k ∧ (skipDisabled = true → before.enabled = true) then
    { before with enabled := true }
  else stored i

theorem copyStored_eq {i j : Fin MAX_WIFI_STORED} (ne : i ≠ j) (c : FnConfig) :
    copyStored i j c =
      { c with
        wifiStored := Function.update c.wifiStored j { c.wifiStored i with enabled := true }
        dirty := true } := by
  simp [copyStored, storeWifiStoredSsid, storeWifiStoredPassphrase, storeWifiStoredEnabled, storeAlways,
    Function.update_of_ne ne]

/-- The slot before the last one is left out. -/
theorem movedDown_succ_of_disabled {skipDisabled : Bool} {k : Nat} (lt : k < MAX_WIFI_STORED)
    {stored : Fin MAX_WIFI_STORED → WifiInfo} (skip : skipDisabled = true)
    (disabled : (stored ⟨k, lt⟩).enabled = false) :
    movedDown skipDisabled (k + 1) stored = movedDown skipDisabled k stored := by
  funext i
  rw [movedDown, movedDown]
  refine if_congr (and_congr_right fun pos => ?_) rfl rfl
  constructor
  · rintro ⟨le, enabled⟩
    refine ⟨Nat.le_of_lt_succ (Nat.lt_of_le_of_ne le fun last => ?_), enabled⟩
    have before : (⟨i.val - 1, Nat.lt_of_le_of_lt (Nat.sub_le ..) i.isLt⟩ : Fin MAX_WIFI_STORED) =
        ⟨k, lt⟩ := Fin.ext (by simp only; omega)
    rw [before, disabled] at enabled
    exact nomatch enabled skip
  · rintro ⟨le, enabled⟩
    exact ⟨Nat.le_succ_of_le le, enabled⟩

/-- The slot before the last one is copied, and then those before it. -/
theorem movedDown_update {skipDisabled : Bool} {k : Nat} (lt : k + 1 < MAX_WIFI_STORED)
    {stored : Fin MAX_WIFI_STORED → WifiInfo}
    (copied : skipDisabled = true → (stored ⟨k, Nat.lt_of_succ_lt lt⟩).enabled = true) :
    movedDown skipDisabled k (Function.update stored ⟨k + 1, lt⟩
        { stored ⟨k, Nat.lt_of_succ_lt lt⟩ with enabled := true }) =
      movedDown skipDisabled (k + 1) stored := by
  funext i
  have lt' := Nat.lt_of_le_of_lt (Nat.sub_le i.val 1) i.isLt
  rw [movedDown, movedDown]
  by_cases last : i.val = k + 1
  · have here : i = ⟨k + 1, lt⟩ := Fin.ext last
    have before : (⟨i.val - 1, lt'⟩ : Fin MAX_WIFI_STORED) = ⟨k, Nat.lt_of_succ_lt lt⟩ :=
      Fin.ext (by simp only; omega)
    rw [if_neg (by omega), if_pos ⟨by omega, by omega, before ▸ copied⟩, before, here,
      Function.update_self]
  · have here : i ≠ ⟨k + 1, lt⟩ := fun same => last (congrArg Fin.val same)
    rw [Function.update_of_ne here]
    by_cases inside : i.val ≤ k
    · have before : (⟨i.val - 1, lt'⟩ : Fin MAX_WIFI_STORED) ≠ ⟨k + 1, lt⟩ := by
        intro same
        have := congrArg Fin.val same
        simp only at this
        omega
      rw [Function.update_of_ne before]
      refine if_congr (and_congr_right fun _ => and_congr_left fun _ => ?_) rfl rfl
      omega
    · rw [if_neg (by omega), if_neg (by omega)]

/-- The loop touches the slots only. -/
theorem moveDown_eq (skipDisabled : Bool) {k : Nat} (lt : k < MAX_WIFI_STORED) (c : FnConfig) :
    ∃ dirty, moveDown skipDisabled k lt c =
      { c with wifiStored := movedDown skipDisabled k c.wifiStored, dirty } := by
  induction k generalizing c with
  | zero =>
      have same : movedDown skipDisabled 0 c.wifiStored = c.wifiStored := by
        funext i
        exact if_neg fun h => Nat.not_lt.mpr h.2.1 h.1
      exact ⟨c.dirty, by rw [moveDown, same]⟩
  | succ k ih =>
      have lt' := Nat.lt_of_succ_lt lt
      rw [moveDown]
      by_cases skip : (skipDisabled && !(c.wifiStored ⟨k, lt'⟩).enabled) = true
      · obtain ⟨on, off⟩ := Bool.and_eq_true_iff.mp skip
        obtain ⟨dirty, rest⟩ := ih lt' c
        rw [if_pos skip, rest, movedDown_succ_of_disabled lt' on (Bool.not_eq_true' _ ▸ off)]
        exact ⟨dirty, rfl⟩
      · obtain ⟨dirty, rest⟩ := ih lt' (copyStored ⟨k, lt'⟩ ⟨k + 1, lt⟩ c)
        have ne : (⟨k, lt'⟩ : Fin MAX_WIFI_STORED) ≠ ⟨k + 1, lt⟩ := fun same =>
          Nat.ne_of_lt (Nat.lt_succ_self k) (congrArg Fin.val same)
        rw [if_neg skip, rest, copyStored_eq ne]
        refine ⟨dirty, ?_⟩
        dsimp only
        rw [movedDown_update lt fun on => ?_]
        cases enabled : (c.wifiStored ⟨k, lt'⟩).enabled with
        | true => rfl
        | false => exact absurd (by rw [on, enabled]; rfl) skip

theorem pushCurrent_eq (c : FnConfig) : pushCurrent key c =
    { c with
      wifiStored := Function.update c.wifiStored 0 ⟨c.getWifiSsid, c.getWifiPassphrase key, true⟩
      dirty := true } := by
  simp [pushCurrent, storeWifiStoredSsid, storeWifiStoredPassphrase, storeWifiStoredEnabled, storeAlways,
    getWifiSsid, getWifiPassphrase]

/-- A slot with a network, or one that was never used. -/
def entry : Option (Str × Str) → WifiInfo
  | none => { enabled := false }
  | some e => ⟨e.1, e.2, true⟩

@[simp] theorem enabled_entry (e : Option (Str × Str)) : (entry e).enabled = e.isSome := by
  cases e <;> rfl

section Replacing

variable {others : List (Str × Str)} {ssid : Str}

/-- The name is found where the network is in the list. -/
theorem place_of_ssidInStored (slots : ∀ i, c.wifiStored i = entry others[i.val]?)
    (nodup : (others.map Prod.fst).Nodup) (named : ssid ≠ []) {k : Fin MAX_WIFI_STORED}
    (found : ssidInStored ssid c = some k) : place ssid others = k ∧ k.val < others.length := by
  rw [ssidInStored] at found
  have here : (c.wifiStored k).ssid = ssid := by simpa using List.find?_some found
  rw [slots k] at here
  cases used : others[k.val]? with
  | none =>
      rw [used] at here
      exact absurd here.symm named
  | some e =>
      rw [used] at here
      exact ⟨here ▸ place_eq nodup used, (List.getElem?_eq_some_iff.mp used).1⟩

/-- A name that is not found is not at the front of the list. -/
theorem eraseIdx_of_not_found (slots : ∀ i, c.wifiStored i = entry others[i.val]?)
    (found : ssidInStored ssid c = none) {j : Nat} (lt : j < MAX_WIFI_STORED) :
    (others.eraseIdx (place ssid others))[j]? = others[j]? := by
  by_cases inside : place ssid others < others.length
  · obtain ⟨e, here, name⟩ := getElem?_place inside
    have behind : MAX_WIFI_STORED ≤ place ssid others := by
      by_contra front
      have slot := slots ⟨place ssid others, Nat.not_le.mp front⟩
      rw [here] at slot
      have missed := List.find?_eq_none.mp found ⟨place ssid others, Nat.not_le.mp front⟩
        (List.mem_finRange _)
      rw [slot] at missed
      exact missed (decide_eq_true name)
    exact List.getElem?_eraseIdx_of_lt (Nat.lt_of_lt_of_le lt behind)
  · rw [List.eraseIdx_of_length_le (Nat.not_lt.mp inside)]

variable (key) in
/-- The network that is replaced goes in front of the others, and the new one from among them. -/
theorem replaceCurrent_eq (slots : ∀ i, c.wifiStored i = entry others[i.val]?)
    (nodup : (others.map Prod.fst).Nodup) (named : ssid ≠ []) (some' : c.getWifiSsid ≠ [])
    (other : c.getWifiSsid ≠ ssid) :
    ∃ stored dirty, replaceCurrent key ssid c = { c with wifiStored := stored, dirty } ∧
      ∀ i : Fin MAX_WIFI_STORED, stored i =
        entry ((c.getWifiSsid, c.getWifiPassphrase key) :: others.filter (·.1 ≠ ssid))[i.val]? := by
  have have' : (haveWifiInfo c && decide (c.getWifiSsid ≠ ssid)) = true := by
    rw [haveWifiInfo, decide_eq_true other, Bool.and_true, Bool.not_eq_true', List.isEmpty_eq_false_iff]
    exact some'
  rw [replaceCurrent, if_pos have', filter_eq_eraseIdx ssid nodup]
  have slot : ∀ {j : Nat} (lt : j + 1 - 1 < MAX_WIFI_STORED), c.wifiStored ⟨j + 1 - 1, lt⟩ =
      entry others[j]? := fun lt => slots ⟨_, lt⟩
  have first : ∀ {j : Nat} (lt : j + 1 < MAX_WIFI_STORED),
      (⟨j + 1, lt⟩ : Fin MAX_WIFI_STORED) ≠ 0 := fun lt same => nomatch congrArg Fin.val same
  cases found : ssidInStored ssid c with
  | none =>
      have all : MAX_WIFI_STORED - 1 < MAX_WIFI_STORED := by decide
      obtain ⟨dirty, moved⟩ := moveDown_eq true all c
      dsimp only
      rw [moved, pushCurrent_eq]
      refine ⟨_, _, rfl, ?_⟩
      rintro ⟨i, lt⟩
      cases i with
      | zero => rfl
      | succ j =>
          rw [Function.update_of_ne (first lt), List.getElem?_cons_succ,
            eraseIdx_of_not_found slots found (Nat.lt_of_succ_lt lt)]
          dsimp only [movedDown]
          rw [slot, enabled_entry]
          cases used : others[j]? with
          | some e => exact if_pos ⟨Nat.succ_pos j, Nat.le_of_lt_succ lt, fun _ => rfl⟩
          | none =>
              have behind := List.getElem?_eq_none_iff.mp used
              rw [if_neg fun h => (nomatch h.2.2 rfl), slots,
                List.getElem?_eq_none (Nat.le_succ_of_le behind)]
  | some k =>
      obtain ⟨dirty, moved⟩ := moveDown_eq false k.isLt c
      obtain ⟨here, inside⟩ := place_of_ssidInStored slots nodup named found
      dsimp only
      rw [moved, pushCurrent_eq, here]
      refine ⟨_, _, rfl, ?_⟩
      rintro ⟨i, lt⟩
      cases i with
      | zero => rfl
      | succ j =>
          rw [Function.update_of_ne (first lt), List.getElem?_cons_succ, List.getElem?_eraseIdx]
          dsimp only [movedDown]
          by_cases up : j < k.val
          · rw [if_pos ⟨Nat.succ_pos j, up, fun h => nomatch h⟩, if_pos up, slot,
              List.getElem?_eq_getElem (Nat.lt_trans up inside)]
            rfl
          · rw [if_neg fun h => up h.2.1, if_neg up]
            exact slots _

end Replacing

end Slots

section Commands

variable {key : Str} {n : Networks}

/-- What holds of a configuration after the networks `given`, as far as SET SSID reads it. -/
structure Networks.Kept (key : Str) (n : Networks) : Prop where
  slots : ∀ i, n.config.wifiStored i = entry (recent n.given).tail[i.val]?
  ssid : n.config.getWifiSsid = (n.given.head?.map Prod.fst).getD []
  passphrase : n.config.getWifiPassphrase key = (n.given.head?.map Prod.snd).getD []
  named : ∀ e ∈ n.given, e.1 ≠ []
  ssidLength : n.config.wifi.ssid.length ≤ MAX_SSID_LEN
  passphraseLength : n.config.wifi.passphrase.length ≤ MAX_WIFI_PASS_LEN
  defaults : n.config.serial = {} ∧ n.config.hostSlots = (fun _ => {}) ∧
    n.config.mountSlots = (fun _ => {}) ∧ n.config.tapeSlots = fun _ => {}

theorem cipher_nil (key : Str) (encrypt : Bool) : cipher key encrypt [] = [] := by
  cases encrypt <;> rfl

theorem kept_start (key : Str) (general : GeneralInfo) : (Networks.start general).Kept key where
  slots := fun _ => rfl
  ssid := rfl
  passphrase := cipher_nil key _
  named := fun _ mem => nomatch mem
  ssidLength := Nat.zero_le _
  passphraseLength := Nat.zero_le _
  defaults := ⟨rfl, rfl, rfl, rfl⟩

/-- A configuration in which the enumerations have their defaults can be saved. -/
theorem save_eq {c : FnConfig} (defaults : c.serial = {} ∧ c.hostSlots = (fun _ => {}) ∧
    c.mountSlots = (fun _ => {}) ∧ c.tapeSlots = fun _ => {}) :
    ∃ written, c.save = some (written, { c with dirty := false }) := by
  obtain ⟨serial, hosts, mounts, tapes⟩ := defaults
  rw [save]
  by_cases dirty : c.dirty = true
  · rw [if_pos dirty, FnConfig.text, blocks, serial, hosts, mounts, tapes]
    exact ⟨_, rfl⟩
  · have clean : { c with dirty := false } = c := by rw [← Bool.eq_false_of_not_eq_true dirty]
    rw [if_neg dirty, clean]
    exact ⟨none, rfl⟩

theorem storeWifiSsid_eq (s : Str) {c : FnConfig} (short : c.wifi.ssid.length ≤ MAX_SSID_LEN)
    (fits : (cString s).length ≤ MAX_SSID_LEN) :
    ∃ dirty, storeWifiSsid s (MAX_SSID_LEN + 1) c = { c with wifi.ssid := cString s, dirty } := by
  have whole : octets s (MAX_SSID_LEN + 1) = cString s :=
    List.take_of_length_le (Nat.le_succ_of_le fits)
  by_cases equal : c.wifi.ssid.take (MAX_SSID_LEN + 1) = cString s
  · rw [storeWifiSsid_of_same equal]
    rw [List.take_of_length_le (Nat.le_succ_of_le short)] at equal
    exact ⟨c.dirty, by rw [← equal]⟩
  · rw [storeWifiSsid_of_ne equal, whole]
    exact ⟨true, rfl⟩

theorem length_cString_le (s : Str) : (cString s).length ≤ s.length :=
  (List.takeWhile_prefix _).length_le

theorem length_cipher_le (key : Str) (encrypt : Bool) (p : Str) :
    (cipher key encrypt p).length ≤ p.length := by
  cases encrypt with
  | true =>
      rw [cipher, if_pos rfl, Crypto.crypt, Crypto.length_myencrypt]
      exact length_cString_le p
  | false => exact Nat.le_refl _

/-- After the call, the passphrase that is kept is the one that was given, unless this is the cipher
text that was there. -/
theorem storeWifiPassphrase_eq (p : Str) {c : FnConfig}
    (short : c.wifi.passphrase.length ≤ MAX_WIFI_PASS_LEN)
    (takes : c.general.encryptPassphrase = true → c.wifi.passphrase = cString p →
      Crypto.crypt key (cString p) = cString p) :
    ∃ passphrase dirty, storeWifiPassphrase key p MAX_WIFI_PASS_LEN c =
        { c with wifi.passphrase := passphrase, dirty } ∧
      passphrase.length ≤ MAX_WIFI_PASS_LEN ∧
      cipher key c.general.encryptPassphrase passphrase = octets p MAX_WIFI_PASS_LEN := by
  by_cases equal : c.wifi.passphrase.take MAX_WIFI_PASS_LEN = cString p
  · rw [storeWifiPassphrase_of_same key equal, octets_eq_cString equal]
    rw [List.take_of_length_le short] at equal
    refine ⟨c.wifi.passphrase, c.dirty, rfl, short, ?_⟩
    rw [equal]
    cases on : c.general.encryptPassphrase with
    | true => exact takes on equal
    | false => rfl
  · rw [storeWifiPassphrase_of_ne key equal]
    refine ⟨_, true, rfl, ?_, cipher_cipher key _ (nul_notMem_octets _ _)⟩
    exact (length_cipher_le ..).trans (List.length_take_le ..)

theorem cString_append {s t : Str} (terminated : '\x00' ∈ s) : cString (s ++ t) = cString s := by
  induction s with
  | nil => exact absurd terminated List.not_mem_nil
  | cons c s ih =>
      rw [cString, cString, List.cons_append, List.takeWhile_cons, List.takeWhile_cons]
      by_cases nul : c = '\x00'
      · rw [decide_eq_false (not_not.mpr nul)]
        rfl
      · rw [decide_eq_true nul]
        have rest := (List.mem_cons.mp terminated).resolve_left (Ne.symm nul)
        exact congrArg (c :: ·) (ih rest)

theorem SetSsid.ssid_eq (command : SetSsid) : cString command.ssidOctets = cString command.ssid := by
  rw [SsidFrame.ssidOctets, List.append_assoc]
  exact cString_append command.terminated

theorem SetSsid.length_ssid_le (command : SetSsid) : (cString command.ssid).length ≤ MAX_SSID_LEN := by
  have le := length_cString_le command.ssid
  rw [command.ssid_length] at le
  refine Nat.le_of_lt_succ (Nat.lt_of_le_of_ne le fun full => ?_)
  have same : cString command.ssid = command.ssid :=
    (List.takeWhile_prefix _).eq_of_length (full.trans command.ssid_length.symm)
  exact cString_eq_self_iff.mp same command.terminated

/-- The networks are as they are to be. -/
theorem Networks.Kept.mostRecentFirst (kept : n.Kept key) : n.MostRecentFirst := by
  have nodup := nodup_keys_recent n.given
  have nodup' : ((recent n.given).tail.map Prod.fst).Nodup := by
    rw [List.map_tail]
    exact nodup.tail
  have enabled : ∀ i, (n.config.wifiStored i).enabled = true ↔ i < (recent n.given).tail.length := by
    intro i
    rw [kept.slots i, enabled_entry, Option.isSome_iff_ne_none, Ne, List.getElem?_eq_none_iff,
      Nat.not_le]
  have used : ∀ i, (n.config.wifiStored i).enabled = true →
      ∃ e, (recent n.given).tail[i.val]? = some e ∧ n.config.wifiStored i = ⟨e.1, e.2, true⟩ := by
    intro i on
    have here := List.getElem?_eq_getElem ((enabled i).mp on)
    exact ⟨_, here, (kept.slots i).trans (congrArg entry here)⟩
  refine ⟨?_, ?_, ?_, ?_, ?_⟩
  · intro i j on on' same
    obtain ⟨e, here, slot⟩ := used i on
    obtain ⟨e', here', slot'⟩ := used j on'
    rw [slot, slot'] at same
    have place' := place_eq nodup' here'
    rw [← show e.1 = e'.1 from same] at place'
    exact Fin.ext ((place_eq nodup' here).symm.trans place')
  · intro i on current
    obtain ⟨e, here, slot⟩ := used i on
    have mem := List.mem_of_getElem? here
    rw [slot, kept.ssid] at current
    cases given : n.given with
    | nil =>
        rw [given] at mem
        exact absurd mem List.not_mem_nil
    | cons e' history =>
        rw [given, recent, List.map_cons, List.nodup_cons] at nodup
        rw [given, recent] at mem
        rw [given] at current
        exact nodup.1 (List.mem_map.mpr ⟨e, mem, current⟩)
  · intro i j le on
    exact (enabled i).mpr (Nat.lt_of_le_of_lt le ((enabled j).mp on))
  · intro i
    refine ⟨enabled i, fun e here => ?_⟩
    rw [kept.slots i, here]
    rfl
  · intro i on
    obtain ⟨e, here, slot⟩ := used i on
    rw [slot]
    exact lookup_of_mem_recent (List.mem_of_mem_tail (List.mem_of_getElem? here))

/-- The slots after the new network has taken the place of the current one. -/
theorem replaceCurrent_of_kept (kept : n.Kept key) {ssid : Str} (named : ssid ≠ []) :
    ∃ stored dirty, replaceCurrent key ssid n.config =
        { n.config with wifiStored := stored, dirty } ∧
      ∀ i : Fin MAX_WIFI_STORED, stored i =
        entry ((recent n.given).filter (·.1 ≠ ssid))[i.val]? := by
  have slots := kept.slots
  have current := kept.ssid
  have passphrase := kept.passphrase
  cases given : n.given with
  | nil =>
      rw [given] at slots current
      refine ⟨n.config.wifiStored, n.config.dirty, if_neg ?_, slots⟩
      rw [haveWifiInfo, show n.config.wifi.ssid = [] from current]
      exact Bool.false_ne_true
  | cons e history =>
      have nodup := nodup_keys_recent n.given
      rw [given] at slots current passphrase
      rw [given, recent, List.map_cons, List.nodup_cons] at nodup
      rw [recent] at slots ⊢
      have current' : n.config.getWifiSsid = e.1 := current
      have passphrase' : n.config.getWifiPassphrase key = e.2 := passphrase
      by_cases same : e.1 = ssid
      · refine ⟨n.config.wifiStored, n.config.dirty, if_neg ?_, ?_⟩
        · rw [current', same, decide_eq_false (not_not.mpr rfl), Bool.and_false]
          exact Bool.false_ne_true
        · rw [List.filter_cons_of_neg (by simpa using same), List.filter_eq_self.mpr]
          · exact slots
          · rintro e' mem
            refine decide_eq_true fun same' => nodup.1 ?_
            exact List.mem_map.mpr ⟨e', mem, same'.trans same.symm⟩
      · rw [List.filter_cons_of_pos (by simpa using same)]
        have named' : e.1 ≠ [] := kept.named e (given ▸ List.mem_cons_self)
        obtain ⟨stored, dirty, done, slots'⟩ :=
          replaceCurrent_eq key slots nodup.2 named (current' ▸ named') (current' ▸ same)
        rw [current', passphrase'] at slots'
        exact ⟨stored, dirty, done, slots'⟩

/-- A command that takes its passphrase keeps the list. -/
theorem SetSsid.kept_after (command : SetSsid) (kept : n.Kept key) (takes : command.Takes key n) :
    ∃ n', command.after key n = .ok n' ∧ n'.Kept key ∧
      n'.config.general = n.config.general := by
  have named : cString command.ssidOctets ≠ [] := command.ssid_eq ▸ command.named
  have fits : (cString command.ssidOctets).length ≤ MAX_SSID_LEN :=
    command.ssid_eq ▸ command.length_ssid_le
  obtain ⟨stored, dirty, replaced, slots⟩ := replaceCurrent_of_kept kept named
  obtain ⟨dirty', renamed⟩ := storeWifiSsid_eq command.ssidOctets
    (c := { n.config with wifiStored := stored, dirty }) kept.ssidLength fits
  obtain ⟨passphrase, dirty'', taken, short, given⟩ := storeWifiPassphrase_eq command.passwordOctets
    (c := { n.config with wifiStored := stored, dirty := dirty', wifi.ssid := cString command.ssidOctets })
    kept.passphraseLength takes
  obtain ⟨written, saved⟩ := save_eq (c := { n.config with
    wifiStored := stored, dirty := dirty'', wifi.ssid := cString command.ssidOctets,
    wifi.passphrase := passphrase }) kept.defaults
  have set : sioNetSetSsid key command.toSsidFrame true 0 true n.config = some (.complete,
      { n.config with
        wifiStored := stored, dirty := false, wifi.ssid := cString command.ssidOctets,
        wifi.passphrase := passphrase }) := by
    rw [sioNetSetSsid, if_neg (by decide), if_neg (by decide), if_neg (by decide)]
    dsimp only
    rw [replaced, renamed, taken, saved]
    rfl
  refine ⟨_, by rw [after, set], ?_⟩
  refine ⟨⟨slots, rfl, given, ?_, fits, short, kept.defaults⟩, rfl⟩
  intro e mem
  rcases List.mem_cons.mp mem with rfl | old
  · exact named
  · exact kept.named e old

end Commands

/-- In every run of commands that take their passphrases, from an empty configuration, the stored
networks are after each command as they are to be. -/
theorem stored_networks_recent (key : Str) (general : GeneralInfo) (commands : List SetSsid)
    (takes : Machine.Along (SetSsid.after key) (SetSsid.Takes key) commands (.start general)) :
    Machine.Along (SetSsid.after key) (SetSsid.Good key) commands (.start general) := by
  refine takes.imp_of (I := Networks.Kept key) ?_ ?_ (kept_start key general)
  · intro command n n' kept takes done
    obtain ⟨n'', done', kept', -⟩ := command.kept_after kept takes
    exact Except.ok.inj (done'.symm.trans done) ▸ kept'
  · intro command n kept takes
    obtain ⟨n', done, kept', -⟩ := command.kept_after kept takes
    exact ⟨n', done, kept'.mostRecentFirst⟩

/-- A command with the fields filled up with NULs. -/
def SetSsid.ofNames (ssid password : Str) (fits : ssid.length ≤ MAX_SSID_LEN)
    (fits' : password.length ≤ MAX_WIFI_PASS_LEN) (named : cString ssid ≠ []) :
    SetSsid where
  ssid := ssid ++ List.replicate (MAX_SSID_LEN + 1 - ssid.length) '\x00'
  password := password ++ List.replicate (MAX_WIFI_PASS_LEN - password.length) '\x00'
  behind := ['\x00']
  ssid_length := by
    rw [List.length_append, List.length_replicate]
    omega
  password_length := by
    rw [List.length_append, List.length_replicate]
    omega
  terminated := by
    refine List.mem_append_right _ (List.mem_replicate.mpr ⟨?_, rfl⟩)
    omega
  named := by
    cases ssid with
    | nil => exact absurd rfl named
    | cons c rest =>
        by_cases nul : c = '\x00'
        · exact absurd (by rw [cString, List.takeWhile_cons, decide_eq_false (not_not.mpr nul)]; rfl) named
        · rw [cString, List.cons_append, List.takeWhile_cons, decide_eq_true nul]
          exact List.cons_ne_nil _ _

def homeNetwork (password : Str) (fits : password.length ≤ MAX_WIFI_PASS_LEN) : SetSsid :=
  .ofNames "home".toList password (by decide) fits (by decide)

def cafeNetwork (password : Str) (fits : password.length ≤ MAX_WIFI_PASS_LEN) : SetSsid :=
  .ofNames "cafe".toList password (by decide) fits (by decide)

theorem stored_networks_recent_of_two :
    Machine.Along (SetSsid.after []) (SetSsid.Good [])
      [homeNetwork "secret".toList (by decide), cafeNetwork "espresso".toList (by decide)] (.start {}) := by
  refine stored_networks_recent [] {} _ ⟨nofun, fun n done => ⟨fun on => ?_, fun _ _ => trivial⟩⟩
  obtain ⟨n', done', -, general⟩ :=
    (homeNetwork "secret".toList (by decide)).kept_after (kept_start [] {}) fun on => nomatch on
  obtain rfl : n' = n := Except.ok.inj (done'.symm.trans done)
  rw [general] at on
  exact nomatch on

set_option maxRecDepth 4000 in
/-- The cipher text of the current passphrase is the passphrase of the next network: this one is stored
with the passphrase of the other. -/
theorem cipher_text_not_taken :
    ¬ Machine.Along (SetSsid.after sampleKey) (SetSsid.Good sampleKey)
      [homeNetwork "secret".toList (by decide),
        cafeNetwork (Crypto.crypt sampleKey "secret".toList) (by decide),
        homeNetwork "secret".toList (by decide)]
      (.start { encryptPassphrase := true }) := by
  intro along
  obtain ⟨n, done, -⟩ := along.1
  have along' := along.2 n done
  obtain ⟨n', done', -⟩ := along'.1
  obtain ⟨n'', done'', recent⟩ := (along'.2 n' done').1
  have wrong : (Machine.runOrCrash (SetSsid.after sampleKey)
      [homeNetwork "secret".toList (by decide),
        cafeNetwork (Crypto.crypt sampleKey "secret".toList) (by decide),
        homeNetwork "secret".toList (by decide)]
      (.start { encryptPassphrase := true })).toOption.any (fun n =>
        (n.config.wifiStored 0).enabled && decide (n.given.lookup (n.config.wifiStored 0).ssid ≠
          some (n.config.wifiStored 0).passphrase)) = true := by
    decide +kernel
  simp only [Machine.runOrCrash, done, done', done'', Except.toOption, Option.any_some, Bool.and_eq_true,
    decide_eq_true_eq] at wrong
  exact wrong.2 (recent.passphrase 0 wrong.1)

end FujiNet.Fuji
