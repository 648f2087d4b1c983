import FujiNet.Config.Persisted

/-!
# WiFi credentials

The getters should return what the setters were given last. A setter compares its
argument with the first characters of what is stored, and returns if they are equal: a
longer name or passphrase then stays. With encryption on, the comparison is with cipher
text.

A cipher text can start or end with a space, which is gone after a restart.
-/

namespace FujiNet.FnConfig

open Text Lines Crypto

/-! ## One call -/

theorem storeWifiPassphrase_of_same (key : Str) {p : Str} {n : Nat} {c : FnConfig}
    (equal : c.wifi.passphrase.take n = cString p) : storeWifiPassphrase key p n c = c := by
  rw [storeWifiPassphrase, comparesEqual, if_pos (decide_eq_true equal)]

theorem storeWifiPassphrase_of_ne (key : Str) {p : Str} {n : Nat} {c : FnConfig}
    (ne : c.wifi.passphrase.take n ≠ cString p) :
    storeWifiPassphrase key p n c =
      { c with
        wifi.passphrase := cipher key c.general.encryptPassphrase (octets p n)
        dirty := true } := by
  rw [storeWifiPassphrase, comparesEqual, if_neg fun e => ne (of_decide_eq_true e)]

theorem storeWifiSsid_of_same {s : Str} {n : Nat} {c : FnConfig}
    (equal : c.wifi.ssid.take n = cString s) : storeWifiSsid s n c = c := by
  rw [storeWifiSsid, comparesEqual, if_pos (decide_eq_true equal)]

theorem storeWifiSsid_of_ne {s : Str} {n : Nat} {c : FnConfig}
    (ne : c.wifi.ssid.take n ≠ cString s) :
    storeWifiSsid s n c = { c with wifi.ssid := octets s n, dirty := true } := by
  rw [storeWifiSsid, comparesEqual, if_neg fun e => ne (of_decide_eq_true e)]

theorem nul_notMem_octets (s : Str) (n : Nat) : '\x00' ∉ octets s n := fun mem =>
  nul_notMem_cString s (List.mem_of_mem_take mem)

/-- A prefix of `n` characters that is the whole argument. -/
theorem octets_eq_cString {stored s : Str} {n : Nat} (equal : stored.take n = cString s) :
    octets s n = cString s := by
  rw [octets, ← equal, List.take_take, Nat.min_self]

theorem cipher_cipher (key : Str) (encrypt : Bool) {p : Str} (free : '\x00' ∉ p) :
    cipher key encrypt (cipher key encrypt p) = p := by
  cases encrypt with
  | true => exact crypt_crypt key free
  | false => rfl

/-- Turning the encryption over leaves what the getter returns. -/
theorem getWifiPassphrase_storeGeneralEncryptPassphrase (key : Str) (b : Bool) {c : FnConfig}
    (free : '\x00' ∉ getWifiPassphrase key c) :
    getWifiPassphrase key (storeGeneralEncryptPassphrase key b c) = getWifiPassphrase key c := by
  unfold storeGeneralEncryptPassphrase
  split
  · rfl
  · rename_i changed
    simp only [getWifiPassphrase, cipher] at free ⊢
    cases old : c.general.encryptPassphrase with
    | true =>
        rw [old] at changed
        cases b with
        | true => exact absurd rfl changed
        | false => rfl
    | false =>
        rw [old] at changed free
        cases b with
        | true => exact crypt_crypt key free
        | false => exact absurd rfl changed

/-! ## What was given last -/

/-- A call that stores a credential or turns the encryption on or off. -/
inductive CredentialCall
  | storeWifiPassphrase (p : Str) (n : Nat)
  | storeWifiSsid (s : Str) (n : Nat)
  | storeGeneralEncryptPassphrase (b : Bool)

/-- A configuration with the values that were given last. -/
structure Credentials where
  config : FnConfig
  passphrase : Option Str := none
  ssid : Option Str := none

namespace Credentials

def step (key : Str) : CredentialCall → Credentials → Credentials
  | .storeWifiPassphrase p n, s =>
    { s with config := FnConfig.storeWifiPassphrase key p n s.config, passphrase := some (octets p n) }
  | .storeWifiSsid v n, s =>
    { s with config := FnConfig.storeWifiSsid v n s.config, ssid := some (octets v n) }
  | .storeGeneralEncryptPassphrase b, s =>
    { s with config := FnConfig.storeGeneralEncryptPassphrase key b s.config }

/-- The getters return what was given last. -/
def Law (key : Str) (s : Credentials) : Prop :=
  (∀ v ∈ s.passphrase, s.config.getWifiPassphrase key = v) ∧ ∀ v ∈ s.ssid, s.config.getWifiSsid = v

/-- The law holds after each of the calls. -/
def Lawful (key : Str) : List CredentialCall → Credentials → Prop
  | [], _ => True
  | call :: calls, s => Law key (step key call s) ∧ Lawful key calls (step key call s)

/-- Where the first characters of what is stored are the argument, the argument is all of it. What
is stored of a passphrase is its cipher text while encryption is on. -/
def NoPrefix (key : Str) : CredentialCall → FnConfig → Prop
  | .storeWifiPassphrase p n, c =>
    c.wifi.passphrase.take n = cString p →
      cipher key c.general.encryptPassphrase c.wifi.passphrase = cString p
  | .storeWifiSsid v n, c => c.wifi.ssid.take n = cString v → c.wifi.ssid = cString v
  | .storeGeneralEncryptPassphrase _, _ => True

def NoPrefixes (key : Str) : List CredentialCall → Credentials → Prop
  | [], _ => True
  | call :: calls, s => NoPrefix key call s.config ∧ NoPrefixes key calls (step key call s)

/-- The law, and no NUL in the passphrase: turned over twice, it is the same again. -/
def Inv (key : Str) (s : Credentials) : Prop :=
  Law key s ∧ ∀ v ∈ s.passphrase, '\x00' ∉ v

/-- One call keeps the law exactly if no prefix stops it. -/
theorem law_step_iff {key : Str} {call : CredentialCall} {s : Credentials} (inv : Inv key s) :
    Law key (step key call s) ↔ NoPrefix key call s.config := by
  obtain ⟨⟨passphrase, ssid⟩, free⟩ := inv
  cases call with
  | storeWifiPassphrase p n =>
      by_cases equal : s.config.wifi.passphrase.take n = cString p
      · simp only [Law, step, storeWifiPassphrase_of_same key equal, NoPrefix,
          Option.mem_some_iff, octets_eq_cString equal]
        exact ⟨fun law _ => law.1 _ rfl, fun h => ⟨fun v eq => eq ▸ h equal, ssid⟩⟩
      · simp only [Law, step, storeWifiPassphrase_of_ne key equal, NoPrefix, equal, false_implies,
          iff_true, Option.mem_some_iff]
        refine ⟨fun v given => ?_, ssid⟩
        rw [← given]
        exact cipher_cipher key _ (nul_notMem_octets p n)
  | storeWifiSsid v n =>
      by_cases equal : s.config.wifi.ssid.take n = cString v
      · simp only [Law, step, storeWifiSsid_of_same equal, NoPrefix, Option.mem_some_iff,
          octets_eq_cString equal]
        exact ⟨fun law _ => law.2 _ rfl, fun h => ⟨passphrase, fun v eq => eq ▸ h equal⟩⟩
      · simp only [Law, step, storeWifiSsid_of_ne equal, NoPrefix, equal, false_implies, iff_true,
          Option.mem_some_iff]
        exact ⟨passphrase, fun v given => given⟩
  | storeGeneralEncryptPassphrase b =>
      simp only [Law, step, NoPrefix, iff_true]
      refine ⟨fun v given => ?_, fun v given => ?_⟩
      · have same := passphrase v given
        rw [getWifiPassphrase_storeGeneralEncryptPassphrase key b (same ▸ free v given), same]
      · rw [← ssid v given, FnConfig.storeGeneralEncryptPassphrase]
        split <;> rfl

theorem Inv.step {key : Str} {call : CredentialCall} {s : Credentials} (inv : Inv key s)
    (law : Law key (step key call s)) : Inv key (step key call s) := by
  refine ⟨law, ?_⟩
  cases call with
  | storeWifiPassphrase p n =>
      intro v given
      cases given
      exact nul_notMem_octets p n
  | storeWifiSsid v n => exact inv.2
  | storeGeneralEncryptPassphrase b => exact inv.2

theorem lawful_iff_of_inv {key : Str} {calls : List CredentialCall} {s : Credentials}
    (inv : Inv key s) : Lawful key calls s ↔ NoPrefixes key calls s := by
  induction calls generalizing s with
  | nil => exact Iff.rfl
  | cons call calls ih =>
      rw [Lawful, NoPrefixes, ← law_step_iff inv]
      constructor
      · rintro ⟨law, rest⟩
        exact ⟨law, (ih (inv.step law)).mp rest⟩
      · rintro ⟨law, rest⟩
        exact ⟨law, (ih (inv.step law)).mpr rest⟩

/-- From any configuration: the getters return after each call what was given last exactly if no
call finds its argument as a proper prefix of what is stored. -/
theorem lawful_iff (key : Str) (c : FnConfig) (calls : List CredentialCall) :
    Lawful key calls { config := c } ↔ NoPrefixes key calls { config := c } :=
  lawful_iff_of_inv ⟨⟨by simp, by simp⟩, by simp⟩

/-- The second name is not stored: it is the start of the first. -/
theorem ssid_prefix_not_stored :
    ¬ Lawful [] [.storeWifiSsid "attic5G".toList 7, .storeWifiSsid "attic".toList 5]
      { config := fresh } := by
  intro lawful
  have stays := lawful.2.1.2 _ rfl
  cases stays

end Credentials

/-! ## Restarts -/

theorem plainText_of_printable {s : Str} (h : ∀ c ∈ s, printable c = true) : PlainText s := by
  have other {c : Char} (unprinted : printable c = false) : c ∉ s := fun mem =>
    Bool.false_ne_true (unprinted.symm.trans (h c mem))
  exact ⟨other rfl, other rfl, other rfl⟩

/-- What `store_wifi_passphrase` leaves in memory can be written. -/
theorem plain_storeWifiPassphrase (key : Str) {p : Str} (printed : ∀ ch ∈ p, printable ch = true)
    (n : Nat) {c : FnConfig} (plain : ∀ s ∈ c.strings, PlainText s) :
    ∀ s ∈ (storeWifiPassphrase key p n c).strings, PlainText s := by
  by_cases equal : c.wifi.passphrase.take n = cString p
  · rwa [storeWifiPassphrase_of_same key equal]
  · rw [storeWifiPassphrase_of_ne key equal]
    obtain ⟨⟨name, zone, port, ssid, -, btName, server, ccp, netsio, boip⟩, slots⟩ :=
      forall_mem_strings.mp plain
    have stored : PlainText (cipher key c.general.encryptPassphrase (octets p n)) := by
      have given : ∀ ch ∈ octets p n, printable ch = true := fun ch mem =>
        printed ch ((List.takeWhile_prefix _).subset (List.mem_of_mem_take mem))
      cases c.general.encryptPassphrase with
      | false => exact plainText_of_printable given
      | true =>
          refine plainText_of_printable fun ch mem => ?_
          rcases mem_myencrypt mem with printed | inside
          · exact printed
          · exact given ch ((List.takeWhile_prefix _).subset inside)
    exact forall_mem_strings.mpr
      ⟨⟨name, zone, port, ssid, stored, btName, server, ccp, netsio, boip⟩, slots⟩

/-- With encryption on, a printable passphrase is the same after `save` and `load` exactly if its
cipher text neither starts nor ends with a space. Where the call found the passphrase at the start
of what was stored, this must already have been its cipher text. -/
theorem passphrase_survives_iff {key p t : Str} {n : Nat} {c c' : FnConfig}
    (printed : ∀ ch ∈ p, printable ch = true) (room : p.length ≤ n)
    (encrypt : c.general.encryptPassphrase = true) (plain : ∀ s ∈ c.strings, PlainText s)
    (baud : isInt32 c.bt.btBaud = true)
    (saved : (storeWifiPassphrase key p n c).save = some (some t, c')) (small : t.length < 2048) :
    (load (some t) fresh).map (getWifiPassphrase key) = some p ↔
      if c.wifi.passphrase.take n = p then trim c.wifi.passphrase = crypt key p
      else blankFirst key p = false ∧ blankLast key p = false := by
  have free : '\x00' ∉ p := (plainText_of_printable printed).2.2
  have whole : cString p = p := cString_eq_self_iff.mpr free
  have storedPlain := plain_storeWifiPassphrase key printed n plain
  have fields : (storeWifiPassphrase key p n c).bt = c.bt ∧
      (storeWifiPassphrase key p n c).general = c.general := by
    unfold storeWifiPassphrase
    split <;> exact ⟨rfl, rfl⟩
  have back := load_text (text_of_save saved) storedPlain (fields.1 ▸ baud) (Nat.le_of_lt small) fresh
  have returned : (load (some t) fresh).map (getWifiPassphrase key) =
      some (crypt key (trim (storeWifiPassphrase key p n c).wifi.passphrase)) := by
    rw [back, Option.map_some, getWifiPassphrase]
    simp only [reload, reloadGeneral, reloadWifi, fields.2, encrypt, cipher, if_true]
  have inverse : crypt key (trim (storeWifiPassphrase key p n c).wifi.passphrase) = p ↔
      trim (storeWifiPassphrase key p n c).wifi.passphrase = crypt key p := by
    have clean : '\x00' ∉ trim (storeWifiPassphrase key p n c).wifi.passphrase := by
      obtain ⟨⟨-, -, -, -, passphrase, -⟩, -⟩ := forall_mem_strings.mp storedPlain
      exact fun mem => passphrase.2.2 (mem_of_mem_trim mem)
    constructor
    · intro same
      exact (crypt_crypt key clean).symm.trans (congrArg (crypt key) same)
    · intro same
      rw [same, crypt_crypt key free]
  rw [returned, Option.some.injEq, inverse]
  split
  · rename_i equal
    rw [storeWifiPassphrase_of_same key (equal.trans whole.symm)]
  · rename_i ne
    rw [storeWifiPassphrase_of_ne key fun e => ne (e.trans whole), encrypt, octets, whole,
      List.take_of_length_le room, ← trimmed_crypt_iff key printed]
    exact trim_eq_self_iff

def sampleKey : Str := "FNKA4:CF:12:00:5E:01".toList

/-- A new configuration with encryption on. -/
def encryptingConfig : FnConfig := storeGeneralEncryptPassphrase sampleKey true fresh

theorem encryptingConfig_plain : ∀ s ∈ encryptingConfig.strings, PlainText s := by decide +kernel

theorem passphrase_survives_of_password :
    ∃ t c', (storeWifiPassphrase sampleKey "password".toList 64 encryptingConfig).save =
        some (some t, c') ∧ t.length < 2048 ∧
      (load (some t) fresh).map (getWifiPassphrase sampleKey) = some "password".toList := by
  obtain ⟨t, c', saved, small⟩ : ∃ t c',
      (storeWifiPassphrase sampleKey "password".toList 64 encryptingConfig).save =
        some (some t, c') ∧ t.length < 2048 := by
    obtain ⟨t, c', saved, small⟩ := save_of_length (n := 2047)
      (c := storeWifiPassphrase sampleKey "password".toList 64 encryptingConfig) (by decide +kernel)
    exact ⟨t, c', saved, Nat.lt_succ_of_le small⟩
  have printed : ∀ ch ∈ "password".toList, printable ch = true := List.all_eq_true.mp rfl
  refine ⟨t, c', saved, small, ?_⟩
  exact (passphrase_survives_iff printed (by decide +kernel) rfl encryptingConfig_plain rfl saved
    small).mpr (by decide +kernel)

set_option maxRecDepth 4000 in
/-- The cipher text of `wirelesQ` ends with a space. -/
theorem wirelesQ_does_not_survive :
    (∀ ch ∈ "wirelesQ".toList, printable ch = true) ∧ Trimmed "wirelesQ".toList ∧
      (∀ s ∈ encryptingConfig.strings, PlainText s) ∧
      encryptingConfig.general.encryptPassphrase = true ∧
      ∃ t c', (storeWifiPassphrase sampleKey "wirelesQ".toList 64 encryptingConfig).save =
          some (some t, c') ∧ t.length < 2048 ∧
        (load (some t) fresh).map (getWifiPassphrase sampleKey) ≠ some "wirelesQ".toList := by
  have printed : ∀ ch ∈ "wirelesQ".toList, printable ch = true := List.all_eq_true.mp rfl
  have plain := plain_storeWifiPassphrase sampleKey printed 64 encryptingConfig_plain
  obtain ⟨t, c', saved, small⟩ := save_of_length (n := 2047)
    (c := storeWifiPassphrase sampleKey "wirelesQ".toList 64 encryptingConfig) (by decide +kernel)
  refine ⟨printed, by decide +kernel, encryptingConfig_plain, rfl, t, c', saved,
    Nat.lt_succ_of_le small, ?_⟩
  rw [load_text (text_of_save saved) plain rfl (Nat.le_succ_of_le small) fresh, Option.map_some]
  intro same
  have lost : crypt sampleKey (trim (crypt sampleKey "wirelesQ".toList)) = "wirelesQ".toList :=
    Option.some.inj same
  exact absurd lost (by decide +kernel)

end FujiNet.FnConfig
