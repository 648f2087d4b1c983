import FujiNet.Config.RoundTrip

/-!
# Configurations that a file can hold

A string is written as it is, so that one with a line end or a NUL in it breaks the
file. Of a configuration without such strings, every block is found again, and the
file makes `reload c d` of any configuration `d` into which it is read.
-/

namespace FujiNet.FnConfig

open Text Lines

/-- A string without a line end and without NUL. -/
def PlainText (s : Str) : Prop := '\r' ∉ s ∧ '\n' ∉ s ∧ '\x00' ∉ s

instance decidablePlainText (s : Str) : Decidable (PlainText s) :=
  inferInstanceAs (Decidable ('\r' ∉ s ∧ '\n' ∉ s ∧ '\x00' ∉ s))

/-- The strings of a configuration that have a place in the file. -/
def strings (c : FnConfig) : List Str :=
  [c.general.devicename, c.general.timezone, c.serial.port, c.wifi.ssid, c.wifi.passphrase,
    c.bt.btDevname, c.network.sntpserver, c.cpm.ccp, c.netsio.host, c.boip.host] ++
  (List.finRange MAX_WIFI_STORED).flatMap (fun i =>
    [(c.wifiStored i).ssid, (c.wifiStored i).passphrase]) ++
  (List.finRange MAX_HOST_SLOTS).map (fun i => (c.hostSlots i).name) ++
  (List.finRange MAX_MOUNT_SLOTS).map (fun i => (c.mountSlots i).path) ++
  (List.finRange MAX_TAPE_SLOTS).map (fun i => (c.tapeSlots i).path) ++
  (List.finRange MAX_PB_SLOTS).flatMap (fun i =>
    [(c.phonebookSlots i).phnumber, (c.phonebookSlots i).hostname, (c.phonebookSlots i).port])

theorem plainText_decimal (i : Int) : PlainText (decimal i) := by
  have ne {c : Char} (digit : c.isDigit = false) (sign : c ≠ '-') : c ∉ decimal i := by
    intro mem
    rcases mem_decimal mem with rfl | h
    · exact sign rfl
    · rw [digit] at h
      cases h
  exact ⟨ne (by decide) (by decide), ne (by decide) (by decide), ne (by decide) (by decide)⟩

theorem plainText_boolText (b : Bool) : PlainText (boolText b) := by
  cases b <;> decide

theorem plainText_nameOf {α : Type} [DecidableEq α] {enumerators : List α} {names : List Str}
    (plain : ∀ n ∈ names, PlainText n) {x : α} {name : Str}
    (named : nameOf enumerators names x = some name) : PlainText name :=
  plain name (List.mem_of_getElem? named)

/-! ## Blocks -/

/-- A block that comes back, with no NUL in it. -/
structure Block.Sound (b : Block) : Prop extends b.Readable where
  noNul : ∀ line ∈ b.lines, '\x00' ∉ line

theorem Block.sound {b : Block} (known : ∃ sec, findSectionInLine b.header = some sec)
    (title : PlainText b.header) (names : (b.fields.map Prod.fst).all goodName = true)
    (values : ∀ v ∈ b.fields.map Prod.snd, PlainText v) (written : b.fields ≠ []) : b.Sound := by
  have good : ∀ f ∈ b.fields, goodName f.1 = true := by
    intro f mem
    exact List.all_eq_true.mp names f.1 (List.mem_map_of_mem mem)
  have plain : ∀ f ∈ b.fields, PlainText f.2 := by
    intro f mem
    exact values f.2 (List.mem_map_of_mem mem)
  refine ⟨⟨known, ⟨title.1, title.2.1⟩, good, fun f mem => ?_, written⟩, ?_⟩
  · exact ⟨(plain f mem).1, (plain f mem).2.1⟩
  · rw [Block.lines, List.forall_mem_cons]
    refine ⟨title.2.2, fun line mem => ?_⟩
    obtain ⟨f, hf, rfl⟩ := List.mem_map.mp mem
    have name := good f hf
    simp only [goodName, Bool.and_eq_true, Bool.not_eq_true', List.contains_eq_mem,
      decide_eq_false_iff_not] at name
    simp only [Block.fieldLine, List.mem_append, List.mem_cons, not_or]
    exact ⟨name.2, by decide, (plain f hf).2.2⟩

theorem plain_cons {v : Str} {vs : List Str} (first : PlainText v) (rest : ∀ x ∈ vs, PlainText x) :
    ∀ x ∈ v :: vs, PlainText x :=
  List.forall_mem_cons.mpr ⟨first, rest⟩

theorem plain_nil : ∀ x ∈ ([] : List Str), PlainText x := List.forall_mem_nil _

theorem sound_general {g : GeneralInfo} (name : PlainText g.devicename)
    (zone : PlainText g.timezone) : (generalBlock g).Sound := by
  have title : PlainText ('[' :: ("General".toList ++ [']'])) := by decide
  cases g with
  | mk devicename hsioIndex timezone =>
      cases timezone with
      | nil =>
          refine Block.sound ⟨.general, rfl⟩ title rfl ?_ (List.cons_ne_nil _ _)
          exact plain_cons name (plain_cons (plainText_decimal _) (plain_cons (plainText_boolText _)
            (plain_cons (plainText_boolText _) (plain_cons (plainText_decimal _)
            (plain_cons (plainText_boolText _) (plain_cons (plainText_boolText _)
            (plain_cons (plainText_boolText _) (plain_cons (plainText_boolText _) plain_nil))))))))
      | cons z timezone =>
          refine Block.sound ⟨.general, rfl⟩ title rfl ?_ (List.cons_ne_nil _ _)
          exact plain_cons name (plain_cons (plainText_decimal _) (plain_cons (plainText_boolText _)
            (plain_cons (plainText_boolText _) (plain_cons (plainText_decimal _) (plain_cons zone
            (plain_cons (plainText_boolText _) (plain_cons (plainText_boolText _)
            (plain_cons (plainText_boolText _) (plain_cons (plainText_boolText _) plain_nil)))))))))

theorem sound_serial {s : SerialInfo} {b : Block} (made : serialBlock s = some b)
    (port : PlainText s.port) : b.Sound := by
  simp only [serialBlock, Option.bind_eq_bind, Option.bind_eq_some_iff] at made
  obtain ⟨command, hcommand, proceed, hproceed, made⟩ := made
  cases made
  refine Block.sound ⟨.serial, rfl⟩
    (show PlainText ('[' :: ("Serial".toList ++ [']'])) by decide) rfl ?_ (List.cons_ne_nil _ _)
  exact plain_cons port (plain_cons (plainText_nameOf (by decide) hcommand)
    (plain_cons (plainText_nameOf (by decide) hproceed) plain_nil))

theorem sound_wifi {w : WifiInfo} (ssid : PlainText w.ssid) (passphrase : PlainText w.passphrase) :
    (wifiBlock w).Sound := by
  refine Block.sound ⟨.wifi, rfl⟩
    (show PlainText ('[' :: ("WiFi".toList ++ [']'])) by decide) rfl ?_ (List.cons_ne_nil _ _)
  exact plain_cons (plainText_boolText _) (plain_cons ssid (plain_cons passphrase plain_nil))

/-- The titles with a number. -/
theorem plainText_numbered {n : Nat} {title : Str} (plain : PlainText title) (i : Fin n) :
    PlainText ('[' :: (numbered title i ++ [']'])) := by
  obtain ⟨cr, lf, nul⟩ := plain
  obtain ⟨cr', lf', nul'⟩ := plainText_decimal (i.val + 1 : Nat)
  simp only [PlainText, numbered, List.mem_cons, List.mem_append, not_or, List.not_mem_nil,
    not_false_eq_true, and_true]
  exact ⟨⟨by decide, ⟨cr, cr'⟩, by decide⟩, ⟨by decide, ⟨lf, lf'⟩, by decide⟩,
    ⟨by decide, ⟨nul, nul'⟩, by decide⟩⟩

theorem sound_wifiStored {stored : Fin MAX_WIFI_STORED → WifiInfo} {i : Fin MAX_WIFI_STORED}
    (ssid : PlainText (stored i).ssid) (passphrase : PlainText (stored i).passphrase) :
    (wifiStoredBlock stored i).Sound := by
  refine Block.sound ⟨_, known_wifiStored i⟩ (plainText_numbered (by decide) i) rfl ?_
    (List.cons_ne_nil _ _)
  exact plain_cons ssid (plain_cons passphrase plain_nil)

theorem sound_bt {b : BtInfo} (name : PlainText b.btDevname) : (btBlock b).Sound := by
  refine Block.sound ⟨.bt, rfl⟩
    (show PlainText ('[' :: ("Bluetooth".toList ++ [']'])) by decide) rfl ?_ (List.cons_ne_nil _ _)
  exact plain_cons name (plain_cons (plainText_boolText _) (plain_cons (plainText_decimal _)
    plain_nil))

theorem sound_network {n : NetworkInfo} (server : PlainText n.sntpserver) :
    (networkBlock n).Sound := by
  refine Block.sound ⟨.network, rfl⟩
    (show PlainText ('[' :: ("Network".toList ++ [']'])) by decide) rfl ?_ (List.cons_ne_nil _ _)
  exact plain_cons server plain_nil

theorem sound_host {hosts : Fin MAX_HOST_SLOTS → HostInfo} {i : Fin MAX_HOST_SLOTS} {b : Block}
    (made : hostBlock hosts i = some b) (name : PlainText (hosts i).name) : b.Sound := by
  simp only [hostBlock, Option.bind_eq_bind, Option.bind_eq_some_iff] at made
  obtain ⟨type, htype, made⟩ := made
  cases made
  refine Block.sound ⟨_, known_host i⟩ (plainText_numbered (by decide) i) rfl ?_
    (List.cons_ne_nil _ _)
  exact plain_cons (plainText_nameOf (by decide) htype) (plain_cons name plain_nil)

theorem sound_mount {n : Nat} {title : Str} (plain : PlainText title) {mounts : Fin n → MountInfo}
    {i : Fin n} (known : ∃ sec, findSectionInLine ('[' :: (numbered title i ++ [']'])) = some sec)
    {b : Block} (made : mountBlock title mounts i = some b) (path : PlainText (mounts i).path) :
    b.Sound := by
  simp only [mountBlock, Option.bind_eq_bind, Option.bind_eq_some_iff] at made
  obtain ⟨mode, hmode, made⟩ := made
  cases made
  refine Block.sound known (plainText_numbered plain i) rfl ?_ (List.cons_ne_nil _ _)
  exact plain_cons (plainText_decimal _) (plain_cons path
    (plain_cons (plainText_nameOf (by decide) hmode) plain_nil))

theorem sound_printer (printers : Fin MAX_PRINTER_SLOTS → PrinterInfo) (i : Fin MAX_PRINTER_SLOTS) :
    (printerBlock printers i).Sound := by
  refine Block.sound ⟨_, known_printer i⟩ (plainText_numbered (by decide) i) rfl ?_
    (List.cons_ne_nil _ _)
  exact plain_cons (plainText_decimal (printers i).type.code)
    (plain_cons (plainText_decimal ((printers i).port + 1)) plain_nil)

theorem sound_modem (m : ModemInfo) : (modemBlock m).Sound := by
  refine Block.sound ⟨.modem, rfl⟩
    (show PlainText ('[' :: ("Modem".toList ++ [']'])) by decide) rfl ?_ (List.cons_ne_nil _ _)
  exact plain_cons (plainText_boolText _) (plain_cons (plainText_boolText _) plain_nil)

theorem sound_phonebook {phonebook : Fin MAX_PB_SLOTS → PhbookInfo} {i : Fin MAX_PB_SLOTS}
    (number : PlainText (phonebook i).phnumber) (host : PlainText (phonebook i).hostname)
    (port : PlainText (phonebook i).port) : (phonebookBlock phonebook i).Sound := by
  refine Block.sound ⟨_, known_phonebook i⟩ (plainText_numbered (by decide) i) rfl ?_
    (List.cons_ne_nil _ _)
  exact plain_cons number (plain_cons host (plain_cons port plain_nil))

theorem sound_cassette (c : CassetteInfo) : (cassetteBlock c).Sound := by
  refine Block.sound ⟨.cassette, rfl⟩
    (show PlainText ('[' :: ("Cassette".toList ++ [']'])) by decide) rfl ?_ (List.cons_ne_nil _ _)
  have record : PlainText (if c.button then "1 Record".toList else "0 Play".toList) := by
    split <;> decide
  have pulldown : PlainText
      (if c.pulldown then "1 Pulldown Resistor".toList else "0 B Button Press".toList) := by
    split <;> decide
  exact plain_cons record (plain_cons pulldown (plain_cons (plainText_boolText _) plain_nil))

theorem sound_cpm {c : CpmInfo} (ccp : PlainText c.ccp) : (cpmBlock c).Sound := by
  refine Block.sound ⟨.cpm, rfl⟩
    (show PlainText ('[' :: ("CPM".toList ++ [']'])) by decide) rfl ?_ (List.cons_ne_nil _ _)
  exact plain_cons (plainText_boolText _) (plain_cons ccp plain_nil)

theorem sound_deviceEnable (e : DeviceEnableInfo) : (deviceEnableBlock e).Sound := by
  refine Block.sound ⟨.deviceEnable, rfl⟩
    (show PlainText ('[' :: ("ENABLE".toList ++ [']'])) by decide) rfl ?_ (List.cons_ne_nil _ _)
  exact plain_cons (plainText_boolText _) (plain_cons (plainText_boolText _)
    (plain_cons (plainText_boolText _) (plain_cons (plainText_boolText _)
    (plain_cons (plainText_boolText _) (plain_cons (plainText_boolText _)
    (plain_cons (plainText_boolText _) (plain_cons (plainText_boolText _)
    (plain_cons (plainText_boolText _) plain_nil))))))))

theorem sound_netsio {n : NetsioInfo} (host : PlainText n.host) : (netsioBlock n).Sound := by
  refine Block.sound ⟨.netsio, rfl⟩
    (show PlainText ('[' :: ("NetSIO".toList ++ [']'])) by decide) rfl ?_ (List.cons_ne_nil _ _)
  exact plain_cons (plainText_boolText _) (plain_cons host (plain_cons (plainText_decimal _)
    plain_nil))

theorem sound_boip {b : BoipInfo} (host : PlainText b.host) : (boipBlock b).Sound := by
  refine Block.sound ⟨.boip, rfl⟩
    (show PlainText ('[' :: ("BOIP".toList ++ [']'])) by decide) rfl ?_ (List.cons_ne_nil _ _)
  exact plain_cons (plainText_boolText _) (plain_cons host (plain_cons (plainText_decimal _)
    plain_nil))

/-! ## The whole file -/

theorem forall_mem_of_mapM {α : Type} {f : α → Option Block} {p : Block → Prop} {l : List α}
    {bs : List Block} (made : l.mapM f = some bs) (h : ∀ a b, f a = some b → p b) :
    ∀ b ∈ bs, p b := by
  induction l generalizing bs with
  | nil =>
      cases made
      simp
  | cons a l ih =>
      simp only [List.mapM_cons, Option.bind_eq_bind, Option.bind_eq_some_iff] at made
      obtain ⟨b, hb, bs, hbs, made⟩ := made
      cases made
      exact List.forall_mem_cons.mpr ⟨h a b hb, ih hbs⟩

/-- What holds of all strings, member by member. -/
theorem forall_mem_strings {c : FnConfig} {p : Str → Prop} : (∀ s ∈ c.strings, p s) ↔
    (p c.general.devicename ∧ p c.general.timezone ∧ p c.serial.port ∧ p c.wifi.ssid ∧
      p c.wifi.passphrase ∧ p c.bt.btDevname ∧ p c.network.sntpserver ∧ p c.cpm.ccp ∧
      p c.netsio.host ∧ p c.boip.host) ∧
    (∀ i, p (c.wifiStored i).ssid ∧ p (c.wifiStored i).passphrase) ∧
    (∀ i, p (c.hostSlots i).name) ∧ (∀ i, p (c.mountSlots i).path) ∧
    (∀ i, p (c.tapeSlots i).path) ∧
    ∀ i, p (c.phonebookSlots i).phnumber ∧ p (c.phonebookSlots i).hostname ∧
      p (c.phonebookSlots i).port := by
  simp only [strings, List.forall_mem_append, List.forall_mem_cons, List.forall_mem_flatMap,
    List.forall_mem_map, List.mem_finRange, forall_const, List.not_mem_nil, false_implies,
    and_true, and_assoc]

theorem sound_blocks {c : FnConfig} {bs : List Block} (made : c.blocks = some bs)
    (plain : ∀ s ∈ c.strings, PlainText s) : ∀ b ∈ bs, b.Sound := by
  obtain ⟨⟨name, zone, port, ssid, passphrase, btName, server, ccp, netsio, boip⟩, stored, hosts,
    mounts, tapes, phonebook⟩ := forall_mem_strings.mp plain
  simp only [blocks, Option.bind_eq_bind, Option.bind_eq_some_iff] at made
  obtain ⟨serial, hserial, hostBlocks, hhosts, mountBlocks, hmounts, tapeBlocks, htapes, made⟩ := made
  cases made
  simp only [List.forall_mem_append, List.forall_mem_cons, List.forall_mem_map]
  refine ⟨⟨⟨⟨⟨⟨⟨⟨⟨⟨sound_general name zone, sound_serial hserial port, sound_wifi ssid passphrase,
    List.forall_mem_nil _⟩, fun i _ => ?_⟩, sound_bt btName, sound_network server,
    List.forall_mem_nil _⟩, ?_⟩, ?_⟩, fun i _ => sound_printer _ i⟩, ?_⟩, sound_modem _,
    List.forall_mem_nil _⟩, fun i _ => ?_⟩, sound_cassette _, sound_cpm ccp, sound_deviceEnable _,
    sound_netsio netsio, sound_boip boip, List.forall_mem_nil _⟩
  · exact sound_wifiStored (stored i).1 (stored i).2
  · exact forall_mem_of_mapM hhosts fun i b made => sound_host made (hosts i)
  · exact forall_mem_of_mapM hmounts fun i b made =>
      sound_mount (by decide) ⟨_, known_mount i⟩ made (mounts i)
  · exact forall_mem_of_mapM htapes fun i b made =>
      sound_mount (by decide) ⟨_, known_tape i⟩ made (tapes i)
  · obtain ⟨number, host, port⟩ := phonebook i
    exact sound_phonebook number host port

theorem blocks_ne_nil {c : FnConfig} {bs : List Block} (made : c.blocks = some bs) : bs ≠ [] := by
  simp only [blocks, Option.bind_eq_bind, Option.bind_eq_some_iff] at made
  obtain ⟨serial, -, hosts, -, mounts, -, tapes, -, made⟩ := made
  cases made
  simp

/-- Every file ends with the end of a line. -/
theorem text_eq_append {c : FnConfig} {t : Str} (made : c.text = some t) :
    ∃ front, t = front ++ ['\r', '\n'] := by
  rw [text, Option.map_eq_some_iff] at made
  obtain ⟨bs, made, rfl⟩ := made
  refine joinLines_eq_append fun empty => ?_
  obtain ⟨b, bs', rfl⟩ := List.exists_cons_of_ne_nil (blocks_ne_nil made)
  obtain ⟨rest, first⟩ := fileLines_cons b bs'
  rw [first] at empty
  exact List.cons_ne_nil _ _ empty

theorem mem_fileLines {bs : List Block} {line : Str} (h : line ∈ fileLines bs) :
    line = [] ∨ ∃ b ∈ bs, line ∈ b.lines := by
  induction bs using fileLines.induct with
  | case1 => simp [fileLines] at h
  | case2 b => exact .inr ⟨b, List.mem_cons_self, h⟩
  | case3 b b' bs ih =>
      rw [fileLines, List.mem_append, List.mem_cons] at h
      rcases h with h | rfl | h
      · exact .inr ⟨b, List.mem_cons_self, h⟩
      · exact .inl rfl
      · rcases ih h with blank | ⟨b'', mem, inside⟩
        · exact .inl blank
        · exact .inr ⟨b'', List.mem_cons_of_mem b mem, inside⟩

theorem inibuffer_isPrefix (t : Str) : inibuffer t <+: t :=
  (List.takeWhile_prefix _).trans (List.take_prefix _ t)

/-- How long a file can be for all of its lines to be read. The buffer has no room for the last
LF of 2048 bytes, which does not matter. -/
theorem splitLines_inibuffer_iff {c : FnConfig} {t : Str} (made : c.text = some t) :
    splitLines (inibuffer t) = splitLines t ↔ t.length ≤ CONFIG_FILEBUFFSIZE ∧ '\x00' ∉ t := by
  obtain ⟨front, rfl⟩ := text_eq_append made
  have start := inibuffer_isPrefix (front ++ ['\r', '\n'])
  rw [splitLines_eq_of_prefix_iff start]
  constructor
  · intro long
    have room : (inibuffer (front ++ ['\r', '\n'])).length ≤ CONFIG_FILEBUFFSIZE - 1 :=
      (List.takeWhile_prefix _).length_le.trans (List.length_take_le _ _)
    have inside : front <+: inibuffer (front ++ ['\r', '\n']) :=
      List.prefix_of_prefix_length_le (List.prefix_append front _) start (Nat.le_of_lt long)
    refine ⟨?_, fun nul => ?_⟩
    · simp only [List.length_append, List.length_cons, List.length_nil]
      unfold CONFIG_FILEBUFFSIZE at room ⊢
      omega
    · have infront : '\x00' ∈ front := by simpa using nul
      exact nul_notMem_cString _ (inside.subset infront)
  · rintro ⟨small, free⟩
    have whole : inibuffer (front ++ ['\r', '\n']) =
        (front ++ ['\r', '\n']).take (CONFIG_FILEBUFFSIZE - 1) :=
      cString_eq_self_iff.mpr fun nul => free (List.mem_of_mem_take nul)
    rw [whole, List.length_take]
    simp only [List.length_append, List.length_cons, List.length_nil] at small ⊢
    unfold CONFIG_FILEBUFFSIZE at small ⊢
    omega

theorem nul_notMem_text {c : FnConfig} {t : Str} (made : c.text = some t)
    (plain : ∀ s ∈ c.strings, PlainText s) : '\x00' ∉ t := by
  rw [text, Option.map_eq_some_iff] at made
  obtain ⟨bs, made, rfl⟩ := made
  refine notMem_joinLines (by decide) (by decide) fun line mem => ?_
  rcases mem_fileLines mem with rfl | ⟨b, hb, inside⟩
  · exact List.not_mem_nil
  · exact (sound_blocks made plain b hb).noNul line inside

/-- What a saved file does when it is read into any configuration. -/
theorem load_text {c : FnConfig} {t : Str} (made : c.text = some t)
    (plain : ∀ s ∈ c.strings, PlainText s) (fits : isInt32 c.bt.btBaud = true)
    (small : t.length ≤ CONFIG_FILEBUFFSIZE) (d : FnConfig) :
    load (some t) d = some { reload c d with dirty := false } := by
  have blocks := made
  rw [text, Option.map_eq_some_iff] at blocks
  obtain ⟨bs, blocks, written⟩ := blocks
  have readable : ∀ b ∈ bs, b.Readable := fun b mem => (sound_blocks blocks plain b mem).toReadable
  have lines : splitLines (inibuffer t) = fileLines bs := by
    rw [(splitLines_inibuffer_iff made).mpr ⟨small, nul_notMem_text made plain⟩, ← written]
    exact splitLines_joinLines (clean_fileLines readable)
  rw [load_some, sections, lines, foldlM_group_fileLines readable, foldlM_blocks blocks fits]
  rfl

end FujiNet.FnConfig
