import FujiNet.Config.Reload

/-!
# The configuration after a restart

`reload c d` is what the file of `c` makes of the configuration `d`: strings lose the
white space around them, numbers outside of their range are replaced, and slots without
a block stay as they are. From it the fields that come back unchanged are read off.
-/

namespace FujiNet.FnConfig

open Text Lines

/-! ## Values -/

theorem valueIsTrue_boolText (b : Bool) : valueIsTrue (trim (boolText b)) = b := by
  cases b <;> decide

theorem strcasecmp_boolText (b : Bool) : strcasecmp (trim (boolText b)) "1".toList = b := by
  cases b <;> decide

theorem atoi_boolText (b : Bool) : decide (atoi (trim (boolText b)) ≠ 0) = b := by
  cases b <;> decide

theorem trim_decimal (i : Int) : trim (decimal i) = decimal i :=
  (trimmed_decimal i).trim

theorem printerTypeOf_code (t : PrinterType) : printerTypeOf (trim (decimal t.code)) = t := by
  cases t <;> decide

/-! ## What the blocks bring back -/

def reloadGeneral (g old : GeneralInfo) : GeneralInfo :=
  { old with
    devicename := trim g.devicename
    hsioIndex := hsioIndexOf (decimal g.hsioIndex) old.hsioIndex
    timezone := if g.timezone = [] then old.timezone else trim g.timezone
    rotationSounds := g.rotationSounds
    configEnabled := g.configEnabled
    bootMode := atoi (decimal g.bootMode)
    fnconfigSpifs := g.fnconfigSpifs
    statusWaitEnabled := g.statusWaitEnabled
    encryptPassphrase := g.encryptPassphrase
    printerEnabled := g.printerEnabled }

def reloadWifi (w : WifiInfo) : WifiInfo :=
  { w with ssid := trim w.ssid, passphrase := trim w.passphrase }

def reloadHost (h : HostInfo) : HostInfo := { h with name := trim h.name }

def reloadMount (m : MountInfo) : MountInfo :=
  { m with hostSlot := hostSlotOf (decimal (m.hostSlot + 1)), path := trim m.path }

def reloadPrinter (p : PrinterInfo) : PrinterInfo :=
  { p with port := printerPortOf (decimal (p.port + 1)) }

def reloadPhbook (p : PhbookInfo) : PhbookInfo :=
  ⟨trim p.phnumber, trim p.hostname, trim p.port⟩

/-! ## Titles with a number -/

theorem known_wifiStored (i : Fin MAX_WIFI_STORED) :
    findSectionInLine ('[' :: (numbered "WiFiStored".toList i ++ [']'])) = some (.wifiStored i) := by
  revert i
  decide

theorem known_host (i : Fin MAX_HOST_SLOTS) :
    findSectionInLine ('[' :: (numbered "Host".toList i ++ [']'])) = some (.host i) := by
  revert i
  decide

theorem known_mount (i : Fin MAX_MOUNT_SLOTS) :
    findSectionInLine ('[' :: (numbered "Mount".toList i ++ [']'])) = some (.mount i) := by
  revert i
  decide

/-- Every printer is taken for the first. -/
theorem known_printer (i : Fin MAX_PRINTER_SLOTS) :
    findSectionInLine ('[' :: (numbered "Printer".toList i ++ [']'])) = some (.printer 0) := by
  revert i
  decide

theorem known_tape (i : Fin MAX_TAPE_SLOTS) :
    findSectionInLine ('[' :: (numbered "Tape".toList i ++ [']'])) = some (.tape i) := by
  revert i
  decide

theorem known_phonebook (i : Fin MAX_PB_SLOTS) :
    findSectionInLine ('[' :: (numbered "Phonebook".toList i ++ [']'])) = some (.phonebook i) := by
  revert i
  decide

section Blocks

variable (d : FnConfig)

theorem readBlock_general (g : GeneralInfo) :
    readBlock d (generalBlock g) = some { d with general := reloadGeneral g d.general } := by
  have known : findSectionInLine (generalBlock g).header = some .general := rfl
  have fields : readFields generalField (generalBlock g).fields d.general =
      reloadGeneral g d.general := by
    cases g with
    | mk devicename hsioIndex timezone =>
        cases timezone with
        | nil =>
            exact GeneralInfo.ext rfl (congrArg (hsioIndexOf · _) (trim_decimal _)) rfl
              (valueIsTrue_boolText _) (valueIsTrue_boolText _) (congrArg atoi (trim_decimal _))
              (valueIsTrue_boolText _) (valueIsTrue_boolText _) (valueIsTrue_boolText _)
              (valueIsTrue_boolText _) rfl rfl rfl
        | cons c timezone =>
            exact GeneralInfo.ext rfl (congrArg (hsioIndexOf · _) (trim_decimal _)) rfl
              (valueIsTrue_boolText _) (valueIsTrue_boolText _) (congrArg atoi (trim_decimal _))
              (valueIsTrue_boolText _) (valueIsTrue_boolText _) (valueIsTrue_boolText _)
              (valueIsTrue_boolText _) rfl rfl rfl
  rw [readBlock, known]
  refine (foldlM_field .general generalField (fun _ _ _ => rfl) _ _).trans ?_
  exact congrArg (fun g => some { d with general := g }) fields

theorem readBlock_serial {s : SerialInfo} {b : Block} (made : serialBlock s = some b) :
    readBlock d b = some { d with serial := { s with port := trim s.port } } := by
  simp only [serialBlock, Option.bind_eq_bind, Option.bind_eq_some_iff] at made
  obtain ⟨command, hcommand, proceed, hproceed, made⟩ := made
  cases made
  refine (foldlM_field .serial serialField (fun _ _ _ => rfl) _ _).trans ?_
  refine congrArg (fun s => some { d with serial := s }) ?_
  exact SerialInfo.ext rfl (fromString_nameOf_serialCommand hcommand)
    (fromString_nameOf_serialProceed hproceed)

theorem readBlock_wifi (w : WifiInfo) :
    readBlock d (wifiBlock w) = some { d with wifi := reloadWifi w } := by
  refine (foldlM_field .wifi wifiField (fun _ _ _ => rfl) _ _).trans ?_
  refine congrArg (fun w => some { d with wifi := w }) ?_
  exact WifiInfo.ext rfl rfl (strcasecmp_boolText _)

theorem readBlock_wifiStored {stored : Fin MAX_WIFI_STORED → WifiInfo} {i : Fin MAX_WIFI_STORED}
    {b : Block} (made : some (wifiStoredBlock stored i) = some b) :
    readBlock d b = some ((Component.wifiStored.slot i).set d
      { reloadWifi (stored i) with enabled := true }) := by
  cases made
  rw [readBlock, show findSectionInLine (wifiStoredBlock stored i).header = _ from known_wifiStored i]
  refine (foldlM_field (Component.wifiStored.slot i)
    (fun name value w => wifiStoredField name value { w with enabled := true })
    (fun name value c => ?_) _ _).trans ?_
  · simp [Section.field, Section.atLine, modifySlot, Component.slot, Component.wifiStored]
  · simp only [Section.reset, modifySlot, Component.slot, Component.wifiStored,
      Function.update_idem, Function.update_self]
    rfl

theorem readBlock_bt (b : BtInfo) (fits : isInt32 b.btBaud = true) :
    readBlock d (btBlock b) = some { d with bt := { b with btDevname := trim b.btDevname } } := by
  have baud : stoi (trim (decimal b.btBaud)) = some b.btBaud := by
    rw [trim_decimal, stoi_decimal fits]
  have last : readBlock d (btBlock b) = ((((stoi (trim (decimal b.btBaud))).map fun baud =>
      (⟨strcasecmp (trim (boolText b.btStatus)) "1".toList, baud, trim b.btDevname⟩ : BtInfo)).map
        fun b => { d with bt := b }).bind some) := rfl
  rw [last, baud, strcasecmp_boolText]
  rfl

theorem readBlock_network (n : NetworkInfo) :
    readBlock d (networkBlock n) =
      some { d with network := { d.network with sntpserver := (trim n.sntpserver).take 39 } } :=
  foldlM_field .network networkField (fun _ _ _ => rfl) _ _

theorem readBlock_host {hosts : Fin MAX_HOST_SLOTS → HostInfo} {i : Fin MAX_HOST_SLOTS} {b : Block}
    (made : hostBlock hosts i = some b) :
    readBlock d b = some ((Component.hostSlots.slot i).set d (reloadHost (hosts i))) := by
  simp only [hostBlock, Option.bind_eq_bind, Option.bind_eq_some_iff] at made
  obtain ⟨type, htype, made⟩ := made
  cases made
  rw [readBlock, Block.header, known_host]
  refine (foldlM_field (Component.hostSlots.slot i) hostField (fun _ _ _ => rfl) _ _).trans ?_
  simp only [Section.reset, modifySlot, Component.slot, Component.hostSlots,
    Function.update_idem, Function.update_self]
  refine congrArg (fun h => some { d with hostSlots := Function.update d.hostSlots i h }) ?_
  exact HostInfo.ext (fromString_nameOf_hostType htype) rfl

/-- The three lines of a slot leave nothing of what was in it. -/
theorem readFields_mount {m : MountInfo} {mode : Str}
    (named : nameOf mountModes mountModeNames m.mode = some mode) (old : MountInfo) :
    readFields mountField
        [("hostslot".toList, decimal (m.hostSlot + 1)), ("path".toList, m.path), ("mode".toList, mode)]
        old = reloadMount m :=
  MountInfo.ext (congrArg hostSlotOf (trim_decimal _)) (fromString_nameOf_mountMode named) rfl

theorem readBlock_mount {mounts : Fin MAX_MOUNT_SLOTS → MountInfo} {i : Fin MAX_MOUNT_SLOTS}
    {b : Block} (made : mountBlock "Mount".toList mounts i = some b) :
    readBlock d b = some ((Component.mountSlots.slot i).set d (reloadMount (mounts i))) := by
  simp only [mountBlock, Option.bind_eq_bind, Option.bind_eq_some_iff] at made
  obtain ⟨mode, hmode, made⟩ := made
  cases made
  rw [readBlock, Block.header, known_mount]
  refine (foldlM_field (Component.mountSlots.slot i) mountField (fun _ _ _ => rfl) _
    _).trans ?_
  rw [readFields_mount hmode]
  simp only [Section.reset, modifySlot, Component.slot, Component.mountSlots, Function.update_idem]

/-- A tape slot is cleared, and its block is read into a disk slot. -/
theorem readBlock_tape {tapes : Fin MAX_TAPE_SLOTS → MountInfo} {i : Fin MAX_TAPE_SLOTS} {b : Block}
    (made : mountBlock "Tape".toList tapes i = some b) :
    readBlock d b = some
      { d with
        tapeSlots := Function.update d.tapeSlots i {}
        mountSlots := Function.update d.mountSlots 0 (reloadMount (tapes i)) } := by
  simp only [mountBlock, Option.bind_eq_bind, Option.bind_eq_some_iff] at made
  obtain ⟨mode, hmode, made⟩ := made
  cases made
  obtain rfl : i = 0 := Subsingleton.elim _ _
  rw [readBlock, Block.header, known_tape]
  refine (foldlM_field (Component.mountSlots.slot 0) mountField (fun _ _ _ => rfl) _
    _).trans ?_
  rw [readFields_mount hmode]
  rfl

theorem readBlock_printer {printers : Fin MAX_PRINTER_SLOTS → PrinterInfo}
    (i : Fin MAX_PRINTER_SLOTS) :
    readBlock d (printerBlock printers i) =
      some ((Component.printerSlots.slot 0).set d (reloadPrinter (printers i))) := by
  rw [readBlock, show findSectionInLine (printerBlock printers i).header = _ from known_printer i]
  refine (foldlM_field (Component.printerSlots.slot 0) printerField (fun _ _ _ => rfl) _
    _).trans ?_
  simp only [Section.reset, modifySlot, Component.slot, Component.printerSlots,
    Function.update_idem, Function.update_self]
  refine congrArg (fun p => some { d with printerSlots := Function.update d.printerSlots 0 p }) ?_
  exact PrinterInfo.ext (printerTypeOf_code _) (congrArg printerPortOf (trim_decimal _))

theorem readBlock_modem (m : ModemInfo) :
    readBlock d (modemBlock m) = some { d with modem := m } := by
  refine (foldlM_field .modem modemField (fun _ _ _ => rfl) _ _).trans ?_
  refine congrArg (fun m => some { d with modem := m }) ?_
  exact ModemInfo.ext (valueIsTrue_boolText _) (valueIsTrue_boolText _)

theorem readBlock_phonebook {phonebook : Fin MAX_PB_SLOTS → PhbookInfo} {i : Fin MAX_PB_SLOTS}
    {b : Block} (made : some (phonebookBlock phonebook i) = some b) :
    readBlock d b = some ((Component.phonebookSlots.slot i).set d (reloadPhbook (phonebook i))) := by
  cases made
  rw [readBlock,
    show findSectionInLine (phonebookBlock phonebook i).header = _ from known_phonebook i]
  refine (foldlM_field (Component.phonebookSlots.slot i) phonebookField
    (fun _ _ _ => rfl) _ _).trans ?_
  simp only [Section.reset, modifySlot, Component.slot, Component.phonebookSlots,
    Function.update_idem, Function.update_self]
  rfl

theorem readBlock_cassette (c : CassetteInfo) :
    readBlock d (cassetteBlock c) = some { d with cassette := c } := by
  refine (foldlM_field .cassette cassetteField (fun _ _ _ => rfl) _ _).trans ?_
  refine congrArg (fun c => some { d with cassette := c }) ?_
  refine CassetteInfo.ext (valueIsTrue_boolText _) ?_ ?_
  · cases c with
    | mk enabled pulldown button => cases pulldown <;> rfl
  · cases c with
    | mk enabled pulldown button => cases button <;> rfl

theorem readBlock_cpm (c : CpmInfo) :
    readBlock d (cpmBlock c) = some { d with cpm := { c with ccp := trim c.ccp } } := by
  refine (foldlM_field .cpm cpmField (fun _ _ _ => rfl) _ _).trans ?_
  refine congrArg (fun c => some { d with cpm := c }) ?_
  exact CpmInfo.ext (valueIsTrue_boolText _) rfl

theorem readBlock_deviceEnable (e : DeviceEnableInfo) :
    readBlock d (deviceEnableBlock e) = some { d with denable := e } := by
  refine (foldlM_field .denable deviceEnableField (fun _ _ _ => rfl) _ _).trans ?_
  refine congrArg (fun e => some { d with denable := e }) ?_
  refine DeviceEnableInfo.ext ?_ (atoi_boolText _)
  have flags (old : Fin 8 → Bool) : e.device =
      (List.finRange 8).foldl (fun flags i => Function.update flags i
        (decide (atoi (trim (boolText (e.device i))) ≠ 0))) old := by
    simp only [atoi_boolText, foldl_update, List.mem_finRange, if_true]
  exact (flags d.denable.device).symm

/-- Ports that the reader accepts. -/
theorem portOf_decimal {port : Int} (low : 0 < port) (high : port ≤ 65535) :
    portOf (decimal port) = port := by
  have fits : isInt32 port = true := by
    simp only [isInt32, Bool.and_eq_true, decide_eq_true_eq]
    omega
  rw [portOf, atoi_decimal fits, if_neg (by omega)]

theorem readBlock_netsio (n : NetsioInfo) :
    readBlock d (netsioBlock n) =
      some { d with netsio := { n with host := trim n.host, port := portOf (decimal n.port) } } := by
  refine (foldlM_field .netsio netsioField (fun _ _ _ => rfl) _ _).trans ?_
  refine congrArg (fun n => some { d with netsio := n }) ?_
  exact NetsioInfo.ext (valueIsTrue_boolText _) rfl (congrArg portOf (trim_decimal _))

theorem readBlock_boip (b : BoipInfo) :
    readBlock d (boipBlock b) =
      some { d with boip := { b with host := trim b.host, port := portOf (decimal b.port) } } := by
  refine (foldlM_field .boip boipField (fun _ _ _ => rfl) _ _).trans ?_
  refine congrArg (fun b => some { d with boip := b }) ?_
  exact BoipInfo.ext (valueIsTrue_boolText _) rfl (congrArg portOf (trim_decimal _))

end Blocks

/-! ## The whole file -/

/-- The disk slots before the tapes are read. -/
def reloadMounts (c d : FnConfig) : Fin MAX_MOUNT_SLOTS → MountInfo := fun i =>
  if i ∈ mountsSaved c.mountSlots then reloadMount (c.mountSlots i) else d.mountSlots i

attribute [local instance] neZero_slots

/-- What the file of `c` makes of `d`. -/
def reload (c d : FnConfig) : FnConfig :=
  { d with
    general := reloadGeneral c.general d.general
    serial := { c.serial with port := trim c.serial.port }
    wifi := reloadWifi c.wifi
    wifiStored := fun i =>
      if i ∈ wifiStoredSaved c.wifiStored then { reloadWifi (c.wifiStored i) with enabled := true }
      else d.wifiStored i
    bt := { c.bt with btDevname := trim c.bt.btDevname }
    network := { d.network with sntpserver := (trim c.network.sntpserver).take 39 }
    hostSlots := fun i =>
      if i ∈ hostsSaved c.hostSlots then reloadHost (c.hostSlots i) else d.hostSlots i
    mountSlots :=
      if 0 ∈ mountsSaved c.tapeSlots then
        Function.update (reloadMounts c d) 0 (reloadMount (c.tapeSlots 0))
      else reloadMounts c d
    printerSlots :=
      (printersSaved c.printerSlots).foldl
        (fun slots i => Function.update slots 0 (reloadPrinter (c.printerSlots i))) d.printerSlots
    tapeSlots :=
      if 0 ∈ mountsSaved c.tapeSlots then Function.update d.tapeSlots 0 {} else d.tapeSlots
    modem := c.modem
    phonebookSlots := fun i =>
      if i ∈ phonebookSaved c.phonebookSlots then reloadPhbook (c.phonebookSlots i)
      else d.phonebookSlots i
    cassette := c.cassette
    cpm := { c.cpm with ccp := trim c.cpm.ccp }
    denable := c.denable
    netsio := { c.netsio with host := trim c.netsio.host, port := portOf (decimal c.netsio.port) }
    boip := { c.boip with host := trim c.boip.host, port := portOf (decimal c.boip.port) } }

theorem mapM_some {α β : Type} (f : α → β) (l : List α) :
    l.mapM (fun a => some (f a)) = some (l.map f) :=
  List.mapM_pure

theorem foldlM_printers (printers : Fin MAX_PRINTER_SLOTS → PrinterInfo)
    (l : List (Fin MAX_PRINTER_SLOTS)) (d : FnConfig) :
    (l.map (printerBlock printers)).foldlM readBlock d =
      some { d with
        printerSlots := l.foldl
          (fun slots i => Function.update slots 0 (reloadPrinter (printers i))) d.printerSlots } := by
  induction l generalizing d with
  | nil => rfl
  | cons i l ih =>
      rw [List.map_cons, List.foldlM_cons, readBlock_printer, Option.bind_eq_bind,
        Option.bind_some, ih]
      rfl

theorem foldlM_tapes {tapes : Fin MAX_TAPE_SLOTS → MountInfo} {bs : List Block}
    (made : (mountsSaved tapes).mapM (mountBlock "Tape".toList tapes) = some bs) (d : FnConfig) :
    bs.foldlM readBlock d =
      some { d with
        tapeSlots := if 0 ∈ mountsSaved tapes then Function.update d.tapeSlots 0 {} else d.tapeSlots
        mountSlots :=
          if 0 ∈ mountsSaved tapes then Function.update d.mountSlots 0 (reloadMount (tapes 0))
          else d.mountSlots } := by
  by_cases used : 0 ≤ (tapes 0).hostSlot
  · have one : mountsSaved tapes = [0] := by
      simp [mountsSaved, List.finRange, used]
    rw [one, List.mapM_cons, List.mapM_nil] at made
    simp only [Option.bind_eq_bind, Option.bind_eq_some_iff] at made
    obtain ⟨b, hb, bs, hbs, made⟩ := made
    cases hbs
    cases made
    rw [one, List.foldlM_cons, readBlock_tape d hb]
    simp
  · have none : mountsSaved tapes = [] := by
      simp [mountsSaved, List.finRange, used]
    rw [none, List.mapM_nil] at made
    cases made
    rw [none]
    simp

theorem foldlM_blocks {c : FnConfig} {bs : List Block} (made : c.blocks = some bs)
    (fits : isInt32 c.bt.btBaud = true) (d : FnConfig) :
    bs.foldlM readBlock d = some (reload c d) := by
  simp only [blocks, Option.bind_eq_bind, Option.bind_eq_some_iff] at made
  obtain ⟨serial, hserial, hosts, hhosts, mounts, hmounts, tapes, htapes, made⟩ := made
  cases made
  have stored := foldlM_slots .wifiStored (fun i b d => readBlock_wifiStored d)
    (mapM_some (wifiStoredBlock c.wifiStored) (wifiStoredSaved c.wifiStored))
  have hosts' := foldlM_slots .hostSlots (fun i b d => readBlock_host d) hhosts
  have mounts' := foldlM_slots .mountSlots (fun i b d => readBlock_mount d) hmounts
  have phonebook := foldlM_slots .phonebookSlots (fun i b d => readBlock_phonebook d)
    (mapM_some (phonebookBlock c.phonebookSlots) (phonebookSaved c.phonebookSlots))
  simp only [List.foldlM_append, List.foldlM_cons, List.foldlM_nil, readBlock_general,
    readBlock_serial _ hserial, readBlock_wifi, stored, readBlock_bt _ c.bt fits,
    readBlock_network, hosts', mounts', foldlM_printers, foldlM_tapes htapes, readBlock_modem,
    phonebook, readBlock_cassette, readBlock_cpm, readBlock_deviceEnable, readBlock_netsio,
    readBlock_boip, Option.bind_eq_bind, Option.bind_some, Option.pure_def]
  rfl

end FujiNet.FnConfig
