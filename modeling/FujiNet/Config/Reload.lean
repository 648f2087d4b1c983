import FujiNet.Config.Save
import FujiNet.Config.Sections

/-!
# Reading what was written

The blocks of a file come back as sections with the same lines. Each kind of section
has one component of the configuration to itself, so that reading a block is a change
of that component; the tape slots are the exception.
-/

namespace FujiNet.FnConfig

open Text Lines

/-! ## Lines of a block -/

/-- A name that is found again in front of its value. -/
def goodName (name : Str) : Bool :=
  1 < name.length && !name.contains '=' && trim name = name && name.head? ≠ some '[' &&
    !name.contains '\r' && !name.contains '\n' && !name.contains '\x00'

theorem splitNameValue_fieldLine {f : Str × Str} (good : goodName f.1 = true) :
    splitNameValue (Block.fieldLine f) = some (f.1, trim f.2) := by
  simp only [goodName, Bool.and_eq_true, decide_eq_true_eq, Bool.not_eq_true',
    List.contains_eq_mem, decide_eq_false_iff_not] at good
  obtain ⟨⟨⟨⟨⟨⟨long, free⟩, trimmed⟩, -⟩, -⟩, -⟩, -⟩ := good
  have none : f.1.findIdx? (· = '=') = none := by
    rw [List.findIdx?_eq_none_iff]
    intro c mem
    have ne : c ≠ '=' := fun e => free (e ▸ mem)
    simpa using ne
  have position : (Block.fieldLine f).findIdx? (· = '=') = some f.1.length := by
    simp [Block.fieldLine, List.findIdx?_append, none, List.findIdx?_cons]
  rw [splitNameValue, position]
  simp only [if_pos long, Block.fieldLine, List.take_left]
  rw [trimmed, ← List.drop_drop, List.drop_left, List.drop_one, List.tail_cons]

theorem opens_fieldLine {f : Str × Str} (good : goodName f.1 = true) :
    opens (Block.fieldLine f) = false := by
  simp only [goodName, Bool.and_eq_true, decide_eq_true_eq, Bool.not_eq_true'] at good
  obtain ⟨⟨⟨⟨⟨⟨long, -⟩, trimmed⟩, bracket⟩, -⟩, -⟩, -⟩ := good
  obtain ⟨name, value⟩ := f
  cases name with
  | nil => simp at long
  | cons c name =>
      have visible : isSpace c = false := (trim_eq_self_iff.mp trimmed).1 c rfl
      have ne : c ≠ ' ' ∧ c ≠ '\t' := by
        simp only [isSpace, Bool.or_eq_false_iff, decide_eq_false_iff_not] at visible
        exact ⟨visible.1.1.1.1.1, visible.1.1.1.1.2⟩
      simp only [List.head?_cons, ne_eq, Option.some.injEq] at bracket
      simp [opens, Block.fieldLine, ne.1, ne.2, bracket]

theorem Section.onLine_fieldLine (sec : Section) (c : FnConfig) {f : Str × Str}
    (good : goodName f.1 = true) :
    sec.onLine c (Block.fieldLine f) = sec.field f.1 (trim f.2) (sec.atLine c) := by
  rw [onLine, splitNameValue_fieldLine good]

@[simp] theorem modifySlot_id {n : Nat} {α : Type} (slots : Fin n → α) (i : Fin n) {f : α → α}
    (h : f (slots i) = slots i) : modifySlot slots i f = slots := by
  rw [modifySlot, h, Function.update_eq_self]

/-- A blank line has no name. -/
theorem Section.onLine_nil (sec : Section) (c : FnConfig) :
    sec.onLine c [] = some (sec.atLine c) := by
  have split : splitNameValue [] = some ([], []) := by decide
  rw [onLine, split]
  cases sec with
  | wifiStored i => simp [field, modifySlot_id _ _ (show wifiStoredField [] [] _ = _ from rfl)]
  | host i => simp [field, atLine, modifySlot_id _ _ (show hostField [] [] _ = _ from rfl)]
  | mount i => simp [field, atLine, modifySlot_id _ _ (show mountField [] [] _ = _ from rfl)]
  | printer i => simp [field, atLine, modifySlot_id _ _ (show printerField [] [] _ = _ from rfl)]
  | tape i => simp [field, atLine, modifySlot_id _ _ (show mountField [] [] _ = _ from rfl)]
  | phonebook i =>
      simp [field, atLine, modifySlot_id _ _ (show phonebookField [] [] _ = _ from rfl)]
  | _ => rfl

theorem WifiInfo.with_enabled {w : WifiInfo} (h : w.enabled = true) :
    { w with enabled := true } = w := by
  cases w
  cases h
  rfl

/-- A stored WiFi entry stays enabled. -/
theorem Section.atLine_of_field {sec : Section} {name value : Str} {c d : FnConfig}
    (h : sec.field name value (sec.atLine c) = some d) : sec.atLine d = d := by
  cases sec with
  | wifiStored i =>
      cases h
      have enabled (w : WifiInfo) :
          (wifiStoredField name value { w with enabled := true }).enabled = true := by
        unfold wifiStoredField
        split
        · rfl
        · split <;> rfl
      simp only [atLine, modifySlot, Function.update_self, Function.update_idem]
      congr 1
      rw [Function.update_eq_iff]
      refine ⟨?_, fun j ne => ?_⟩
      · rw [Function.update_self]
        exact WifiInfo.with_enabled (enabled _)
      · rw [Function.update_of_ne ne]
  | _ => rfl

/-! ## Blocks as sections -/

/-- A block whose title is known and whose lines stay whole. -/
structure Block.Readable (b : Block) : Prop where
  known : ∃ sec, findSectionInLine b.header = some sec
  title : Clean b.header
  names : ∀ f ∈ b.fields, goodName f.1 = true
  values : ∀ f ∈ b.fields, Clean f.2
  written : b.fields ≠ []

/-- What the reader of a block does. -/
def readBlock (d : FnConfig) (b : Block) : Option FnConfig :=
  match findSectionInLine b.header with
  | some sec => b.fields.foldlM (fun c f => sec.field f.1 (trim f.2) (sec.atLine c)) (sec.reset d)
  | none => some d

theorem foldlM_fieldLine (sec : Section) {fields : List (Str × Str)}
    (names : ∀ f ∈ fields, goodName f.1 = true) (c : FnConfig) :
    (fields.map Block.fieldLine).foldlM sec.onLine c =
      fields.foldlM (fun c f => sec.field f.1 (trim f.2) (sec.atLine c)) c := by
  induction fields generalizing c with
  | nil => rfl
  | cons f fields ih =>
      rw [List.forall_mem_cons] at names
      rw [List.map_cons, List.foldlM_cons, List.foldlM_cons, sec.onLine_fieldLine c names.1]
      congr 1
      funext c
      exact ih names.2 c

theorem atLine_of_foldlM {sec : Section} {fields : List (Str × Str)} (written : fields ≠ [])
    {c d : FnConfig}
    (h : fields.foldlM (fun c f => sec.field f.1 (trim f.2) (sec.atLine c)) c = some d) :
    sec.atLine d = d := by
  induction fields generalizing c with
  | nil => exact absurd rfl written
  | cons f fields ih =>
      rw [List.foldlM_cons, Option.bind_eq_bind, Option.bind_eq_some_iff] at h
      obtain ⟨c', first, rest⟩ := h
      cases fields with
      | nil =>
          cases rest
          exact sec.atLine_of_field first
      | cons f' fields => exact ih (List.cons_ne_nil _ _) rest

/-- The lines of a block, with or without the blank line behind it. -/
theorem readSection_block {b : Block} (readable : b.Readable) {sec : Section}
    (known : findSectionInLine b.header = some sec) (d : FnConfig) :
    readSection d (sec, b.fields.map Block.fieldLine) = readBlock d b ∧
      readSection d (sec, b.fields.map Block.fieldLine ++ [[]]) = readBlock d b := by
  have lines : readSection d (sec, b.fields.map Block.fieldLine) = readBlock d b := by
    simp only [readSection, readBlock, known]
    exact foldlM_fieldLine sec readable.names _
  refine ⟨lines, ?_⟩
  rw [← lines]
  simp only [readSection, List.foldlM_append]
  rw [foldlM_fieldLine sec readable.names]
  cases h : b.fields.foldlM (fun c f => sec.field f.1 (trim f.2) (sec.atLine c)) (sec.reset d) with
  | none => rfl
  | some d' => simp [sec.onLine_nil, atLine_of_foldlM readable.written h]

theorem opens_header (b : Block) : opens b.header = true := by
  simp [opens, Block.header]

theorem fileLines_cons (b : Block) (bs : List Block) :
    ∃ rest, fileLines (b :: bs) = b.header :: rest := by
  cases bs with
  | nil => exact ⟨_, rfl⟩
  | cons b' bs => exact ⟨_, rfl⟩

theorem Block.Readable.clean_lines {b : Block} (h : b.Readable) : ∀ line ∈ b.lines, Clean line := by
  rw [Block.lines, List.forall_mem_cons]
  refine ⟨h.title, fun line mem => ?_⟩
  obtain ⟨f, hf, rfl⟩ := List.mem_map.mp mem
  have good := h.names f hf
  simp only [goodName, Bool.and_eq_true, Bool.not_eq_true', List.contains_eq_mem,
    decide_eq_false_iff_not] at good
  have value := h.values f hf
  simp only [Clean, Block.fieldLine, List.mem_append, List.mem_cons, not_or]
  exact ⟨⟨good.1.1.2, by decide, value.1⟩, ⟨good.1.2, by decide, value.2⟩⟩

theorem clean_fileLines {bs : List Block} (readable : ∀ b ∈ bs, b.Readable) :
    ∀ line ∈ fileLines bs, Clean line := by
  induction bs using fileLines.induct with
  | case1 => simp [fileLines]
  | case2 b => exact (readable b (by simp)).clean_lines
  | case3 b b' bs ih =>
      rw [List.forall_mem_cons] at readable
      intro line mem
      rw [fileLines, List.mem_append, List.mem_cons] at mem
      rcases mem with mem | rfl | mem
      · exact readable.1.clean_lines line mem
      · simp [Clean]
      · exact ih readable.2 line mem

/-- Reading a file block by block. -/
theorem foldlM_group_fileLines {bs : List Block} (readable : ∀ b ∈ bs, b.Readable) (d : FnConfig) :
    (group none (fileLines bs)).foldlM readSection d = bs.foldlM readBlock d := by
  induction bs using fileLines.induct generalizing d with
  | case1 => rfl
  | case2 b =>
      have h := readable b (by simp)
      obtain ⟨sec, known⟩ := h.known
      have closed : ∀ line ∈ b.fields.map Block.fieldLine, (!opens line) = true := by
        intro line mem
        obtain ⟨f, hf, rfl⟩ := List.mem_map.mp mem
        simp [opens_fieldLine (h.names f hf)]
      have only : group none (fileLines [b]) = [(sec, b.fields.map Block.fieldLine)] := by
        rw [fileLines, Block.lines, group]
        simp only [Option.isSome_none, Bool.false_and, Bool.false_eq_true, if_false,
          Option.toList_none, List.nil_append, known, Option.map_some, group_some]
        rw [List.takeWhile_eq_self_iff.mpr closed, List.dropWhile_eq_nil_iff.mpr closed]
        rfl
      rw [only, List.foldlM_cons, List.foldlM_cons, (readSection_block h known d).1]
      rfl
  | case3 b b' bs ih =>
      rw [List.forall_mem_cons] at readable
      have h := readable.1
      obtain ⟨sec, known⟩ := h.known
      obtain ⟨rest, next⟩ := fileLines_cons b' bs
      have closed : ∀ line ∈ b.fields.map Block.fieldLine ++ [[]], (!opens line) = true := by
        intro line mem
        rcases List.mem_append.mp mem with mem | mem
        · obtain ⟨f, hf, rfl⟩ := List.mem_map.mp mem
          simp [opens_fieldLine (h.names f hf)]
        · rw [List.mem_singleton.mp mem]
          rfl
      have first : group none (fileLines (b :: b' :: bs)) =
          (sec, b.fields.map Block.fieldLine ++ [[]]) :: group none (fileLines (b' :: bs)) := by
        have lines : fileLines (b :: b' :: bs) =
            b.header :: ((b.fields.map Block.fieldLine ++ [[]]) ++ b'.header :: rest) := by
          simp [fileLines, Block.lines, ← next]
        rw [lines, next, group]
        simp only [Option.isSome_none, Bool.false_and, Bool.false_eq_true, if_false,
          Option.toList_none, List.nil_append, known, Option.map_some, group_some]
        rw [List.takeWhile_append_of_pos closed, List.dropWhile_append_of_pos closed,
          List.takeWhile_cons_of_neg (by simp [opens_header]),
          List.dropWhile_cons_of_neg (by simp [opens_header]), List.append_nil]
      rw [first, List.foldlM_cons, List.foldlM_cons, (readSection_block h known d).2]
      congr 1
      funext d
      exact ih readable.2 d

/-! ## Components -/

/-- A part of the configuration that can be read and replaced on its own. -/
structure Component (α : Type) where
  get : FnConfig → α
  set : FnConfig → α → FnConfig
  get_set : ∀ c a, get (set c a) = a
  set_set : ∀ c a b, set (set c a) b = set c b
  set_get : ∀ c, set c (get c) = c

/-- One slot of a component with several. -/
def Component.slot {n : Nat} {α : Type} (slots : Component (Fin n → α)) (i : Fin n) :
    Component α where
  get c := slots.get c i
  set c a := slots.set c (Function.update (slots.get c) i a)
  get_set c a := by rw [slots.get_set, Function.update_self]
  set_set c a b := by rw [slots.get_set, slots.set_set, Function.update_idem]
  set_get c := by rw [Function.update_eq_self, slots.set_get]

/-- The fields of a block, one after the other. -/
def readFields {α : Type} (step : Str → Str → α → α) (fields : List (Str × Str)) (a : α) : α :=
  fields.foldl (fun a f => step f.1 (trim f.2) a) a

/-- A reader that changes one component. -/
theorem foldlM_field {α : Type} (part : Component α) {sec : Section} (step : Str → Str → α → α)
    (h : ∀ name value c, sec.field name value (sec.atLine c) =
      some (part.set c (step name value (part.get c)))) (fields : List (Str × Str))
    (d : FnConfig) :
    fields.foldlM (fun c f => sec.field f.1 (trim f.2) (sec.atLine c)) d =
      some (part.set d (readFields step fields (part.get d))) := by
  induction fields generalizing d with
  | nil => exact congrArg some (part.set_get d).symm
  | cons f fields ih =>
      rw [List.foldlM_cons, h, Option.bind_eq_bind, Option.bind_some, ih, part.get_set,
        part.set_set]
      rfl

/-- Slots that are replaced one after the other. -/
theorem foldl_update {n : Nat} {α : Type} (value slots : Fin n → α) (l : List (Fin n)) :
    l.foldl (fun slots i => Function.update slots i (value i)) slots =
      fun i => if i ∈ l then value i else slots i := by
  induction l generalizing slots with
  | nil => simp
  | cons i l ih =>
      rw [List.foldl_cons, ih]
      funext j
      by_cases same : j = i
      · subst same
        simp
      · simp [same]

/-- Blocks that each replace the slot of their own number. -/
theorem foldlM_slots {n : Nat} {α : Type} (slots : Component (Fin n → α))
    {block : Fin n → Option Block} {value : Fin n → α}
    (h : ∀ i b d, block i = some b → readBlock d b = some ((slots.slot i).set d (value i)))
    {l : List (Fin n)} {bs : List Block} (made : l.mapM block = some bs) (d : FnConfig) :
    bs.foldlM readBlock d =
      some (slots.set d fun i => if i ∈ l then value i else slots.get d i) := by
  rw [← foldl_update]
  induction l generalizing bs d with
  | nil =>
      cases made
      exact congrArg some (slots.set_get d).symm
  | cons i l ih =>
      simp only [List.mapM_cons, Option.bind_eq_bind, Option.bind_eq_some_iff] at made
      obtain ⟨b, hb, bs, hbs, made⟩ := made
      cases made
      rw [List.foldlM_cons, h i b d hb, Option.bind_eq_bind, Option.bind_some, ih hbs]
      simp only [Component.slot, slots.get_set, slots.set_set, List.foldl_cons]

namespace Component

def general : Component GeneralInfo :=
  ⟨(·.general), fun c a => { c with general := a }, fun _ _ => rfl, fun _ _ _ => rfl, fun _ => rfl⟩

def serial : Component SerialInfo :=
  ⟨(·.serial), fun c a => { c with serial := a }, fun _ _ => rfl, fun _ _ _ => rfl, fun _ => rfl⟩

def wifi : Component WifiInfo :=
  ⟨(·.wifi), fun c a => { c with wifi := a }, fun _ _ => rfl, fun _ _ _ => rfl, fun _ => rfl⟩

def wifiStored : Component (Fin MAX_WIFI_STORED → WifiInfo) :=
  ⟨(·.wifiStored), fun c a => { c with wifiStored := a }, fun _ _ => rfl, fun _ _ _ => rfl,
    fun _ => rfl⟩

def network : Component NetworkInfo :=
  ⟨(·.network), fun c a => { c with network := a }, fun _ _ => rfl, fun _ _ _ => rfl, fun _ => rfl⟩

def hostSlots : Component (Fin MAX_HOST_SLOTS → HostInfo) :=
  ⟨(·.hostSlots), fun c a => { c with hostSlots := a }, fun _ _ => rfl, fun _ _ _ => rfl,
    fun _ => rfl⟩

def mountSlots : Component (Fin MAX_MOUNT_SLOTS → MountInfo) :=
  ⟨(·.mountSlots), fun c a => { c with mountSlots := a }, fun _ _ => rfl, fun _ _ _ => rfl,
    fun _ => rfl⟩

def printerSlots : Component (Fin MAX_PRINTER_SLOTS → PrinterInfo) :=
  ⟨(·.printerSlots), fun c a => { c with printerSlots := a }, fun _ _ => rfl, fun _ _ _ => rfl,
    fun _ => rfl⟩

def modem : Component ModemInfo :=
  ⟨(·.modem), fun c a => { c with modem := a }, fun _ _ => rfl, fun _ _ _ => rfl, fun _ => rfl⟩

def phonebookSlots : Component (Fin MAX_PB_SLOTS → PhbookInfo) :=
  ⟨(·.phonebookSlots), fun c a => { c with phonebookSlots := a }, fun _ _ => rfl,
    fun _ _ _ => rfl, fun _ => rfl⟩

def cassette : Component CassetteInfo :=
  ⟨(·.cassette), fun c a => { c with cassette := a }, fun _ _ => rfl, fun _ _ _ => rfl,
    fun _ => rfl⟩

def cpm : Component CpmInfo :=
  ⟨(·.cpm), fun c a => { c with cpm := a }, fun _ _ => rfl, fun _ _ _ => rfl, fun _ => rfl⟩

def denable : Component DeviceEnableInfo :=
  ⟨(·.denable), fun c a => { c with denable := a }, fun _ _ => rfl, fun _ _ _ => rfl, fun _ => rfl⟩

def netsio : Component NetsioInfo :=
  ⟨(·.netsio), fun c a => { c with netsio := a }, fun _ _ => rfl, fun _ _ _ => rfl, fun _ => rfl⟩

def boip : Component BoipInfo :=
  ⟨(·.boip), fun c a => { c with boip := a }, fun _ _ => rfl, fun _ _ _ => rfl, fun _ => rfl⟩

end Component

end FujiNet.FnConfig
