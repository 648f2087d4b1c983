import FujiNet.Utils.Strings

/-!
# Names of eight and three characters

`util_crunch` shortens a file name: what is not a letter, a digit or a dot goes, the
last dot ends the base, a base of more than eight characters keeps six of them and a
checksum, and everything is put in capitals. A directory listing shows the crunched
name in two columns, cut at its first dot, and a name that the computer sends back is
crunched and compared with the crunched names of the directory. The extension is not
bounded, so the listing may cut it, and a name may come back that resolves to nothing.
-/

namespace FujiNet.Utils

def SPACE : UInt8 := 0x20
def DOT : UInt8 := 0x2E
def SLASH : UInt8 := 0x2F
def STAR : UInt8 := 0x2A

/-- `toupper` in the C locale. -/
def toupper (c : UInt8) : UInt8 := if 0x61 ≤ c ∧ c ≤ 0x7A then c - 0x20 else c

/-- The characters of `chars`: digits, letters and the dot. -/
def inChars (c : UInt8) : Bool :=
  (0x30 ≤ c && c ≤ 0x39) || (0x41 ≤ c && c ≤ 0x5A) || (0x61 ≤ c && c ≤ 0x7A) || c == DOT

/-- `util_checksum` of a text of ASCII characters. -/
def utilChecksum (chunk : List UInt8) : UInt8 :=
  UInt8.ofNat (chunk.foldl (fun chk c => (chk + c.toNat) / 256 + (chk + c.toNat) % 256) 0)

def hexDigit (n : Nat) : UInt8 := UInt8.ofNat (if n < 10 then 0x30 + n else 0x37 + n)

/-- `sprintf(cksum_txt, "%02X", cksum)`. -/
def cksumTxt (cksum : UInt8) : List UInt8 :=
  [hexDigit (cksum.toNat / 16), hexDigit (cksum.toNat % 16)]

/-- What the two `erase` calls of `util_crunch` leave. -/
def kept (filename : List UInt8) : List UInt8 := (filename.filter (· ≠ SPACE)).filter inChars

/-- The base of a crunched name; `base_pos` is 8 unless the last dot comes earlier. -/
def crunchBase (basenameLong : List UInt8) (basePos : Nat) : List UInt8 :=
  let basename := (basenameLong.take basePos).map toupper
  if basenameLong.length > 8 then
    basename.take (basename.length - 2) ++ cksumTxt (utilChecksum basenameLong)
  else basename

/-- `util_crunch`. -/
def utilCrunch (filename : List UInt8) : List UInt8 :=
  let filename := kept filename
  match findLast DOT filename with
  | some (basenameLong, ext) =>
    let basePos := if basenameLong.length > 8 then 8 else basenameLong.length
    crunchBase basenameLong basePos ++ (DOT :: ext).map toupper
  | none => crunchBase filename 8

/-- Three decimal digits, `sprintf(tmp, "%03d", sectors)`. -/
def threeDigits (n : Nat) : List UInt8 :=
  [UInt8.ofNat (0x30 + n / 100), UInt8.ofNat (0x30 + n / 10 % 10), UInt8.ofNat (0x30 + n % 10)]

def entrySectors (fileSize : Nat) : Nat :=
  if fileSize > 255744 then 999 else if fileSize / 256 = 0 then 1 else fileSize / 256

/-- `util_entry`; `replace` may throw. -/
def utilEntry (crunched : List UInt8) (fileSize : Nat) (isDir isLocked : Bool) :
    Option (List UInt8) := do
  let entry := List.replicate 17 SPACE
  let found := find [DOT] crunched
  let basename := (found.map Prod.fst).getD crunched
  let entry ← match found with
    | some (_, ext) => replaceAt entry 10 3 (ext.take 3)
    | none => some entry
  let entry ← if isDir then
      (replaceAt entry 10 3 [0x44, 0x49, 0x52]).bind (replaceAt · 0 1 [SLASH])
    else some entry
  let entry ← replaceAt entry 2 (if basename.length < 8 then basename.length else 8) basename
  let entry ← replaceAt entry 14 3 (threeDigits (entrySectors fileSize))
  if isLocked then replaceAt entry 0 1 [STAR] else some entry

/-- The name in the two columns of a listing line. -/
def shownName (line : List UInt8) : List UInt8 :=
  let base := ((line.drop 2).take 8).takeWhile (· ≠ SPACE)
  let ext := ((line.drop 10).take 3).takeWhile (· ≠ SPACE)
  if ext = [] then base else base ++ DOT :: ext

/-! ## What a crunched name looks like -/

theorem toupper_toupper (c : UInt8) : toupper (toupper c) = toupper c := by
  simp only [toupper]
  grind

theorem toupper_eq_dot_iff (c : UInt8) : toupper c = DOT ↔ c = DOT := by
  simp only [toupper, DOT]
  grind

theorem inChars_toupper {c : UInt8} (h : inChars c = true) : inChars (toupper c) = true := by
  simp only [inChars, toupper, DOT, Bool.or_eq_true, Bool.and_eq_true, decide_eq_true_eq,
    beq_iff_eq] at h ⊢
  grind

/-- A character that crunching leaves as it is. -/
def Upper (c : UInt8) : Prop := inChars c = true ∧ toupper c = c

theorem upper_toupper {c : UInt8} (h : inChars c = true) : Upper (toupper c) :=
  ⟨inChars_toupper h, toupper_toupper c⟩

theorem Upper.ne_space {c : UInt8} (h : Upper c) : c ≠ SPACE := by
  rintro rfl
  exact absurd h.1 (by decide)

theorem inChars_of_mem_kept {s : List UInt8} {c : UInt8} (h : c ∈ kept s) : inChars c = true :=
  (List.mem_filter.mp h).2

theorem kept_of_upper {s : List UInt8} (h : ∀ c ∈ s, Upper c) : kept s = s := by
  have spaces : s.filter (· ≠ SPACE) = s := by
    refine List.filter_eq_self.mpr fun c mem => ?_
    simpa using (h c mem).ne_space
  rw [kept, spaces]
  exact List.filter_eq_self.mpr fun c mem => (h c mem).1

theorem length_kept_le (s : List UInt8) : (kept s).length ≤ s.length :=
  (List.length_filter_le _ _).trans (List.length_filter_le _ _)

theorem hexDigit_upper {n : Nat} (h : n < 16) : Upper (hexDigit n) ∧ hexDigit n ≠ DOT := by
  have digits : ∀ n < 16, (inChars (hexDigit n) = true ∧ toupper (hexDigit n) = hexDigit n) ∧
      hexDigit n ≠ DOT := by decide
  exact digits n h

theorem cksumTxt_upper (cksum : UInt8) : ∀ c ∈ cksumTxt cksum, Upper c ∧ c ≠ DOT := by
  have low := hexDigit_upper (n := cksum.toNat % 16) (Nat.mod_lt _ (by decide))
  have high := hexDigit_upper (n := cksum.toNat / 16) (by have := cksum.toNat_lt; omega)
  simpa [cksumTxt] using ⟨high, low⟩

@[simp] theorem length_cksumTxt (cksum : UInt8) : (cksumTxt cksum).length = 2 := rfl

/-- The base in short: what fits, or six characters and the checksum. -/
theorem crunchBase_eight (L : List UInt8) : crunchBase L 8 =
    if L.length > 8 then (L.take 6).map toupper ++ cksumTxt (utilChecksum L)
    else L.map toupper := by
  rw [crunchBase]
  split_ifs with long
  · have eight : ((L.take 8).map toupper).length - 2 = 6 := by
      rw [List.length_map, List.length_take]
      omega
    simp only [eight]
    rw [← List.map_take, List.take_take]
    rfl
  · rw [List.take_of_length_le (Nat.le_of_not_lt long)]

theorem crunchBase_basePos (L : List UInt8) :
    crunchBase L (if L.length > 8 then 8 else L.length) = crunchBase L 8 := by
  split_ifs with long
  · rfl
  · rw [crunchBase_eight, if_neg long, crunchBase, if_neg long, List.take_length]

theorem length_crunchBase_le (L : List UInt8) :
    (crunchBase L 8).length ≤ 8 ∧ (crunchBase L 8).length ≤ L.length := by
  rw [crunchBase_eight]
  split_ifs with long
  · rw [List.length_append, List.length_map, List.length_take, length_cksumTxt]
    omega
  · rw [List.length_map]
    omega

theorem crunchBase_upper {L : List UInt8} (h : ∀ c ∈ L, inChars c = true) :
    ∀ c ∈ crunchBase L 8, Upper c := by
  intro c mem
  rw [crunchBase_eight] at mem
  split_ifs at mem with long
  · rcases List.mem_append.mp mem with front | cksum
    · obtain ⟨b, inL, rfl⟩ := List.mem_map.mp front
      exact upper_toupper (h b (List.mem_of_mem_take inL))
    · exact (cksumTxt_upper _ c cksum).1
  · obtain ⟨b, inL, rfl⟩ := List.mem_map.mp mem
    exact upper_toupper (h b inL)

theorem dot_notMem_map_toupper {s : List UInt8} (h : DOT ∉ s) : DOT ∉ s.map toupper := by
  intro mem
  obtain ⟨c, mem, same⟩ := List.mem_map.mp mem
  exact h ((toupper_eq_dot_iff c).mp same ▸ mem)

theorem dot_notMem_crunchBase {L : List UInt8} (h : DOT ∉ L) : DOT ∉ crunchBase L 8 := by
  rw [crunchBase_eight]
  split_ifs with long
  · intro mem
    rcases List.mem_append.mp mem with front | cksum
    · exact dot_notMem_map_toupper (fun mem => h (List.mem_of_mem_take mem)) front
    · exact (cksumTxt_upper _ _ cksum).2 rfl
  · exact dot_notMem_map_toupper h

theorem utilCrunch_of_dot {f basenameLong ext : List UInt8}
    (h : findLast DOT (kept f) = some (basenameLong, ext)) :
    utilCrunch f = crunchBase basenameLong 8 ++ DOT :: ext.map toupper := by
  simp only [utilCrunch, h, crunchBase_basePos]
  rfl

theorem utilCrunch_of_no_dot {f : List UInt8} (h : findLast DOT (kept f) = none) :
    utilCrunch f = crunchBase (kept f) 8 := by
  simp only [utilCrunch, h]

/-- Capitals, digits and dots, and at most eight of them in front of the last dot. -/
structure Crunched (s : List UInt8) : Prop where
  upper : ∀ c ∈ s, Upper c
  base : ∀ {before after}, findLast DOT s = some (before, after) → before.length ≤ 8
  whole : findLast DOT s = none → s.length ≤ 8

theorem crunched_utilCrunch (f : List UInt8) : Crunched (utilCrunch f) := by
  cases found : findLast DOT (kept f) with
  | none =>
      rw [utilCrunch_of_no_dot found]
      have absent := dot_notMem_crunchBase (findLast_eq_none_iff.mp found)
      refine ⟨crunchBase_upper fun c => inChars_of_mem_kept, ?_, ?_⟩
      · intro before after dot
        rw [findLast_eq_none_iff.mpr absent] at dot
        exact absurd dot (by simp)
      · exact fun _ => (length_crunchBase_le _).1
  | some pair =>
      obtain ⟨basenameLong, ext⟩ := pair
      obtain ⟨split, absent⟩ := findLast_eq_some found
      have inName : ∀ c ∈ basenameLong ++ DOT :: ext, inChars c = true := by
        intro c mem
        exact inChars_of_mem_kept (split ▸ mem)
      rw [utilCrunch_of_dot found]
      have last : findLast DOT (crunchBase basenameLong 8 ++ DOT :: ext.map toupper) =
          some (crunchBase basenameLong 8, ext.map toupper) :=
        findLast_append (dot_notMem_map_toupper absent)
      refine ⟨?_, ?_, ?_⟩
      · intro c mem
        rcases List.mem_append.mp mem with base | rest
        · exact crunchBase_upper (fun c mem => inName c (List.mem_append_left _ mem)) c base
        · rcases List.mem_cons.mp rest with rfl | inExt
          · exact ⟨rfl, rfl⟩
          · obtain ⟨b, mem', rfl⟩ := List.mem_map.mp inExt
            exact upper_toupper (inName b (List.mem_append_right _ (List.mem_cons_of_mem _ mem')))
      · intro before after dot
        obtain ⟨rfl, -⟩ : crunchBase basenameLong 8 = before ∧ ext.map toupper = after := by
          rw [last] at dot
          simpa using dot
        exact (length_crunchBase_le _).1
      · intro none
        rw [last] at none
        exact absurd none (by simp)

theorem map_toupper_of_upper {s : List UInt8} (h : ∀ c ∈ s, Upper c) : s.map toupper = s := by
  calc s.map toupper = s.map id := List.map_congr_left fun c mem => (h c mem).2
    _ = s := List.map_id s

/-- Crunching a crunched name changes nothing. -/
theorem Crunched.utilCrunch_eq {s : List UInt8} (h : Crunched s) : utilCrunch s = s := by
  have whole := kept_of_upper h.upper
  have short : ∀ {L : List UInt8}, L.length ≤ 8 → (∀ c ∈ L, Upper c) → crunchBase L 8 = L := by
    intro L le upper
    rw [crunchBase_eight, if_neg (Nat.not_lt.mpr le), map_toupper_of_upper upper]
  cases found : findLast DOT s with
  | none =>
      rw [utilCrunch_of_no_dot (whole.symm ▸ found), whole, short (h.whole found) h.upper]
  | some pair =>
      obtain ⟨before, after⟩ := pair
      obtain ⟨rfl, -⟩ := findLast_eq_some found
      rw [utilCrunch_of_dot (by rw [whole, found]), short (h.base found), map_toupper_of_upper]
      · exact fun c mem => h.upper c (List.mem_append_right _ (List.mem_cons_of_mem _ mem))
      · exact fun c mem => h.upper c (List.mem_append_left _ mem)

theorem length_utilCrunch_le (f : List UInt8) : (utilCrunch f).length ≤ f.length := by
  refine Nat.le_trans ?_ (length_kept_le f)
  cases found : findLast DOT (kept f) with
  | none =>
      rw [utilCrunch_of_no_dot found]
      exact (length_crunchBase_le _).2
  | some pair =>
      obtain ⟨basenameLong, ext⟩ := pair
      rw [utilCrunch_of_dot found, (findLast_eq_some found).1]
      have := (length_crunchBase_le basenameLong).2
      simp only [List.length_append, List.length_cons, List.length_map]
      omega

/-! ## What the listing shows -/

/-- A line of a listing with the base `b` and the extension `e` in their columns. -/
def Line (b e line : List UInt8) : Prop :=
  ∃ lock behind, line = lock :: SPACE :: (b ++ List.replicate (8 - b.length) SPACE) ++
    (e ++ List.replicate (3 - e.length) SPACE) ++ behind

theorem takeWhile_column {b : List UInt8} (h : ∀ c ∈ b, Upper c) (n : Nat) :
    (b ++ List.replicate n SPACE).takeWhile (· ≠ SPACE) = b := by
  rw [List.takeWhile_append_of_pos fun c mem => by simpa using (h c mem).ne_space]
  cases n with
  | zero => simp
  | succ n => simp [List.replicate_succ]

theorem Line.shownName {b e line : List UInt8} (h : Line b e line) (inBase : b.length ≤ 8)
    (inExt : e.length ≤ 3) (upperBase : ∀ c ∈ b, Upper c) (upperExt : ∀ c ∈ e, Upper c) :
    shownName line = if e = [] then b else b ++ DOT :: e := by
  obtain ⟨lock, behind, rfl⟩ := h
  have base : (b ++ List.replicate (8 - b.length) SPACE).length = 8 := by
    rw [List.length_append, List.length_replicate]
    omega
  have ext : (e ++ List.replicate (3 - e.length) SPACE).length = 3 := by
    rw [List.length_append, List.length_replicate]
    omega
  have columns : (((lock :: SPACE :: (b ++ List.replicate (8 - b.length) SPACE) ++
      (e ++ List.replicate (3 - e.length) SPACE) ++ behind).drop 2).take 8 =
        b ++ List.replicate (8 - b.length) SPACE) ∧
      ((lock :: SPACE :: (b ++ List.replicate (8 - b.length) SPACE) ++
      (e ++ List.replicate (3 - e.length) SPACE) ++ behind).drop 10).take 3 =
        e ++ List.replicate (3 - e.length) SPACE := by
    constructor
    · simp only [List.cons_append, List.drop_succ_cons, List.drop_zero]
      rw [List.append_assoc]
      exact List.take_left' base
    · simp only [List.cons_append, List.drop_succ_cons]
      rw [List.append_assoc, List.drop_left' base]
      exact List.take_left' ext
  rw [Utils.shownName, columns.1, columns.2, takeWhile_column upperBase,
    takeWhile_column upperExt]

/-- The steps of `util_entry` behind the extension column: `m` spaces follow it. -/
theorem line_of_columns {b e : List UInt8} (inBase : b.length ≤ 8) (inExt : e.length ≤ 3)
    (fileSize : Nat) (isLocked : Bool) {m : Nat} (pad : 4 ≤ e.length + m) :
    ∃ line, ((replaceAt (List.replicate 10 SPACE ++ e ++ List.replicate m SPACE) 2
        (if b.length < 8 then b.length else 8) b).bind fun entry =>
      (replaceAt entry 14 3 (threeDigits (entrySectors fileSize))).bind fun entry =>
        if isLocked then replaceAt entry 0 1 [STAR] else some entry) = some line ∧
      Line b e line := by
  have whole : (if b.length < 8 then b.length else 8) = b.length := by
    split_ifs <;> omega
  have spaces : List.replicate 10 SPACE = [SPACE, SPACE] ++ (List.replicate b.length SPACE ++
      List.replicate (8 - b.length) SPACE) := by
    rw [← List.replicate_add, Nat.add_sub_cancel' inBase]
    rfl
  -- The column behind the extension is a space.
  have tail : List.replicate m SPACE = List.replicate (3 - e.length) SPACE ++
      SPACE :: List.replicate (m - (4 - e.length)) SPACE := by
    rw [← List.replicate_succ, ← List.replicate_add]
    congr 1
    omega
  have placed : replaceAt (List.replicate 10 SPACE ++ e ++ List.replicate m SPACE) 2
      (if b.length < 8 then b.length else 8) b =
        some (([SPACE, SPACE] ++ (b ++ List.replicate (8 - b.length) SPACE) ++
          (e ++ List.replicate (3 - e.length) SPACE) ++ [SPACE]) ++
            List.replicate (m - (4 - e.length)) SPACE) := by
    rw [whole, spaces, tail]
    simp only [List.append_assoc]
    rw [replaceAt_append [SPACE, SPACE] _ (show [SPACE, SPACE].length = 2 from rfl),
      List.drop_left' List.length_replicate]
    simp only [List.append_assoc, List.singleton_append]
  have width : ([SPACE, SPACE] ++ (b ++ List.replicate (8 - b.length) SPACE) ++
      (e ++ List.replicate (3 - e.length) SPACE) ++ [SPACE]).length = 14 := by
    simp only [List.length_append, List.length_replicate, List.length_cons, List.length_nil]
    omega
  rw [placed, Option.bind_some, replaceAt_append _ _ width, Option.bind_some]
  let behind := SPACE :: (threeDigits (entrySectors fileSize) ++
    (List.replicate (m - (4 - e.length)) SPACE).drop 3)
  cases isLocked with
  | false =>
      refine ⟨_, rfl, SPACE, behind, ?_⟩
      simp only [behind, List.append_assoc, List.cons_append, List.nil_append]
  | true =>
      refine ⟨STAR :: SPACE :: (b ++ List.replicate (8 - b.length) SPACE) ++
        (e ++ List.replicate (3 - e.length) SPACE) ++ behind, ?_, STAR, behind, rfl⟩
      simp [replaceAt, behind]

theorem Crunched.length_before_le {s b e : List UInt8} (h : Crunched s)
    (found : find [DOT] s = some (b, e)) : b.length ≤ 8 := by
  obtain ⟨rfl, absent⟩ := find_eq_some_iff.mp found
  cases last : findLast DOT (b ++ DOT :: e) with
  | none => exact absurd (by simp) (findLast_eq_none_iff.mp last)
  | some pair =>
      obtain ⟨before, after⟩ := pair
      have le := h.base last
      obtain ⟨same, -⟩ := findLast_eq_some last
      -- The first dot does not come behind the last one.
      by_contra longer
      refine absent ?_
      have shape : b = before ++ (DOT :: after).take (b.length - before.length) := by
        calc b = (b ++ DOT :: e).take b.length := (List.take_left' rfl).symm
          _ = (before ++ DOT :: after).take b.length := by rw [same]
          _ = _ := by rw [List.take_append, List.take_of_length_le (by omega)]
      obtain ⟨k, hk⟩ : ∃ k, b.length - before.length = k + 1 :=
        ⟨b.length - before.length - 1, by omega⟩
      rw [shape, hk, List.take_succ_cons]
      simp

/-- The line of a file shows the base and the first three characters of what follows the
first dot. -/
theorem utilEntry_line {s : List UInt8} (h : Crunched s) (fileSize : Nat) (isLocked : Bool) :
    ∃ line, utilEntry s fileSize false isLocked = some line ∧
      Line ((find [DOT] s).map Prod.fst |>.getD s) ((find [DOT] s).elim [] fun p => p.2.take 3)
        line := by
  cases found : find [DOT] s with
  | none =>
      have short : s.length ≤ 8 :=
        h.whole (findLast_eq_none_iff.mpr (find_eq_none_iff.mp found))
      obtain ⟨line, steps, shows⟩ :=
        line_of_columns short (e := []) (by simp) fileSize isLocked (m := 7) (by simp)
      refine ⟨line, ?_, shows⟩
      rw [← steps, utilEntry, found]
      rfl
  | some pair =>
      obtain ⟨b, e⟩ := pair
      have three : (e.take 3).length ≤ 3 := by
        rw [List.length_take]
        omega
      obtain ⟨line, steps, shows⟩ := line_of_columns (h.length_before_le found) three fileSize
        isLocked (m := 4) (by omega)
      refine ⟨line, ?_, shows⟩
      rw [← steps, utilEntry, found]
      have column : replaceAt (List.replicate 17 SPACE) 10 3 (e.take 3) =
          some (List.replicate 10 SPACE ++ e.take 3 ++ List.replicate 4 SPACE) := rfl
      simp only [column]
      rfl

/-- The name a listing shows is the crunched name unless the dot has nothing behind it or
more than three characters. -/
theorem utilCrunch_shownName_iff {s : List UInt8} (h : Crunched s) (fileSize : Nat)
    (isLocked : Bool) :
    ∃ line, utilEntry s fileSize false isLocked = some line ∧
      (utilCrunch (shownName line) = s ↔
        ∀ n ∈ (find [DOT] s).map fun p => p.2.length, 1 ≤ n ∧ n ≤ 3) := by
  obtain ⟨line, entry, shows⟩ := utilEntry_line h fileSize isLocked
  refine ⟨line, entry, ?_⟩
  cases found : find [DOT] s with
  | none =>
      rw [found] at shows
      have short : s.length ≤ 8 :=
        h.whole (findLast_eq_none_iff.mpr (find_eq_none_iff.mp found))
      have name := shows.shownName short (by simp) h.upper (by simp)
      rw [name]
      simp [h.utilCrunch_eq]
  | some pair =>
      obtain ⟨b, e⟩ := pair
      rw [found] at shows
      obtain ⟨split, -⟩ := find_eq_some_iff.mp found
      have three : (e.take 3).length ≤ 3 := by
        rw [List.length_take]
        omega
      have name : shownName line = if e.take 3 = [] then b else b ++ DOT :: e.take 3 :=
        shows.shownName (h.length_before_le found) three
          (fun c mem => h.upper c (split ▸ List.mem_append_left _ mem))
          (fun c mem => h.upper c (split ▸ List.mem_append_right _
            (List.mem_cons_of_mem _ (List.mem_of_mem_take mem))))
      have sizes : s.length = b.length + (e.length + 1) := by
        rw [split, List.length_append, List.length_cons]
      have shorter : ∀ {d : List UInt8}, d.length < s.length → utilCrunch d ≠ s := by
        intro d less same
        have := length_utilCrunch_le d
        rw [same] at this
        omega
      simp only [Option.map_some, Option.mem_some_iff, forall_eq']
      rw [name]
      by_cases none : e = []
      · subst none
        rw [if_pos List.take_nil]
        refine iff_of_false (shorter (by rw [sizes]; simp)) ?_
        simp
      · have some : 0 < e.length := List.length_pos_iff.mpr none
        rw [if_neg (by rw [List.take_eq_nil_iff]; simp [none])]
        by_cases fits : e.length ≤ 3
        · rw [List.take_of_length_le fits, ← split]
          exact iff_of_true h.utilCrunch_eq ⟨some, fits⟩
        · refine iff_of_false (shorter ?_) (fun both => fits both.2)
          rw [sizes, List.length_append, List.length_cons, List.length_take]
          omega

/-! ## The names that come back -/

/-- How many characters the listing has to show behind the first dot of the name `f`.
With a long base the dot is among its first six characters or it is the last dot. -/
def behindFirstDot (f : List UInt8) : Option Nat :=
  match find [DOT] (kept f), findLast DOT (kept f) with
  | some (front, back), some (basenameLong, ext) =>
    some (if basenameLong.length ≤ 8 then back.length
      else if front.length < 6 then 8 - front.length + ext.length else ext.length)
  | _, _ => none

/-- With a short base every character keeps its place. -/
theorem find_map_toupper (s : List UInt8) :
    ((find [DOT] (s.map toupper)).map fun p => p.2.length) =
      (find [DOT] s).map fun p => p.2.length := by
  cases found : find [DOT] s with
  | none =>
      have absent := dot_notMem_map_toupper (find_eq_none_iff.mp found)
      rw [find_eq_none_iff.mpr absent]
  | some pair =>
      obtain ⟨front, back⟩ := pair
      obtain ⟨rfl, absent⟩ := find_eq_some_iff.mp found
      rw [List.map_append, List.map_cons, show toupper DOT = DOT from rfl,
        find_append (dot_notMem_map_toupper absent)]
      simp

theorem length_behind_dot (f : List UInt8) :
    ((find [DOT] (utilCrunch f)).map fun p => p.2.length) = behindFirstDot f := by
  rw [behindFirstDot]
  cases last : findLast DOT (kept f) with
  | none =>
      have absent := findLast_eq_none_iff.mp last
      rw [utilCrunch_of_no_dot last, find_eq_none_iff.mpr (dot_notMem_crunchBase absent),
        find_eq_none_iff.mpr absent]
      rfl
  | some pair =>
      obtain ⟨L, ext⟩ := pair
      obtain ⟨split, -⟩ := findLast_eq_some last
      rw [utilCrunch_of_dot last, crunchBase_eight]
      cases first : find [DOT] (kept f) with
      | none => exact absurd (split ▸ by simp) (find_eq_none_iff.mp first)
      | some pair =>
          obtain ⟨front, back⟩ := pair
          obtain ⟨split', absent⟩ := find_eq_some_iff.mp first
          by_cases short : L.length ≤ 8
          · rw [if_neg (Nat.not_lt.mpr short)]
            have all : L.map toupper ++ DOT :: ext.map toupper = (kept f).map toupper := by
              rw [split, List.map_append, List.map_cons]
              rfl
            rw [all, find_map_toupper, first]
            simp only [Option.map_some, if_pos short]
          · rw [if_pos (Nat.lt_of_not_le short)]
            simp only [if_neg short]
            -- The six characters of the base that stay, cut at the first dot if it is there.
            have six : L.take 6 = (front ++ DOT :: back).take 6 := by
              rw [← split', split, List.take_append_of_le_length (by omega)]
            by_cases early : front.length < 6
            · obtain ⟨k, hk⟩ : ∃ k, 6 - front.length = k + 1 := ⟨5 - front.length, by omega⟩
              have cut : L.take 6 = front ++ DOT :: back.take k := by
                rw [six, List.take_append, List.take_of_length_le (by omega), hk,
                  List.take_succ_cons]
              have long : (back.take k).length = k := by
                have := congrArg List.length cut
                rw [List.length_take, List.length_append, List.length_cons] at this
                omega
              rw [if_pos early, cut, List.map_append, List.map_cons,
                show toupper DOT = DOT from rfl]
              simp only [List.append_assoc, List.cons_append]
              rw [find_append (dot_notMem_map_toupper absent)]
              simp only [Option.map_some, List.length_append, List.length_map, long,
                length_cksumTxt, List.length_cons, Option.some.injEq]
              omega
            · have none : DOT ∉ L.take 6 := by
                rw [six, List.take_append_of_le_length (by omega)]
                exact fun mem => absent (List.mem_of_mem_take mem)
              rw [if_neg early, find_append]
              · simp
              · intro mem
                rcases List.mem_append.mp mem with inBase | inSum
                · exact dot_notMem_map_toupper none inBase
                · exact (cksumTxt_upper _ _ inSum).2 rfl

/-- Whatever the name, its size and its lock, the name that the listing shows resolves
back to it exactly when what the listing has to show behind the first dot has one to
three characters. -/
theorem listing_resolves_iff (f : List UInt8) (fileSize : Nat) (isLocked : Bool) :
    ∃ line, utilEntry (utilCrunch f) fileSize false isLocked = some line ∧
      (utilCrunch (shownName line) = utilCrunch f ↔
        ∀ n ∈ behindFirstDot f, 1 ≤ n ∧ n ≤ 3) := by
  have iff := utilCrunch_shownName_iff (crunched_utilCrunch f) fileSize isLocked
  rwa [length_behind_dot] at iff

/-- A page is shown with three characters of its extension, and that name is not found. -/
theorem html_not_resolved :
    ∃ line, utilEntry (utilCrunch (ascii "page.html")) 300 false false = some line ∧
      shownName line = ascii "PAGE.HTM" ∧
      utilCrunch (shownName line) ≠ utilCrunch (ascii "page.html") := by
  refine ⟨ascii "  PAGE    HTM 001", ?_, ?_, ?_⟩ <;> decide

end FujiNet.Utils
