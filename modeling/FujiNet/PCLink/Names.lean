import Mathlib.Data.List.TakeWhile
import FujiNet.Utils.Crunch

/-!
# DOS names of host files

A host file is offered to the computer if its name passes `validate_dos_name`. In a
directory the name stands in eight and three columns padded with spaces: `ugefina`
packs it and `uexpand` unpacks it. A space ends a name for all three functions, so a
host name may pass on the strength of what stands in front of a space, and packing then
loses the rest.
-/

namespace FujiNet.PCLink

open Utils

/-- `tolower` in the C locale. -/
def tolower (c : UInt8) : UInt8 := if 0x41 ≤ c ∧ c ≤ 0x5A then c + 0x20 else c

/-- The case in which names are kept on the host. -/
def hostCase (upperDir : Bool) (c : UInt8) : UInt8 := if upperDir then toupper c else tolower c

/-- `dos_2_allowed`. -/
def dos2Allowed (upperDir : Bool) (c : UInt8) : Bool :=
  (if upperDir then 0x41 ≤ c && c ≤ 0x5A else 0x61 ≤ c && c ≤ 0x7A) ||
    (0x30 ≤ c && c ≤ 0x39) || c == 0x5F || c == 0x40

/-- `dos_2_term`. -/
def dos2Term (c : UInt8) : Bool := c == 0 || c == SPACE

/-- The loop of `validate_fn` from the position `x` on, with at most `len` passes left. The
end of the list is the terminator of the C string. -/
def validateFnFrom (upperDir : Bool) (x : Nat) : Nat → List UInt8 → Bool
  | 0, _ => true
  | _ + 1, [] => x != 0
  | len + 1, c :: name =>
    if dos2Term c then x != 0
    else if c = DOT then true
    else if !dos2Allowed upperDir c then false
    else validateFnFrom upperDir (x + 1) len name

/-- `validate_fn`. -/
def validateFn (upperDir : Bool) (name : List UInt8) (len : Nat) : Bool :=
  validateFnFrom upperDir 0 len name

/-- `validate_dos_name`: whether the name is refused. -/
def validateDosName (upperDir : Bool) (fname : List UInt8) : Bool :=
  match find [DOT] fname with
  | none => fname.length > 8 || !validateFn upperDir fname 8
  | some (front, ext) =>
    let dd := ext.length + 1
    dd > 4 || front.length > 8 || (front.length = 0 && dd = 1) ||
      (dd = 2 && ext[0]? = some DOT) ||
      (dd = 3 && (ext[0]? = some DOT || ext[1]? = some DOT)) ||
      (dd = 4 && (ext[0]? = some DOT || ext[1]? = some DOT || ext[2]? = some DOT)) ||
      !validateFn upperDir fname 8 || !validateFn upperDir ext 3

/-- A column of `n` characters. -/
def column (n : Nat) (text : List UInt8) : List UInt8 :=
  text ++ List.replicate (n - text.length) SPACE

/-- `ugefina`: the eleven bytes of a directory entry. -/
def ugefina (src : List UInt8) : List UInt8 :=
  column 8 (((src.takeWhile fun c => c ≠ DOT && !dos2Term c).take 8).map toupper) ++
    column 3 ((((find [DOT] src).elim [] Prod.snd).take 3).map toupper)

/-- `uexpand`. -/
def uexpand (upperDir : Bool) (rawname : List UInt8) : List UInt8 :=
  let base := (rawname.take 8).takeWhile (!dos2Term ·)
  let ext := ((rawname.drop 8).take 3).takeWhile (!dos2Term ·)
  base.map (hostCase upperDir) ++ if ext = [] then [] else DOT :: ext.map (hostCase upperDir)

/-! ## Packing and unpacking -/

theorem takeWhile_term_column {n : Nat} {text : List UInt8} (h : ∀ c ∈ text, dos2Term c = false) :
    (column n text).takeWhile (!dos2Term ·) = text := by
  rw [column, List.takeWhile_append_of_pos fun c mem => by simpa using h c mem]
  cases n - text.length with
  | zero => simp
  | succ k => simp [List.replicate_succ, dos2Term]

theorem length_column {n : Nat} {text : List UInt8} (h : text.length ≤ n) :
    (column n text).length = n := by
  rw [column, List.length_append, List.length_replicate]
  omega

/-- Unpacking what was packed, for a base and an extension without terminators. -/
theorem uexpand_columns (upperDir : Bool) {base ext : List UInt8} (inBase : base.length ≤ 8)
    (inExt : ext.length ≤ 3) (plainBase : ∀ c ∈ base, dos2Term c = false)
    (plainExt : ∀ c ∈ ext, dos2Term c = false) :
    uexpand upperDir (column 8 base ++ column 3 ext) =
      base.map (hostCase upperDir) ++
        if ext = [] then [] else DOT :: ext.map (hostCase upperDir) := by
  have front : (column 8 base ++ column 3 ext).take 8 = column 8 base :=
    List.take_left' (length_column inBase)
  have back : ((column 8 base ++ column 3 ext).drop 8).take 3 = column 3 ext := by
    rw [List.drop_left' (length_column inBase)]
    exact List.take_of_length_le (Nat.le_of_eq (length_column inExt))
  simp only [uexpand, front, back, takeWhile_term_column plainBase, takeWhile_term_column plainExt]

theorem hostCase_ne_space (upperDir : Bool) {c : UInt8} (h : dos2Term c = false) :
    hostCase upperDir c ≠ SPACE := by
  simp only [dos2Term, Bool.or_eq_false_iff, beq_eq_false_iff_ne, hostCase, toupper, tolower,
    SPACE] at h ⊢
  cases upperDir <;> grind

/-- What is unpacked has no space in it. -/
theorem space_notMem_uexpand (upperDir : Bool) (rawname : List UInt8) :
    SPACE ∉ uexpand upperDir rawname := by
  have plain : ∀ {text : List UInt8}, SPACE ∉ (text.takeWhile (!dos2Term ·)).map
      (hostCase upperDir) := by
    intro text mem
    obtain ⟨c, inText, same⟩ := List.mem_map.mp mem
    have term : dos2Term c = false := by simpa using List.mem_takeWhile_imp inText
    exact hostCase_ne_space upperDir term same
  intro mem
  rcases List.mem_append.mp mem with base | ext
  · exact plain base
  · split_ifs at ext with none
    · exact List.not_mem_nil ext
    · rcases List.mem_cons.mp ext with dot | ext
      · exact absurd dot (by decide)
      · exact plain ext

/-- An allowed character survives the change to capitals and back. -/
theorem hostCase_toupper (upperDir : Bool) {c : UInt8} (h : dos2Allowed upperDir c = true) :
    hostCase upperDir (toupper c) = c ∧ dos2Term (toupper c) = false := by
  cases upperDir <;>
    simp [dos2Allowed, hostCase, toupper, tolower, dos2Term, SPACE] at h ⊢ <;> grind

/-! ## Accepted names -/

/-- A name without a terminator passes only if its characters up to the dot are allowed. -/
theorem allowed_of_validateFnFrom (upperDir : Bool) {x len : Nat} {front r : List UInt8}
    (fits : front.length ≤ len) (plain : ∀ c ∈ front, dos2Term c = false) (noDot : DOT ∉ front)
    (valid : validateFnFrom upperDir x len (front ++ r) = true) :
    ∀ c ∈ front, dos2Allowed upperDir c = true := by
  induction front generalizing x len with
  | nil => exact fun c mem => absurd mem List.not_mem_nil
  | cons c front ih =>
      obtain ⟨len, rfl⟩ : ∃ k, len = k + 1 := ⟨len - 1, by simp at fits; omega⟩
      have term : ¬ dos2Term c = true := by simp [plain c List.mem_cons_self]
      have dot : c ≠ DOT := fun same => noDot (same ▸ List.mem_cons_self)
      rw [List.cons_append, validateFnFrom, if_neg term, if_neg dot] at valid
      split_ifs at valid with refused
      have allowed : dos2Allowed upperDir c = true := by simpa using refused
      intro b mem
      rcases List.mem_cons.mp mem with rfl | later
      · exact allowed
      · exact ih (by simpa using fits) (fun b mem => plain b (List.mem_cons_of_mem _ mem))
          (fun mem => noDot (List.mem_cons_of_mem _ mem)) valid b later

/-- An accepted name: a base of at most eight characters, or a base and an extension of
one to three. -/
theorem accepted_cases {upperDir : Bool} {fname : List UInt8}
    (accepted : validateDosName upperDir fname = false) :
    (DOT ∉ fname ∧ fname.length ≤ 8 ∧ validateFn upperDir fname 8 = true) ∨
    ∃ front ext, fname = front ++ DOT :: ext ∧ DOT ∉ front ∧ DOT ∉ ext ∧ front.length ≤ 8 ∧
      ext.length ≤ 3 ∧ ext ≠ [] ∧ validateFn upperDir fname 8 = true ∧
      validateFn upperDir ext 3 = true := by
  rw [validateDosName] at accepted
  cases found : find [DOT] fname with
  | none =>
      rw [found] at accepted
      simp only [Bool.or_eq_false_iff, decide_eq_false_iff_not, Bool.not_eq_false'] at accepted
      exact .inl ⟨find_eq_none_iff.mp found, Nat.le_of_not_lt accepted.1, accepted.2⟩
  | some pair =>
      obtain ⟨front, ext⟩ := pair
      obtain ⟨split, absent⟩ := find_eq_some_iff.mp found
      rw [found] at accepted
      simp only [Bool.or_eq_false_iff, Bool.and_eq_false_iff, decide_eq_false_iff_not,
        Bool.not_eq_false'] at accepted
      obtain ⟨⟨⟨⟨⟨⟨⟨long, wide⟩, -⟩, two⟩, three⟩, four⟩, valid⟩, validExt⟩ := accepted
      refine .inr ⟨front, ext, split, absent, ?_, by omega, by omega, ?_, valid, validExt⟩
      · rcases ext with _ | ⟨a, _ | ⟨b, _ | ⟨c, _ | ⟨d, ext⟩⟩⟩⟩
        · simp
        all_goals simp at long two three four ⊢ <;> grind
      · rintro rfl
        cases upperDir <;> exact absurd validExt (by decide)

theorem find_of_accepted {front ext : List UInt8} (absent : DOT ∉ front) :
    (find [DOT] (front ++ DOT :: ext)).elim [] Prod.snd = ext := by
  rw [find_append absent]
  rfl

theorem map_hostCase_toupper (upperDir : Bool) {s : List UInt8}
    (h : ∀ c ∈ s, dos2Allowed upperDir c = true) :
    (s.map toupper).map (hostCase upperDir) = s := by
  rw [List.map_map]
  calc s.map (hostCase upperDir ∘ toupper) = s.map id :=
        List.map_congr_left fun c mem => (hostCase_toupper upperDir (h c mem)).1
    _ = s := List.map_id s

theorem dos2Term_map_toupper (upperDir : Bool) {s : List UInt8}
    (h : ∀ c ∈ s, dos2Allowed upperDir c = true) :
    ∀ c ∈ s.map toupper, dos2Term c = false := by
  intro c mem
  obtain ⟨b, inS, rfl⟩ := List.mem_map.mp mem
  exact (hostCase_toupper upperDir (h b inS)).2

/-- Packing stops at the dot or at the end, whichever comes first. -/
theorem takeWhile_base {front r : List UInt8} (plain : ∀ c ∈ front, dos2Term c = false)
    (absent : DOT ∉ front) (stop : r = [] ∨ ∃ ext, r = DOT :: ext) :
    (front ++ r).takeWhile (fun c => c ≠ DOT && !dos2Term c) = front := by
  rw [List.takeWhile_append_of_pos]
  · rcases stop with rfl | ⟨ext, rfl⟩ <;> simp
  · intro c mem
    have ne : c ≠ DOT := fun same => absent (same ▸ mem)
    simp [ne, plain c mem]

/-- An accepted name without spaces is packed and unpacked without loss. -/
theorem uexpand_ugefina {upperDir : Bool} {fname : List UInt8} (nul : 0 ∉ fname)
    (noSpace : SPACE ∉ fname) (accepted : validateDosName upperDir fname = false) :
    uexpand upperDir (ugefina fname) = fname := by
  have plain : ∀ c ∈ fname, dos2Term c = false := by
    intro c mem
    have ne : c ≠ 0 ∧ c ≠ SPACE := ⟨fun e => nul (e ▸ mem), fun e => noSpace (e ▸ mem)⟩
    simp [dos2Term, ne]
  rcases accepted_cases accepted with ⟨noDot, short, valid⟩ | ⟨front, ext, rfl, inFront, inExt,
      short, shortExt, some, valid, validExt⟩
  · have allowed : ∀ c ∈ fname, dos2Allowed upperDir c = true :=
      allowed_of_validateFnFrom upperDir short plain noDot (r := [])
        (by rw [List.append_nil]; exact valid)
    have base : (fname.takeWhile fun c => c ≠ DOT && !dos2Term c) = fname := by
      simpa using takeWhile_base plain noDot (r := []) (.inl rfl)
    rw [ugefina, base, find_eq_none_iff.mpr noDot, List.take_of_length_le short]
    rw [uexpand_columns upperDir (by simpa using short) (by simp)
      (dos2Term_map_toupper upperDir allowed) (by simp), map_hostCase_toupper upperDir allowed]
    simp
  · have plainFront : ∀ c ∈ front, dos2Term c = false :=
      fun c mem => plain c (List.mem_append_left _ mem)
    have plainExt : ∀ c ∈ ext, dos2Term c = false :=
      fun c mem => plain c (List.mem_append_right _ (List.mem_cons_of_mem _ mem))
    have allowed : ∀ c ∈ front, dos2Allowed upperDir c = true :=
      allowed_of_validateFnFrom upperDir short plainFront inFront valid
    have allowedExt : ∀ c ∈ ext, dos2Allowed upperDir c = true :=
      allowed_of_validateFnFrom upperDir shortExt plainExt inExt (r := [])
        (by rw [List.append_nil]; exact validExt)
    rw [ugefina, takeWhile_base plainFront inFront (.inr ⟨ext, rfl⟩), find_of_accepted inFront,
      List.take_of_length_le short, List.take_of_length_le shortExt,
      uexpand_columns upperDir (by simpa using short) (by simpa using shortExt)
        (dos2Term_map_toupper upperDir allowed) (dos2Term_map_toupper upperDir allowedExt),
      map_hostCase_toupper upperDir allowed, map_hostCase_toupper upperDir allowedExt,
      if_neg (by simpa using some)]

/-- An accepted name is what its directory entry unpacks to exactly when it has no space. -/
theorem uexpand_ugefina_iff {upperDir : Bool} {fname : List UInt8} (nul : 0 ∉ fname)
    (accepted : validateDosName upperDir fname = false) :
    uexpand upperDir (ugefina fname) = fname ↔ SPACE ∉ fname := by
  constructor
  · intro same
    rw [← same]
    exact space_notMem_uexpand upperDir _
  · intro noSpace
    exact uexpand_ugefina nul noSpace accepted

/-- A name with an extension is accepted and comes back. -/
theorem readme_round_trip : uexpand false (ugefina (ascii "readme.txt")) = ascii "readme.txt" :=
  (uexpand_ugefina_iff (by decide) (by decide)).mpr (by decide)

/-- Two accepted names in one entry, which unpacks to neither of them. -/
theorem space_ends_name :
    validateDosName false (ascii "a b") = false ∧ validateDosName false (ascii "a c") = false ∧
      ugefina (ascii "a b") = ugefina (ascii "a c") ∧
      uexpand false (ugefina (ascii "a b")) ≠ ascii "a b" := by
  decide

end FujiNet.PCLink
