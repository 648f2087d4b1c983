import Mathlib.Data.UInt
import Mathlib.Data.List.Basic
import Mathlib.Data.List.DropRight
import Mathlib.Tactic.SplitIfs

/-!
# The operations of `std::string`

A search yields the text in front of what was found and the text behind it, so that a
found separator is a decomposition of the string. `replaceAt` throws where the
position lies behind the end.
-/

namespace FujiNet.Utils

/-- The bytes of a text of ASCII characters. -/
def ascii (text : String) : List UInt8 := text.toList.map fun c => UInt8.ofNat c.toNat

/-- A text ends at its NUL. -/
theorem takeWhile_append_zero {text : List UInt8} (plain : 0 ∉ text) (rest : List UInt8) :
    (text ++ 0 :: rest).takeWhile (· ≠ 0) = text := by
  have all : ∀ c ∈ text, decide (c ≠ 0) = true := by
    intro c mem
    rw [decide_eq_true_eq]
    rintro rfl
    exact plain mem
  rw [List.takeWhile_append_of_pos all, List.takeWhile_cons_of_neg (by simp), List.append_nil]

/-- What a `char *` to a string stands for. -/
def cStr (s : List UInt8) : List UInt8 := s.takeWhile (· ≠ 0)

theorem cStr_of_notMem {s : List UInt8} (plain : 0 ∉ s) : cStr s = s := by
  rw [cStr, List.takeWhile_eq_self_iff]
  intro c mem
  rw [decide_eq_true_eq]
  rintro rfl
  exact plain mem

theorem zero_notMem_cStr (s : List UInt8) : 0 ∉ cStr s := by
  intro mem
  simpa using List.mem_takeWhile_imp mem

/-- `str.replace(pos, len, text)`. -/
def replaceAt (str : List UInt8) (pos len : Nat) (text : List UInt8) : Option (List UInt8) :=
  if pos ≤ str.length then some (str.take pos ++ text ++ str.drop (pos + len)) else none

theorem replaceAt_append (front rest : List UInt8) {pos : Nat} (h : front.length = pos) (len : Nat)
    (text : List UInt8) :
    replaceAt (front ++ rest) pos len text = some (front ++ text ++ rest.drop len) := by
  rw [replaceAt, if_pos (by rw [List.length_append]; omega), List.take_left' h, ← List.drop_drop,
    List.drop_left' h]

/-- `str.find(pattern)`: the text in front of the first occurrence and the text behind it. -/
def find (pattern : List UInt8) : List UInt8 → Option (List UInt8 × List UInt8)
  | [] => if pattern.isEmpty then some ([], []) else none
  | c :: rest =>
    if pattern.isPrefixOf (c :: rest) then some ([], (c :: rest).drop pattern.length)
    else (find pattern rest).map fun found => (c :: found.1, found.2)

/-- `str.find_last_of` with one character. -/
def findLast (sep : UInt8) : List UInt8 → Option (List UInt8 × List UInt8)
  | [] => none
  | c :: rest =>
    match findLast sep rest with
    | some (before, after) => some (c :: before, after)
    | none => if c = sep then some ([], rest) else none

section Find

variable {sep c : UInt8} {rest before after : List UInt8}

theorem find_singleton_cons : find [sep] (c :: rest) = if sep = c then some ([], rest)
    else (find [sep] rest).map fun found => (c :: found.1, found.2) := by
  simp [find, List.isPrefixOf]

theorem find_eq_none_iff : find [sep] rest = none ↔ sep ∉ rest := by
  induction rest with
  | nil => simp [find]
  | cons c rest ih =>
      rw [find_singleton_cons, List.mem_cons, not_or]
      split_ifs with here
      · simp [here]
      · rw [Option.map_eq_none_iff, ih]
        exact (and_iff_right here).symm

/-- The first separator cuts the string where it stands. -/
theorem find_eq_some_iff :
    find [sep] rest = some (before, after) ↔ rest = before ++ sep :: after ∧ sep ∉ before := by
  induction rest generalizing before after with
  | nil => simp [find]
  | cons c rest ih =>
      rw [find_singleton_cons]
      split_ifs with here
      · subst here
        cases before with
        | nil => simp
        | cons b before => simp +contextual
      · cases before with
        | nil => simp [Ne.symm here]
        | cons b before =>
            simp only [Option.map_eq_some_iff, Prod.exists, Prod.mk.injEq, List.cons.injEq, ih,
              List.cons_append, List.mem_cons, not_or]
            constructor
            · rintro ⟨front, back, ⟨rfl, absent⟩, ⟨rfl, rfl⟩, rfl⟩
              exact ⟨⟨rfl, rfl⟩, here, absent⟩
            · rintro ⟨⟨rfl, rfl⟩, -, absent⟩
              exact ⟨before, after, ⟨rfl, absent⟩, ⟨rfl, rfl⟩, rfl⟩

theorem find_append (absent : sep ∉ before) :
    find [sep] (before ++ sep :: after) = some (before, after) :=
  find_eq_some_iff.mpr ⟨rfl, absent⟩

theorem findLast_eq_none_iff : findLast sep rest = none ↔ sep ∉ rest := by
  induction rest with
  | nil => simp [findLast]
  | cons c rest ih =>
      rw [findLast, List.mem_cons, not_or, ← ih]
      cases findLast sep rest with
      | none => simp [eq_comm]
      | some found => simp

/-- Behind the last separator there is none. -/
theorem findLast_append (absent : sep ∉ after) :
    findLast sep (before ++ sep :: after) = some (before, after) := by
  induction before with
  | nil => simp [findLast, findLast_eq_none_iff.mpr absent]
  | cons c before ih => rw [List.cons_append, findLast, ih]

theorem findLast_eq_some (found : findLast sep rest = some (before, after)) :
    rest = before ++ sep :: after ∧ sep ∉ after := by
  induction rest generalizing before with
  | nil => simp [findLast] at found
  | cons c rest ih =>
      rw [findLast] at found
      cases later : findLast sep rest with
      | none =>
          rw [later] at found
          obtain ⟨here, rfl, rfl⟩ : c = sep ∧ [] = before ∧ rest = after := by simpa using found
          exact ⟨by rw [here]; rfl, findLast_eq_none_iff.mp later⟩
      | some pair =>
          rw [later] at found
          obtain ⟨rfl, rfl⟩ : c :: pair.1 = before ∧ pair.2 = after := by simpa using found
          obtain ⟨split, absent⟩ := ih later
          exact ⟨by rw [split]; rfl, absent⟩

end Find

/-! ## Trimming -/

/-- `isspace` in the C locale. -/
def isSpace (c : UInt8) : Bool := c = 0x20 || (9 ≤ c && c ≤ 13)

def utilStringLtrim (s : List UInt8) : List UInt8 := s.dropWhile isSpace

def utilStringRtrim (s : List UInt8) : List UInt8 := s.rdropWhile isSpace

def utilStringTrim (s : List UInt8) : List UInt8 := utilStringRtrim (utilStringLtrim s)

section Trim

variable {c : UInt8} {s : List UInt8}

/-- White space in front is lost. -/
theorem utilStringTrim_cons (space : isSpace c = true) :
    utilStringTrim (c :: s) = utilStringTrim s := by
  rw [utilStringTrim, utilStringLtrim, List.dropWhile_cons_of_pos space]
  rfl

theorem filter_utilStringLtrim (s : List UInt8) :
    (utilStringLtrim s).filter (fun c => !isSpace c) = s.filter fun c => !isSpace c := by
  induction s with
  | nil => rfl
  | cons c s ih =>
      rw [utilStringLtrim]
      cases space : isSpace c with
      | true => rwa [List.dropWhile_cons_of_pos space, List.filter_cons_of_neg (by simp [space])]
      | false => rw [List.dropWhile_cons_of_neg (by simp [space])]

/-- Trimming takes off white space only. -/
theorem filter_utilStringTrim (s : List UInt8) :
    (utilStringTrim s).filter (fun c => !isSpace c) = s.filter fun c => !isSpace c := by
  have back : utilStringRtrim (utilStringLtrim s) =
      (utilStringLtrim (utilStringLtrim s).reverse).reverse := rfl
  rw [utilStringTrim, back, List.filter_reverse, filter_utilStringLtrim, List.filter_reverse,
    List.reverse_reverse, filter_utilStringLtrim]

theorem mem_utilStringTrim_iff (ink : isSpace c = false) : c ∈ utilStringTrim s ↔ c ∈ s := by
  have same := congrArg (c ∈ ·) (filter_utilStringTrim s)
  simpa [List.mem_filter, ink] using same

/-- A byte in front that is no white space stays. -/
theorem utilStringTrim_cons_ne (ink : isSpace c = false) :
    utilStringTrim (c :: s) ≠ utilStringTrim s := by
  intro same
  have kept := congrArg (List.filter fun c => !isSpace c) same
  rw [filter_utilStringTrim, filter_utilStringTrim, List.filter_cons_of_pos (by simp [ink])] at kept
  exact List.cons_ne_self _ _ kept

end Trim

/-! ## Replacing text -/

/-- The loop of `util_replaceAll`. The text in front of `start_pos` is `done`. -/
def replaceLoop (old new : List UInt8) : Nat → List UInt8 → List UInt8 → List UInt8
  | 0, done, rest => done ++ rest
  | fuel + 1, done, rest =>
    match find old rest with
    | none => done ++ rest
    | some (before, after) => replaceLoop old new fuel (done ++ before ++ new) after

/-- `util_replaceAll`. A pattern takes at least one byte off the rest, so as many passes
as there are bytes are enough. -/
def utilReplaceAll (str old new : List UInt8) : List UInt8 :=
  if old.isEmpty then str else replaceLoop old new str.length [] str

/-- The bytes of `rest`, each `old` replaced. -/
def replaced (old : UInt8) (new rest : List UInt8) : List UInt8 :=
  rest.flatMap fun c => if c = old then new else [c]

section ReplaceAll

variable (old : UInt8) (new rest : List UInt8)

@[simp] theorem replaced_append (a b : List UInt8) :
    replaced old new (a ++ b) = replaced old new a ++ replaced old new b := by
  simp [replaced]

theorem replaced_of_notMem {rest : List UInt8} (absent : old ∉ rest) :
    replaced old new rest = rest := by
  induction rest with
  | nil => rfl
  | cons c rest ih =>
      obtain ⟨here, later⟩ := not_or.mp (List.mem_cons.not.mp absent)
      rw [replaced, List.flatMap_cons, if_neg (Ne.symm here)]
      exact congrArg (c :: ·) (ih later)

theorem replaceLoop_singleton (fuel : Nat) (done rest : List UInt8)
    (enough : rest.length ≤ fuel) :
    replaceLoop [old] new fuel done rest = done ++ replaced old new rest := by
  induction fuel generalizing done rest with
  | zero =>
      obtain rfl : rest = [] := List.eq_nil_of_length_eq_zero (by omega)
      rfl
  | succ fuel ih =>
      rw [replaceLoop]
      cases found : find [old] rest with
      | none => rw [replaced_of_notMem old new (find_eq_none_iff.mp found)]
      | some pair =>
          obtain ⟨rfl, absent⟩ := find_eq_some_iff.mp found
          change replaceLoop [old] new fuel (done ++ pair.1 ++ new) pair.2 = _
          rw [List.length_append, List.length_cons] at enough
          rw [ih _ _ (by omega), replaced_append, replaced_of_notMem old new absent]
          simp [replaced]

/-- With a pattern of one byte each byte is replaced by itself. -/
theorem utilReplaceAll_singleton : utilReplaceAll rest [old] new = replaced old new rest := by
  rw [utilReplaceAll, if_neg (by simp), replaceLoop_singleton old new _ _ _ (Nat.le_refl _)]
  rfl

end ReplaceAll

end FujiNet.Utils
