import FujiNet.Utils.Crunch
import Mathlib.Computability.Language

/-!
# Wildcards

`util_wildcard_match` fills a table with a row for each beginning of the string and a column for
each beginning of the pattern. A pattern stands for a language, the product of what its characters
stand for, and the table says of each two beginnings whether the one is in the language of the
other.
-/

namespace FujiNet.Utils

def QUESTION : UInt8 := 0x3F

/-- `tolower` in the C locale. -/
def tolower (c : UInt8) : UInt8 := if 0x41 ≤ c && c ≤ 0x5A then c + 0x20 else c

/-! ## The code -/

/-- `lookup[i][j]`. -/
abbrev Lookup := Nat → Nat → Bool

namespace Lookup

def set (i j : Nat) (b : Bool) (lookup : Lookup) : Lookup :=
  fun i' j' => if i' = i ∧ j' = j then b else lookup i' j'

/-- The table after `memset` and the first assignment. -/
def start : Lookup := set 0 0 true fun _ _ => false

section Fill

variable (str pattern : List UInt8)

/-- The loop that only a `*` passes. -/
def fillFirst (lookup : Lookup) : Lookup :=
  (List.range pattern.length).foldl
    (fun lookup j =>
      if pattern[j]? = some STAR then lookup.set 0 (j + 1) (lookup 0 j) else lookup) lookup

/-- The value for `lookup[i + 1][j + 1]`. -/
def cell (lookup : Lookup) (i j : Nat) : Bool :=
  match str[i]?, pattern[j]? with
  | some c, some p =>
    if p = STAR then lookup (i + 1) j || lookup i (j + 1)
    else if p = QUESTION ∨ c = p ∨ tolower c = tolower p then lookup i j
    else false
  | _, _ => false

/-- The inner loop. -/
def fillRow (lookup : Lookup) (i : Nat) : Lookup :=
  (List.range pattern.length).foldl
    (fun lookup j => lookup.set (i + 1) (j + 1) (cell str pattern lookup i j)) lookup

def fill (lookup : Lookup) : Lookup :=
  (List.range str.length).foldl (fillRow str pattern) lookup

end Fill

end Lookup

/-- `util_wildcard_match`, for strings that are there. -/
def utilWildcardMatch (str pattern : List UInt8) : Bool :=
  if pattern.length = 0 then str.length = 0
  else ((Lookup.start.fillFirst pattern).fill str pattern) str.length pattern.length

/-! ## The language of a pattern -/

/-- What a character of a pattern stands for. -/
def standsFor (p : UInt8) : Language UInt8 :=
  {s | p = STAR ∨ ∃ c, s = [c] ∧ (p = QUESTION ∨ tolower c = tolower p)}

def language (pattern : List UInt8) : Language UInt8 := (pattern.map standsFor).prod

section Language

variable {str pattern : List UInt8} {c p : UInt8}

theorem mem_language_nil : str ∈ language [] ↔ str = [] := Language.mem_one str

theorem mem_language_concat : str ∈ language (pattern ++ [p]) ↔
    ∃ a ∈ language pattern, ∃ b ∈ standsFor p, a ++ b = str := by
  rw [language, List.map_append, List.prod_append, List.map_singleton, List.prod_singleton]
  exact Language.mem_mul

theorem mem_standsFor_star : str ∈ standsFor STAR := Or.inl rfl

theorem mem_standsFor (one : p ≠ STAR) :
    str ∈ standsFor p ↔ ∃ c, str = [c] ∧ (p = QUESTION ∨ tolower c = tolower p) :=
  or_iff_right one

/-- A star may stand for nothing. -/
theorem mem_language_star (mem : str ∈ language pattern) : str ∈ language (pattern ++ [STAR]) := by
  exact mem_language_concat.mpr ⟨str, mem, [], mem_standsFor_star, List.append_nil str⟩

theorem nil_mem_language_star : [] ∈ language (pattern ++ [STAR]) ↔ [] ∈ language pattern := by
  refine ⟨fun mem => ?_, mem_language_star⟩
  obtain ⟨a, front, b, -, same⟩ := mem_language_concat.mp mem
  obtain ⟨rfl, -⟩ := List.append_eq_nil_iff.mp same
  exact front

/-- A star stands for nothing, or its text has a last character. -/
theorem concat_mem_language_star : str ++ [c] ∈ language (pattern ++ [STAR]) ↔
    str ∈ language (pattern ++ [STAR]) ∨ str ++ [c] ∈ language pattern := by
  constructor
  · intro mem
    obtain ⟨a, front, b, -, same⟩ := mem_language_concat.mp mem
    obtain rfl | ⟨b, d, rfl⟩ := b.eq_nil_or_concat
    · rw [List.append_nil] at same
      exact .inr (same ▸ front)
    · rw [List.concat_eq_append, ← List.append_assoc] at same
      obtain ⟨rfl, -⟩ := List.append_inj' same rfl
      exact .inl (mem_language_concat.mpr ⟨a, front, b, mem_standsFor_star, rfl⟩)
  · rintro (mem | mem)
    · obtain ⟨a, front, b, -, rfl⟩ := mem_language_concat.mp mem
      exact mem_language_concat.mpr
        ⟨a, front, b ++ [c], mem_standsFor_star, (List.append_assoc a b [c]).symm⟩
    · exact mem_language_star mem

theorem nil_notMem_language (one : p ≠ STAR) : [] ∉ language (pattern ++ [p]) := by
  intro mem
  obtain ⟨a, -, b, last, same⟩ := mem_language_concat.mp mem
  obtain ⟨c, rfl, -⟩ := (mem_standsFor one).mp last
  exact absurd same (List.append_ne_nil_of_right_ne_nil a (List.cons_ne_nil c []))

/-- Any other character stands for one character. -/
theorem concat_mem_language (one : p ≠ STAR) : str ++ [c] ∈ language (pattern ++ [p]) ↔
    (p = QUESTION ∨ tolower c = tolower p) ∧ str ∈ language pattern := by
  constructor
  · intro mem
    obtain ⟨a, front, b, last, same⟩ := mem_language_concat.mp mem
    obtain ⟨d, rfl, stands⟩ := (mem_standsFor one).mp last
    obtain ⟨rfl, last⟩ := List.append_inj' same rfl
    exact ⟨List.singleton_inj.mp last ▸ stands, front⟩
  · rintro ⟨stands, front⟩
    exact mem_language_concat.mpr ⟨str, front, [c], (mem_standsFor one).mpr ⟨c, rfl, stands⟩, rfl⟩

end Language

/-! ## The table -/

namespace Lookup

variable {str pattern : List UInt8} {lookup : Lookup} {c p : UInt8} {i j k : Nat}

/-- The value is the right one. -/
def Right (str pattern : List UInt8) (lookup : Lookup) (i j : Nat) : Prop :=
  lookup i j = true ↔ str.take i ∈ language (pattern.take j)

theorem right_set (i j : Nat) (lookup : Lookup) (b : Bool) :
    Right str pattern (set i j b lookup) i j ↔
      (b = true ↔ str.take i ∈ language (pattern.take j)) :=
  iff_congr (Eq.congr_left (if_pos ⟨rfl, rfl⟩)) Iff.rfl

theorem right_set_of_ne (i : Nat) (lookup : Lookup) (b : Bool) {j' : Nat} (other : j' ≠ j) :
    Right str pattern (set i j b lookup) i j' ↔ Right str pattern lookup i j' :=
  iff_congr (Eq.congr_left (if_neg fun both => other both.2)) Iff.rfl

theorem take_succ_eq {s : List UInt8} {n : Nat} (here : s[n]? = some c) :
    s.take (n + 1) = s.take n ++ [c] := by
  rw [List.take_add_one, here]
  rfl

/-- A value comes from those above and to the left. -/
theorem right_cell (here : str[i]? = some c) (there : pattern[j]? = some p)
    (left : Right str pattern lookup (i + 1) j) (above : Right str pattern lookup i (j + 1))
    (diagonal : Right str pattern lookup i j) :
    cell str pattern lookup i j = true ↔
      str.take (i + 1) ∈ language (pattern.take (j + 1)) := by
  rw [Right, take_succ_eq here] at left
  rw [Right, take_succ_eq there] at above
  rw [cell, here, there, take_succ_eq here, take_succ_eq there]
  dsimp only
  by_cases star : p = STAR
  · rw [if_pos star, Bool.or_eq_true, left, above, star, concat_mem_language_star, or_comm]
  · rw [if_neg star, concat_mem_language star]
    have stands : (p = QUESTION ∨ c = p ∨ tolower c = tolower p) ↔
        (p = QUESTION ∨ tolower c = tolower p) := by
      refine or_congr_right ⟨?_, .inr⟩
      rintro (rfl | same)
      · rfl
      · exact same
    by_cases accepts : p = QUESTION ∨ c = p ∨ tolower c = tolower p
    · rw [if_pos accepts]
      exact diagonal.trans (and_iff_right (stands.mp accepts)).symm
    · rw [if_neg accepts]
      exact iff_of_false Bool.false_ne_true fun both => accepts (stands.mpr both.1)

/-- The inner loop changes its row only, and not the first value of it. -/
theorem fillRow_other (lookup : Lookup) (i : Nat) {i' j' : Nat} (other : i' ≠ i + 1 ∨ j' = 0) :
    fillRow str pattern lookup i i' j' = lookup i' j' := by
  rw [fillRow]
  generalize List.range pattern.length = js
  induction js generalizing lookup with
  | nil => rfl
  | cons j js ih =>
      rw [List.foldl_cons, ih]
      refine if_neg ?_
      rintro ⟨rfl, rfl⟩
      rcases other with other | other
      · exact other rfl
      · exact absurd other (Nat.succ_ne_zero j)

/-- The inner loop fills its row. -/
theorem right_fillRow (inside : i < str.length)
    (first : Right str pattern lookup (i + 1) 0)
    (above : ∀ j ≤ pattern.length, Right str pattern lookup i j) :
    ∀ j ≤ pattern.length, Right str pattern (fillRow str pattern lookup i) (i + 1) j := by
  have loop (n : Nat) (le : n ≤ pattern.length) :
      let lookup' := (List.range n).foldl
        (fun lookup j => lookup.set (i + 1) (j + 1) (cell str pattern lookup i j)) lookup
      (∀ j ≤ n, Right str pattern lookup' (i + 1) j) ∧ ∀ j, lookup' i j = lookup i j := by
    induction n with
    | zero =>
        refine ⟨fun j le => ?_, fun j => rfl⟩
        rw [Nat.le_zero.mp le]
        exact first
    | succ n ih =>
        obtain ⟨filled, kept⟩ := ih (Nat.le_of_succ_le le)
        rw [List.range_succ, List.foldl_append]
        generalize (List.range n).foldl
          (fun lookup j => lookup.set (i + 1) (j + 1) (cell str pattern lookup i j)) lookup =
          lookup' at filled kept
        have row (j : Nat) (le : j ≤ pattern.length) : Right str pattern lookup' i j := by
          rw [Right, kept]
          exact above j le
        refine ⟨fun j le' => ?_, fun j => ?_⟩
        · rcases Nat.lt_or_eq_of_le le' with lt | rfl
          · exact (right_set_of_ne _ _ _ (Nat.ne_of_lt lt)).mpr (filled j (Nat.le_of_lt_succ lt))
          · refine (right_set _ _ _ _).mpr ?_
            exact right_cell (List.getElem?_eq_getElem inside) (List.getElem?_eq_getElem le)
              (filled n (Nat.le_refl n)) (row (n + 1) le) (row n (Nat.le_of_succ_le le))
        · have above : i ≠ i + 1 := Nat.ne_of_lt (Nat.lt_succ_self i)
          exact (if_neg fun both => above both.1).trans (kept j)
  exact (loop pattern.length (Nat.le_refl _)).1

/-- The first row belongs to the empty string: only stars pass. -/
theorem right_fillFirst (start' : lookup 0 0 = true) (others : ∀ j, lookup 0 (j + 1) = false) :
    (∀ j ≤ pattern.length, Right str pattern (fillFirst pattern lookup) 0 j) ∧
      ∀ i j, fillFirst pattern lookup (i + 1) j = lookup (i + 1) j := by
  have loop (n : Nat) (le : n ≤ pattern.length) :
      let lookup' := (List.range n).foldl
        (fun lookup j =>
          if pattern[j]? = some STAR then lookup.set 0 (j + 1) (lookup 0 j) else lookup) lookup
      (∀ j ≤ n, Right str pattern lookup' 0 j) ∧ (∀ j > n, lookup' 0 j = false) ∧
        ∀ i j, lookup' (i + 1) j = lookup (i + 1) j := by
    induction n with
    | zero =>
        refine ⟨fun j le => ?_, fun j lt => ?_, fun i j => rfl⟩
        · rw [Nat.le_zero.mp le, Right, List.take_zero, List.take_zero, mem_language_nil]
          exact iff_of_true start' rfl
        · obtain ⟨j, rfl⟩ := Nat.exists_eq_succ_of_ne_zero (Nat.ne_of_gt lt)
          exact others j
    | succ n ih =>
        obtain ⟨filled, empty, kept⟩ := ih (Nat.le_of_succ_le le)
        have there : pattern[n]? = some pattern[n] := List.getElem?_eq_getElem le
        have last := filled n (Nat.le_refl n)
        rw [List.range_succ, List.foldl_append]
        generalize (List.range n).foldl
          (fun lookup j =>
            if pattern[j]? = some STAR then lookup.set 0 (j + 1) (lookup 0 j) else lookup) lookup =
          lookup' at filled empty kept last
        rw [List.foldl_cons, List.foldl_nil, there]
        by_cases star : pattern[n] = STAR
        · rw [if_pos (congrArg some star)]
          refine ⟨fun j le' => ?_, fun j lt => ?_, fun i j => ?_⟩
          · rcases Nat.lt_or_eq_of_le le' with lt | rfl
            · exact (right_set_of_ne _ _ _ (Nat.ne_of_lt lt)).mpr
                (filled j (Nat.le_of_lt_succ lt))
            · refine (right_set _ _ _ _).mpr (last.trans ?_)
              rw [take_succ_eq there, star, List.take_zero]
              exact nil_mem_language_star.symm
          · exact (if_neg fun both => Nat.ne_of_gt lt both.2).trans
              (empty j (Nat.lt_of_succ_lt lt))
          · exact (if_neg fun both => Nat.succ_ne_zero i both.1).trans (kept i j)
        · rw [if_neg fun same => star (Option.some.inj same)]
          refine ⟨fun j le' => ?_, fun j lt => empty j (Nat.lt_of_succ_lt lt), kept⟩
          rcases Nat.lt_or_eq_of_le le' with lt | rfl
          · exact filled j (Nat.le_of_lt_succ lt)
          · rw [Right, take_succ_eq there, List.take_zero, empty _ (Nat.lt_succ_self n)]
            exact iff_of_false Bool.false_ne_true (nil_notMem_language star)
  obtain ⟨filled, -, kept⟩ := loop pattern.length (Nat.le_refl _)
  exact ⟨filled, kept⟩

/-- The outer loop fills row after row. -/
theorem right_fill (first : ∀ j ≤ pattern.length, Right str pattern lookup 0 j)
    (below : ∀ i, lookup (i + 1) 0 = false) :
    ∀ i ≤ str.length, ∀ j ≤ pattern.length, Right str pattern (fill str pattern lookup) i j := by
  have loop (n : Nat) (le : n ≤ str.length) :
      let lookup' := (List.range n).foldl (fillRow str pattern) lookup
      (∀ i ≤ n, ∀ j ≤ pattern.length, Right str pattern lookup' i j) ∧
        ∀ i, lookup' (i + 1) 0 = false := by
    induction n with
    | zero =>
        refine ⟨fun i le => ?_, below⟩
        rw [Nat.le_zero.mp le]
        exact first
    | succ n ih =>
        obtain ⟨filled, below⟩ := ih (Nat.le_of_succ_le le)
        rw [List.range_succ, List.foldl_append]
        generalize (List.range n).foldl (fillRow str pattern) lookup = lookup' at filled below
        rw [List.foldl_cons, List.foldl_nil]
        refine ⟨fun i le' j inside => ?_, fun i => ?_⟩
        · rcases Nat.lt_or_eq_of_le le' with lt | rfl
          · rw [Right, fillRow_other lookup' n (.inl (Nat.ne_of_lt lt))]
            exact filled i (Nat.le_of_lt_succ lt) j inside
          · refine right_fillRow le ?_ (filled n (Nat.le_refl n)) j inside
            rw [Right, below, List.take_zero, mem_language_nil, List.take_eq_nil_iff]
            refine iff_of_false Bool.false_ne_true ?_
            rintro (zero | rfl)
            · exact absurd zero (Nat.succ_ne_zero n)
            · exact absurd le (Nat.not_succ_le_zero n)
        · rw [fillRow_other lookup' n (.inr rfl)]
          exact below i
  exact (loop str.length (Nat.le_refl _)).1

end Lookup

/-- A string matches a pattern if and only if it is in the language of the pattern. -/
theorem wildcard_match_iff (str pattern : List UInt8) :
    utilWildcardMatch str pattern = true ↔ str ∈ language pattern := by
  rw [utilWildcardMatch]
  split_ifs with empty
  · rw [List.eq_nil_of_length_eq_zero empty, mem_language_nil, decide_eq_true_eq,
      List.length_eq_zero_iff]
  · obtain ⟨first, kept⟩ :
        (∀ j ≤ pattern.length, (Lookup.start.fillFirst pattern).Right str pattern 0 j) ∧
          ∀ i j, Lookup.start.fillFirst pattern (i + 1) j = Lookup.start (i + 1) j :=
      Lookup.right_fillFirst rfl fun j => rfl
    have filled := Lookup.right_fill first fun i => (kept i 0).trans rfl
    have corner := filled str.length (Nat.le_refl _) pattern.length (Nat.le_refl _)
    rw [Lookup.Right, List.take_length, List.take_length] at corner
    exact corner

example : utilWildcardMatch (ascii "Game1.ATR") (ascii "g**?.atr*") = true := by decide

end FujiNet.Utils
