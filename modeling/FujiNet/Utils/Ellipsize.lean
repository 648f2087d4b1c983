import Mathlib.Data.List.Basic
import Mathlib.Data.UInt
import Mathlib.Tactic.SplitIfs

/-!
# Shortened names

`util_ellipsize` puts three dots in the middle of a name that is too long. Its result is not always
the length of what it stored.
-/

namespace FujiNet.Utils

/-- `util_ellipsize`: what is stored at `dst`, with its NUL, and the result. -/
def utilEllipsize (src : List UInt8) (dstsize : Nat) : List UInt8 × Nat :=
  if dstsize ≤ 1 then (if dstsize = 1 then [0] else [], 0)
  else if src.length < dstsize ∨ dstsize < 6 then
    -- `strlcpy` returns the length of its source
    (src.take (dstsize - 1) ++ [0], src.length)
  else
    let rightlen := (dstsize - 4) / 2
    let leftlen := rightlen + dstsize % 2
    (src.take leftlen ++ [0x2E, 0x2E, 0x2E] ++ src.drop (src.length - rightlen) ++ [0], dstsize)

/-- A name in the room for `size - 1` characters: a name that is longer loses its middle, or its end
where there is no room for dots. -/
def ellipsised (size : Nat) (name : List UInt8) : List UInt8 :=
  if name.length < size then name
  else if size < 6 then name.take (size - 1)
  else name.take ((size - 3) / 2) ++ [0x2E, 0x2E, 0x2E] ++ name.drop (name.length - (size - 4) / 2)

section Ellipsize

variable {name : List UInt8} {size : Nat}

/-- The shortened name and its NUL are stored. -/
theorem utilEllipsize_stored (pos : 0 < size) :
    (utilEllipsize name size).1 = ellipsised size name ++ [0] := by
  rw [utilEllipsize, ellipsised]
  by_cases one : size ≤ 1
  · obtain rfl : size = 1 := by omega
    rw [if_pos one, if_pos rfl]
    split_ifs with short small
    · rw [List.eq_nil_of_length_eq_zero (by omega : name.length = 0)]
      rfl
    · rfl
    · exact absurd (by decide) small
  · rw [if_neg one]
    by_cases short : name.length < size
    · rw [if_pos (.inl short), if_pos short, List.take_of_length_le (by omega)]
    · rw [if_neg short]
      by_cases small : size < 6
      · rw [if_pos (.inr small), if_pos small]
      · have left : (size - 4) / 2 + size % 2 = (size - 3) / 2 := by omega
        rw [if_neg (by omega), if_neg small]
        dsimp only
        rw [left]

theorem length_ellipsised (pos : 0 < size) : (ellipsised size name).length ≤ size - 1 := by
  rw [ellipsised]
  split_ifs with short small
  · omega
  · exact List.length_take_le _ _
  · simp only [List.length_append, List.length_take, List.length_drop, List.length_cons,
      List.length_nil]
    omega

end Ellipsize

/-- The whole name, or its beginning and its end around three dots, is stored in `size` bytes with
its NUL, and the result is the length of what is stored. -/
def Shortens (name : List UInt8) (size : Nat) : Prop :=
  (utilEllipsize name size).1.length ≤ size ∧
    ∃ text, (utilEllipsize name size).1 = text ++ [0] ∧ (name.length < size → text = name) ∧
      (size ≤ name.length → 6 ≤ size → ∃ left right, left <+: name ∧ right <:+ name ∧
        text = left ++ [0x2E, 0x2E, 0x2E] ++ right ∧
        (text.length = size - 1 ∨ text.length = size - 2)) ∧
      (utilEllipsize name size).2 = text.length

section Shortens

variable {name : List UInt8} {size : Nat}

/-- A name that is too long fills the room to its last byte. -/
theorem length_ellipsised_of_le (pos : 0 < size) (long : size ≤ name.length) :
    (ellipsised size name).length = size - 1 := by
  rw [ellipsised, if_neg (Nat.not_lt.mpr long)]
  split_ifs with small
  · rw [List.length_take]
    omega
  · simp only [List.length_append, List.length_take, List.length_drop, List.length_cons,
      List.length_nil]
    omega

theorem ellipsised_of_lt (fits : name.length < size) : ellipsised size name = name := if_pos fits

/-- The result is the length if the name fits, or if there is room for nothing at all. -/
theorem utilEllipsize_result_iff (pos : 0 < size) :
    (utilEllipsize name size).2 = (ellipsised size name).length ↔
      name.length < size ∨ size = 1 := by
  by_cases fits : name.length < size
  · refine iff_of_true ?_ (.inl fits)
    rw [ellipsised_of_lt fits, utilEllipsize]
    by_cases one : size ≤ 1
    · rw [if_pos one]
      dsimp only
      omega
    · rw [if_neg one, if_pos (Or.inl fits)]
  · rw [length_ellipsised_of_le pos (Nat.not_lt.mp fits), or_iff_right fits, utilEllipsize]
    split_ifs with one
    all_goals dsimp only; omega

end Shortens

/-- The name is shortened as it should be, and its length is returned, exactly if it fits or if
there is room for the NUL only. -/
theorem utilEllipsize_shortens_iff (name : List UInt8) (size : Nat) (pos : 1 ≤ size) :
    Shortens name size ↔ name.length < size ∨ size = 1 := by
  rw [← utilEllipsize_result_iff pos, Shortens, utilEllipsize_stored pos]
  have room : (ellipsised size name ++ [0]).length ≤ size := by
    have le : (ellipsised size name).length ≤ size - 1 := length_ellipsised pos
    rw [List.length_append, List.length_singleton]
    omega
  constructor
  · rintro ⟨-, text, same, -, -, result⟩
    rw [result, List.append_cancel_right same]
  · intro result
    refine ⟨room, _, rfl, ellipsised_of_lt, fun long dots => ?_, result⟩
    have whole := length_ellipsised_of_le pos long
    refine ⟨name.take ((size - 3) / 2), name.drop (name.length - (size - 4) / 2),
      List.take_prefix _ _, List.drop_suffix _ _, ?_, .inl whole⟩
    rw [ellipsised, if_neg (Nat.not_lt.mpr long), if_neg (Nat.not_lt.mpr dots)]

/-- A name that fits. -/
theorem utilEllipsize_shortens_game : Shortens [0x67, 0x61, 0x6D, 0x65] 8 :=
  (utilEllipsize_shortens_iff [0x67, 0x61, 0x6D, 0x65] 8 (by decide)).mpr (.inl (by decide))

/-- Eight characters for six bytes: the five that are stored are counted as six. -/
theorem not_shortens_letters :
    ¬ Shortens [0x61, 0x62, 0x63, 0x64, 0x65, 0x66, 0x67, 0x68] 6 := by
  rintro ⟨-, text, same, -, -, result⟩
  have stored : (utilEllipsize [0x61, 0x62, 0x63, 0x64, 0x65, 0x66, 0x67, 0x68] 6).1 =
      [0x61, 0x2E, 0x2E, 0x2E, 0x68] ++ [0] := by decide
  have returned : (utilEllipsize [0x61, 0x62, 0x63, 0x64, 0x65, 0x66, 0x67, 0x68] 6).2 = 6 := by
    decide
  obtain rfl := List.append_cancel_right (same.symm.trans stored)
  exact absurd (returned.symm.trans result) (by decide)

end FujiNet.Utils
