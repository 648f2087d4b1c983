import FujiNet.Utils.Strings

/-!
# Joining two paths

`util_concat_paths` copies a parent and a child into a buffer with `strlcpy`, which returns the length
of its source whether all of it was copied or not. A join that does not fit is only noticed if there
is no room left behind the parent.

Lengths are natural numbers; an `int` holds those of strings shorter than 2^31 bytes.
-/

namespace FujiNet.Utils

/-- A slash or a backslash. -/
def isSlash (c : UInt8) : Prop := c = 0x2F ∨ c = 0x5C

instance (c : UInt8) : Decidable (isSlash c) := inferInstanceAs (Decidable (_ ∨ _))

/-- `strlcpy`: the text in the buffer of `size` bytes, if it has any, and the value returned. -/
def strlcpy (src : List UInt8) (size : Nat) : Option (List UInt8) × Nat :=
  (if size = 0 then none else some (src.take (size - 1)), src.length)

/-- The parent with a slash at its end. -/
def withSeparator (parent : List UInt8) : List UInt8 :=
  if (parent.getLast?.any fun c => isSlash c) then parent else parent ++ [0x2F]

/-- The child without the slash at its front. -/
def skipSlash : List UInt8 → List UInt8
  | [] => []
  | c :: rest => if isSlash c then rest else c :: rest

/-- `util_concat_paths`: the value returned, and the text that `dest` holds then. A null pointer is
`none`, but `dest` is a buffer, and only one without bytes has no text. The parent may be the text in
`dest`. -/
def utilConcatPaths (dest parent child : Option (List UInt8)) (destSize : Nat) :
    Bool × Option (List UInt8) :=
  if parent.getD [] = [] then
    match child with
    | none => (false, dest)
    | some child => (decide (child.length = (strlcpy child destSize).2), (strlcpy child destSize).1)
  else
    let parent := parent.getD []
    let copied := strlcpy parent destSize
    if destSize ≤ copied.2 + 3 then (false, copied.1)
    else if child.getD [] = [] then (true, copied.1)
    else
      let front := withSeparator parent
      let child := skipSlash (child.getD [])
      let behind := strlcpy child (destSize - front.length)
      (decide (behind.2 = child.length), behind.1.map (front ++ ·))

/-- What is to be in `dest`: one separator between the parent and the child. -/
def joined (parent child : Option (List UInt8)) : Option (List UInt8) :=
  if parent.getD [] = [] then child
  else if child.getD [] = [] then parent
  else some (withSeparator (parent.getD []) ++ skipSlash (child.getD []))

/-- The value returned tells whether the complete path is in `dest`. -/
def TellsComplete (dest parent child : Option (List UInt8)) (destSize : Nat) : Prop :=
  (utilConcatPaths dest parent child destSize).1 = true ↔
    ∃ path, joined parent child = some path ∧
      (utilConcatPaths dest parent child destSize).2 = some path

/-- The path fits, unless there is no room behind the parent; then it is not the parent alone, or not
even that fits. -/
def ConcatFits (parent child : Option (List UInt8)) (destSize : Nat) : Prop :=
  ∀ path, joined parent child = some path →
    if parent.getD [] = [] ∨ (parent.getD []).length + 3 < destSize then path.length < destSize
    else ¬ (path = parent.getD [] ∧ path.length < destSize)

section Concat

variable {parent child : List UInt8} {destSize : Nat}

theorem strlcpy_eq_some_iff (src : List UInt8) (size : Nat) :
    (strlcpy src size).1 = some src ↔ src.length < size := by
  rw [strlcpy]
  dsimp only
  split_ifs with none
  · exact iff_of_false (fun h => nomatch h) (by omega)
  · rw [Option.some.injEq, List.take_eq_self_iff]
    omega

theorem length_withSeparator (parent : List UInt8) : parent.length ≤ (withSeparator parent).length ∧
    (withSeparator parent).length ≤ parent.length + 1 := by
  rw [withSeparator]
  split_ifs <;> simp

/-- What is returned and left in `dest` for a parent and a child, in one view. -/
theorem utilConcatPaths_cases (dest : Option (List UInt8)) (parent child : Option (List UInt8))
    (destSize : Nat) :
    (parent.getD [] = [] ∧ child = none ∧
        utilConcatPaths dest parent child destSize = (false, dest)) ∨
    (∃ path, joined parent child = some path ∧
      if parent.getD [] = [] ∨ (parent.getD []).length + 3 < destSize then
        utilConcatPaths dest parent child destSize = (true, (strlcpy path destSize).1)
      else
        utilConcatPaths dest parent child destSize =
          (false, (strlcpy (parent.getD []) destSize).1)) := by
  unfold utilConcatPaths joined
  by_cases top : parent.getD [] = []
  · rw [if_pos top, if_pos top]
    cases child with
    | none => exact .inl ⟨top, rfl, rfl⟩
    | some child =>
        refine .inr ⟨child, rfl, ?_⟩
        rw [if_pos (.inl top)]
        simp [strlcpy]
  · obtain ⟨text, rfl⟩ : ∃ text, parent = some text := by
      cases parent with
      | none => exact absurd rfl top
      | some text => exact ⟨text, rfl⟩
    rw [if_neg top, if_neg top]
    refine .inr ?_
    dsimp only [Option.getD_some] at top ⊢
    have room : (text = [] ∨ text.length + 3 < destSize) ↔ text.length + 3 < destSize :=
      or_iff_right top
    have length : (strlcpy text destSize).2 = text.length := rfl
    by_cases full : destSize ≤ text.length + 3
    · rw [length, if_pos full]
      by_cases alone : child.getD [] = []
      · rw [if_pos alone]
        exact ⟨text, rfl, by rw [if_neg (fun h => absurd (room.mp h) (Nat.not_lt.mpr full))]⟩
      · rw [if_neg alone]
        exact ⟨_, rfl, by rw [if_neg (fun h => absurd (room.mp h) (Nat.not_lt.mpr full))]⟩
    · rw [length, if_neg full]
      have fits : text.length + 3 < destSize := Nat.not_le.mp full
      by_cases alone : child.getD [] = []
      · rw [if_pos alone, if_pos alone]
        exact ⟨text, rfl, by rw [if_pos (room.mpr fits)]⟩
      · rw [if_neg alone, if_neg alone]
        refine ⟨_, rfl, ?_⟩
        rw [if_pos (room.mpr fits)]
        have longer := (length_withSeparator text).2
        have all : destSize - 1 = (withSeparator text).length +
            (destSize - (withSeparator text).length - 1) := by omega
        simp only [strlcpy]
        rw [if_neg (by omega), if_neg (by omega), all, List.take_length_add_append]
        simp

/-- The parent is at the front of the join. -/
theorem length_le_joined {parent child : Option (List UInt8)} {path : List UInt8}
    (join : joined parent child = some path) : (parent.getD []).length ≤ path.length := by
  rw [joined] at join
  split_ifs at join with top alone
  · rw [top]
    exact Nat.zero_le _
  · rw [join]
    exact Nat.le_refl _
  · rw [← Option.some.inj join, List.length_append]
    have := (length_withSeparator (parent.getD [])).1
    omega

/-- The value returned is right exactly if the path fits. -/
theorem tellsComplete_iff (dest parent child : Option (List UInt8)) (destSize : Nat) :
    TellsComplete dest parent child destSize ↔ ConcatFits parent child destSize := by
  rw [TellsComplete, ConcatFits]
  rcases utilConcatPaths_cases dest parent child destSize with ⟨top, none, same⟩ | ⟨path, join, same⟩
  · have absent : joined parent child = Option.none := by rw [joined, if_pos top, none]
    rw [same, absent]
    exact iff_of_true (by simp) (by simp)
  · rw [join]
    simp only [Option.some.injEq, exists_eq_left', forall_eq']
    split_ifs at same ⊢ with room
    · rw [same, strlcpy_eq_some_iff]
      simp
    · rw [same, strlcpy]
      rw [not_or, Nat.not_lt] at room
      dsimp only
      split_ifs with zero
      · refine iff_of_true (by simp) (by omega)
      · have longer := length_le_joined join
        have whole : (parent.getD []).take (destSize - 1) = path ↔
            path = parent.getD [] ∧ path.length < destSize := by
          constructor
          · intro cut
            have length := congrArg List.length cut
            rw [List.length_take] at length
            rw [List.take_of_length_le (by omega)] at cut
            exact ⟨cut.symm, by omega⟩
          · rintro ⟨same, short⟩
            rw [← same, List.take_of_length_le (by omega)]
        rw [Option.some.injEq, whole]
        simp

end Concat

end FujiNet.Utils
