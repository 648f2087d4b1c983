import Mathlib.Algebra.Order.BigOperators.Group.List
import Mathlib.Algebra.Order.Group.Nat
import FujiNet.Data.DirTree

/-!
# Resolving the dots of a path

The names of a path are taken one after the other, and no file system is looked at: `.` stays, `..`
takes off the last name, and at the top it takes off nothing. A directory is written with a slash
behind each of its names.

Nothing in this file mentions a particular program.
-/

namespace FujiNet.Posix

/-- One name behind the directory `p`. -/
def resolveName (p : List (List UInt8)) (n : List UInt8) : List (List UInt8) :=
  if n = dotdot then p.dropLast else if n = [dot] then p else p ++ [n]

/-- The names behind the directory `p`, one after the other. -/
def resolve (p ns : List (List UInt8)) : List (List UInt8) := ns.foldl resolveName p

/-- The names of a directory with a slash behind each. -/
def dirText (p : List (List UInt8)) : List UInt8 := p.flatMap (· ++ [slash])

section Pieces

variable {sep : UInt8 → Bool}

theorem mem_piece {u t : List UInt8} {c : UInt8} (piece : t ∈ u.splitOnP sep) (mem : c ∈ t) :
    c ∈ u ∧ sep c = false := by
  induction u generalizing t with
  | nil =>
      obtain rfl : t = [] := by simpa using piece
      exact absurd mem List.not_mem_nil
  | cons b u ih =>
      rw [List.splitOnP_cons_eq_if_modifyHead] at piece
      split_ifs at piece with here
      · rcases List.mem_cons.mp piece with rfl | later
        · exact absurd mem List.not_mem_nil
        · exact ⟨List.mem_cons_of_mem _ (ih later mem).1, (ih later mem).2⟩
      · cases pieces : u.splitOnP sep with
        | nil => exact absurd pieces (List.splitOnP_ne_nil sep u)
        | cons h rest =>
            rw [pieces, List.modifyHead_cons] at piece
            rcases List.mem_cons.mp piece with rfl | later
            · rcases List.mem_cons.mp mem with rfl | inHead
              · exact ⟨List.mem_cons_self, by simpa using here⟩
              · obtain ⟨inU, plain⟩ := ih (pieces ▸ List.mem_cons_self) inHead
                exact ⟨List.mem_cons_of_mem _ inU, plain⟩
            · obtain ⟨inU, plain⟩ := ih (pieces ▸ List.mem_cons_of_mem _ later) mem
              exact ⟨List.mem_cons_of_mem _ inU, plain⟩

/-- The pieces and the separators between them make up the text. -/
theorem sum_length_splitOnP (sep : UInt8 → Bool) (u : List UInt8) :
    ((u.splitOnP sep).map fun t => t.length + 1).sum = u.length + 1 := by
  induction u with
  | nil => rfl
  | cons c u ih =>
      rw [List.splitOnP_cons_eq_if_modifyHead]
      split_ifs
      · rw [List.map_cons, List.sum_cons, ih]
        simp only [List.length_nil, List.length_cons]
        omega
      · cases pieces : u.splitOnP sep with
        | nil => exact absurd pieces (List.splitOnP_ne_nil sep u)
        | cons h t =>
            rw [pieces] at ih
            simp only [List.modifyHead_cons, List.map_cons, List.sum_cons, List.length_cons] at ih ⊢
            omega

theorem names_plain {t n : List UInt8} (name : n ∈ names t) : n ≠ [] ∧ slash ∉ n := by
  obtain ⟨piece, ne_nil⟩ := List.mem_filter.mp name
  refine ⟨of_decide_eq_true ne_nil, fun mem => ?_⟩
  exact absurd (mem_piece piece mem).2 (by simp)

end Pieces

section Resolve

variable {p q ns : List (List UInt8)} {n : List UInt8}

theorem resolve_append (p ns more : List (List UInt8)) :
    resolve p (ns ++ more) = resolve (resolve p ns) more := List.foldl_append

/-- Without the dots, names lead straight down. -/
theorem resolve_of_ne_dots (plain : ∀ n ∈ ns, n ≠ dotdot ∧ n ≠ [dot]) : resolve p ns = p ++ ns := by
  induction ns generalizing p with
  | nil => exact (List.append_nil p).symm
  | cons n ns ih =>
      obtain ⟨⟨ne_dotdot, ne_dot⟩, rest⟩ := List.forall_mem_cons.mp plain
      rw [resolve, List.foldl_cons, resolveName, if_neg ne_dotdot, if_neg ne_dot]
      exact (ih rest).trans (by rw [List.append_assoc]; rfl)

theorem resolve_of_names (named : ∀ n ∈ ns, Name n) : resolve p ns = p ++ ns :=
  resolve_of_ne_dots fun n mem => ⟨(named n mem).ne_dotdot, (named n mem).ne_dot⟩

/-- What is left was given, and it is neither of the dots. -/
theorem mem_resolve (given : n ∈ resolve p ns) : n ∈ p ∨ n ∈ ns ∧ n ≠ dotdot ∧ n ≠ [dot] := by
  induction ns generalizing p with
  | nil => exact .inl given
  | cons m ns ih =>
      rcases ih given with before | ⟨later, plain⟩
      · rw [resolveName] at before
        split_ifs at before with up stay
        · exact .inl (List.mem_of_mem_dropLast before)
        · exact .inl before
        · rcases List.mem_append.mp before with old | new
          · exact .inl old
          · obtain rfl := List.mem_singleton.mp new
            exact .inr ⟨List.mem_cons_self, up, stay⟩
      · exact .inr ⟨List.mem_cons_of_mem _ later, plain⟩

/-- The names never lead above the directory they start from. -/
def Stays (ns : List (List UInt8)) : Prop :=
  ∀ before after, ns = before ++ dotdot :: after → resolve [] before ≠ []

theorem stays_nil : Stays [] := by
  intro before after split
  simp at split

theorem stays_concat_iff :
    Stays (ns ++ [n]) ↔ Stays ns ∧ (n = dotdot → resolve [] ns ≠ []) := by
  constructor
  · intro stays
    refine ⟨fun before after split => ?_, ?_⟩
    · exact stays before (after ++ [n]) (by rw [split]; simp)
    · rintro rfl
      exact stays ns [] rfl
  · rintro ⟨stays, last⟩ before after split
    rcases List.eq_nil_or_concat after with rfl | ⟨after, m, rfl⟩
    · obtain ⟨rfl, same⟩ := List.append_inj' split rfl
      exact last (List.cons.inj same).1
    · rw [List.concat_eq_append, ← List.cons_append, ← List.append_assoc] at split
      exact stays before after (List.append_inj' split rfl).1

/-- Names that stay below a directory are resolved there as at the top; others end as if the
directory was not there. -/
theorem resolve_singleton (c : List UInt8) (ns : List (List UInt8)) :
    (Stays ns ∧ resolve [c] ns = c :: resolve [] ns) ∨
      (¬ Stays ns ∧ resolve [c] ns = resolve [] ns) := by
  induction ns using List.reverseRecOn with
  | nil => exact .inl ⟨stays_nil, rfl⟩
  | append_singleton ns n ih =>
      have step (p : List (List UInt8)) : resolve p (ns ++ [n]) = resolveName (resolve p ns) n :=
        resolve_append p ns [n]
      rw [step, step, stays_concat_iff]
      rcases ih with ⟨stays, below⟩ | ⟨climbs, same⟩
      · rw [below]
        by_cases up : n = dotdot
        · subst up
          rw [resolveName, resolveName, if_pos rfl, if_pos rfl]
          cases top : resolve [] ns with
          | nil => exact .inr ⟨fun both => both.2 rfl rfl, rfl⟩
          | cons m ms => exact .inl ⟨⟨stays, fun _ => List.cons_ne_nil m ms⟩, rfl⟩
        · refine .inl ⟨⟨stays, fun here => absurd here up⟩, ?_⟩
          rw [resolveName, resolveName, if_neg up, if_neg up]
          split_ifs <;> rfl
      · rw [same]
        exact .inr ⟨fun both => climbs both.1, rfl⟩

@[simp] theorem dirText_nil : dirText [] = [] := rfl

@[simp] theorem dirText_cons (n : List UInt8) (p : List (List UInt8)) :
    dirText (n :: p) = n ++ slash :: dirText p := by
  rw [dirText, List.flatMap_cons, List.append_assoc]
  rfl

@[simp] theorem dirText_append (p q : List (List UInt8)) :
    dirText (p ++ q) = dirText p ++ dirText q := List.flatMap_append

theorem length_dirText (p : List (List UInt8)) :
    (dirText p).length = (p.map fun n => n.length + 1).sum := by
  rw [dirText, List.length_flatMap]
  simp

/-- The text of a directory is empty or ends with a slash. -/
theorem getLast?_dirText (p : List (List UInt8)) :
    dirText p = [] ∨ (dirText p).getLast? = some slash := by
  rcases List.eq_nil_or_concat p with rfl | ⟨p, n, rfl⟩
  · exact .inl rfl
  · exact .inr (by simp)

theorem names_dirText_append (plain : ∀ n ∈ p, n ≠ [] ∧ slash ∉ n) (rest : List UInt8) :
    names (dirText p ++ rest) = p ++ names rest := by
  induction p with
  | nil => rfl
  | cons n p ih =>
      obtain ⟨⟨ne_nil, no_slash⟩, later⟩ := List.forall_mem_cons.mp plain
      rw [dirText_cons, List.append_assoc, List.cons_append, names_append_slash,
        names_of_no_slash ne_nil no_slash, ih later]
      rfl

theorem names_dirText (plain : ∀ n ∈ p, n ≠ [] ∧ slash ∉ n) : names (dirText p) = p := by
  rw [← List.append_nil (dirText p), names_dirText_append plain, names_nil, List.append_nil]

/-- A slash ends one of the names. -/
theorem eq_dirText_of_append (plain : ∀ n ∈ p, n ≠ [] ∧ slash ∉ n) {a b : List UInt8}
    (split : dirText p = a ++ slash :: b) :
    ∃ q r, p = q ++ r ∧ a ++ [slash] = dirText q ∧ b = dirText r := by
  induction p generalizing a with
  | nil => simp at split
  | cons n p ih =>
      obtain ⟨⟨-, no_slash⟩, later⟩ := List.forall_mem_cons.mp plain
      rw [dirText_cons] at split
      rcases List.append_eq_append_iff.mp split with ⟨a', rfl, behind⟩ | ⟨n', rfl, behind⟩
      · cases a' with
        | nil => exact ⟨[n], p, rfl, by simp, (List.cons.inj behind).2.symm⟩
        | cons c a' =>
            obtain ⟨rfl, rest⟩ := List.cons.inj behind
            obtain ⟨q, r, rfl, front, tail⟩ := ih later rest
            exact ⟨n :: q, r, rfl, by rw [dirText_cons, ← front]; simp, tail⟩
      · cases n' with
        | nil =>
            exact ⟨[a], p, by simp, by simp, (List.cons.inj behind).2⟩
        | cons c n' =>
            obtain ⟨rfl, -⟩ := List.cons.inj behind
            exact absurd (by simp) no_slash

/-- No two slashes stand next to each other in the text of a directory, and none at its front. -/
theorem dirText_ne (plain : ∀ n ∈ p, n ≠ [] ∧ slash ∉ n) :
    (∀ b, dirText p ≠ slash :: b) ∧ ∀ a b, dirText p ≠ a ++ slash :: slash :: b := by
  induction p with
  | nil => simp
  | cons n p ih =>
      obtain ⟨⟨ne_nil, no_slash⟩, later⟩ := List.forall_mem_cons.mp plain
      obtain ⟨front, inside⟩ := ih later
      rw [dirText_cons]
      refine ⟨fun b same => ?_, fun a b same => ?_⟩
      · obtain ⟨c, n, rfl⟩ := List.exists_cons_of_ne_nil ne_nil
        obtain ⟨rfl, -⟩ := List.cons.inj same
        exact no_slash List.mem_cons_self
      · rcases List.append_eq_append_iff.mp same with ⟨a', rfl, behind⟩ | ⟨n', rfl, behind⟩
        · cases a' with
          | nil => exact front _ (List.cons.inj behind).2
          | cons c a' => exact inside a' b (List.cons.inj behind).2
        · cases n' with
          | nil => exact front _ (List.cons.inj behind).2.symm
          | cons c n' =>
              obtain ⟨rfl, -⟩ := List.cons.inj behind
              exact no_slash (by simp)

end Resolve

/-! ## Lengths -/

section Length

variable {p ns : List (List UInt8)}

/-- Without the empty pieces a text gets at most one slash longer. -/
theorem length_dirText_names (t : List UInt8) : (dirText (names t)).length ≤ t.length + 1 := by
  rw [length_dirText, ← sum_length_splitOnP (· == slash) t, names]
  exact List.Sublist.sum_le_sum (List.filter_sublist.map _) (by simp)

/-- A text that ends with a slash does not get longer. -/
theorem length_dirText_names_of_slash {t : List UInt8} (ends : t = [] ∨ t.getLast? = some slash) :
    (dirText (names t)).length ≤ t.length := by
  rcases ends with rfl | ends
  · exact Nat.le_refl 0
  · obtain ⟨front, rfl⟩ := List.getLast?_eq_some_iff.mp ends
    rw [names_append_last, List.length_append]
    exact length_dirText_names front

/-- Resolving takes names away. -/
theorem length_dirText_resolve :
    (dirText (resolve p ns)).length ≤ (dirText p).length + (dirText ns).length := by
  induction ns generalizing p with
  | nil => exact Nat.le_add_right _ _
  | cons n ns ih =>
      have one : (dirText (resolveName p n)).length ≤ (dirText p).length + (n.length + 1) := by
        rw [resolveName]
        split_ifs
        · refine Nat.le_trans ?_ (Nat.le_add_right _ _)
          rw [length_dirText, length_dirText]
          exact List.Sublist.sum_le_sum ((List.dropLast_sublist p).map _) (by simp)
        · exact Nat.le_add_right _ _
        · simp
      have rest : (dirText (resolve p (n :: ns))).length ≤ _ := @ih (resolveName p n)
      rw [dirText_cons, List.length_append, List.length_cons]
      omega

end Length

end FujiNet.Posix
