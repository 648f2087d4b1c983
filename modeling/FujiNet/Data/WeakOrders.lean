import Mathlib.Data.List.Sort
import Mathlib.Data.Prod.Lex
import Mathlib.Order.RelClasses

/-!
# Sorting by keys

A sort takes a comparison that must be a strict weak order. A comparison is one when it compares
keys from a linear order. `byGroup` puts one group in front of the other, which is to compare pairs
lexicographically.
-/

namespace FujiNet

variable {α κ : Type*} [LinearOrder κ]

/-- The sort permutes, and puts nothing behind what should come after it. -/
def SortsWeakOrders (sort : (α → α → Bool) → List α → List α) : Prop :=
  ∀ less : α → α → Bool, IsStrictWeakOrder α (fun a b => less a b = true) → ∀ xs,
    (sort less xs).Perm xs ∧ (sort less xs).Pairwise fun a b => less b a = false

theorem isStrictWeakOrder_of_key {less : α → α → Bool} (key : α → κ)
    (compares : ∀ a b, less a b = true ↔ key a < key b) :
    IsStrictWeakOrder α (fun a b => less a b = true) := by
  have same : (fun a b => less a b = true) = Order.Preimage key (· < ·) := by
    funext a b
    exact propext (compares a b)
  have ofKeys : IsStrictWeakOrder κ (· < ·) := isStrictWeakOrder_of_isOrderConnected
  rw [same]
  infer_instance

/-- What is sorted by a key is in the order of the key. -/
theorem SortsWeakOrders.of_key {sort : (α → α → Bool) → List α → List α}
    (sorts : SortsWeakOrders sort) {less : α → α → Bool} (key : α → κ)
    (compares : ∀ a b, less a b = true ↔ key a < key b) (xs : List α) :
    (sort less xs).Perm xs ∧ (sort less xs).Pairwise fun a b => key a ≤ key b := by
  obtain ⟨perm, sorted⟩ := sorts less (isStrictWeakOrder_of_key key compares) xs
  refine ⟨perm, sorted.imp fun {a b} notLess => ?_⟩
  rw [← not_lt, ← compares, notLess]
  exact Bool.false_ne_true

/-- A merge sort. -/
theorem sortsWeakOrders_mergeSort :
    SortsWeakOrders fun (less : α → α → Bool) xs => xs.mergeSort fun a b => !less b a := by
  intro less order xs
  refine ⟨List.mergeSort_perm _ _, ?_⟩
  have trans (a b c : α) (ab : (!less b a) = true) (bc : (!less c b) = true) :
      (!less c a) = true := by
    rw [Bool.not_eq_true'] at ab bc ⊢
    by_contra ca
    rw [Bool.not_eq_false] at ca
    -- `b` would be incomparable to both
    by_cases ba : less b c = true
    · exact absurd (order.trans b c a ba ca) (by rw [ab]; exact Bool.false_ne_true)
    · by_cases ac : less a b = true
      · exact absurd (order.trans c a b ca ac) (by rw [bc]; exact Bool.false_ne_true)
      · exact (order.incomp_trans c b a ⟨by rw [bc]; exact Bool.false_ne_true, ba⟩
          ⟨by rw [ab]; exact Bool.false_ne_true, ac⟩).1 ca
  have total (a b : α) : ((!less b a) || !less a b) = true := by
    cases ba : less b a with
    | false => rfl
    | true =>
        have ab : less a b = false := by
          rw [← Bool.not_eq_true]
          exact fun ab => order.irrefl a (order.trans a b a ab ba)
        rw [ab]
        rfl
  exact (List.pairwise_mergeSort trans total xs).imp fun h => by
    rw [Bool.not_eq_true'] at h
    exact h

/-- One group in front of the other, and within each group `before`. -/
def byGroup (first : α → Bool) (before : α → α → Bool) (a b : α) : Bool :=
  if first a == first b then before a b else first a

variable {first : α → Bool} {before : α → α → Bool} {key : α → κ}

theorem byGroup_iff (compares : ∀ a b, before a b = true ↔ key a < key b) (a b : α) :
    byGroup first before a b = true ↔ toLex (!first a, key a) < toLex (!first b, key b) := by
  rw [byGroup, Prod.Lex.toLex_lt_toLex]
  cases first a <;> cases first b <;> simp [compares]

theorem toLex_group_le_iff (a b : α) : toLex (!first a, key a) ≤ toLex (!first b, key b) ↔
    (first a = false → first b = false) ∧ (first a = first b → key a ≤ key b) := by
  rw [Prod.Lex.toLex_le_toLex]
  cases first a <;> cases first b <;> simp

end FujiNet
