import Mathlib.Data.List.Count

/-!
# Objects with one owner

Objects are numbered in the order in which they are made. A component that holds at most one of them
and deletes it before it takes the next leaves every other object deleted exactly once.
-/

namespace FujiNet

/-- How many objects were made, and the deletions. -/
structure Objects where
  made : Nat := 0
  deleted : List Nat := []
deriving DecidableEq

namespace Objects

def make (o : Objects) : Nat × Objects := (o.made, { o with made := o.made + 1 })

def delete (id : Nat) (o : Objects) : Objects := { o with deleted := id :: o.deleted }

/-- The owner's object was made and is not deleted; every other one is deleted exactly once. -/
structure Owned (owner : Option Nat) (o : Objects) : Prop where
  made : ∀ id ∈ owner, id < o.made
  once : ∀ id, o.deleted.count id = if id < o.made ∧ owner ≠ some id then 1 else 0

variable {o : Objects} {id : Nat}

theorem owned_initial : Owned none {} where
  made := fun _ held => nomatch held
  once := fun id => by simp

theorem Owned.not_mem (owned : Owned (some id) o) : id ∉ o.deleted := by
  rw [← List.count_eq_zero, owned.once id, if_neg (fun h => h.2 rfl)]

theorem Owned.make (owned : Owned none o) : Owned (some o.make.1) o.make.2 where
  made := fun _ held => Option.some.inj held ▸ Nat.lt_succ_self _
  once := by
    intro id
    refine (owned.once id).trans (if_congr ?_ rfl rfl)
    rw [Objects.make, and_iff_left (by simp), Ne, Option.some.injEq]
    dsimp only
    omega

theorem Owned.delete (owned : Owned (some id) o) : Owned none (o.delete id) where
  made := fun _ held => nomatch held
  once := by
    intro id'
    have before := owned.once id'
    rw [Objects.delete, List.count_cons]
    by_cases same : id = id'
    · subst same
      rw [if_neg (fun h => h.2 rfl)] at before
      simp [before, owned.made id rfl]
    · simp [before, same]

/-- An owner who takes another object leaves its own undeleted. -/
theorem Owned.not_make (owned : Owned (some id) o) : ¬ Owned (some o.make.1) o.make.2 := by
  intro taken
  have lt := owned.made id rfl
  have lost := taken.once id
  rw [Objects.make, if_pos ⟨Nat.lt_succ_of_lt lt, fun same => Nat.ne_of_gt lt (Option.some.inj same)⟩,
    owned.once id, if_neg (fun h => h.2 rfl)] at lost
  exact nomatch lost

end Objects

end FujiNet
