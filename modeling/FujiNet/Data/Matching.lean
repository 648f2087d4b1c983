import Mathlib.Data.Set.Card
import Mathlib.Data.Set.Finite.Range
import Mathlib.Logic.Function.Basic

/-!
# Partial maps with the same values

Two partial maps have the same values, each as often, when their entries can be
matched one to one. Which entry is matched with which does not matter: an entry may
be removed from one map together with any entry of the other that has the same
value.

Nothing in this file mentions a particular program or protocol.
-/

namespace FujiNet

variable {α β ι : Type*}

/-- The entry at `a` is matched with the one at `owner a`. -/
structure Matching (f : α → Option ι) (g : β → Option ι) (owner : α → β) : Prop where
  value : ∀ {a i}, f a = some i → g (owner a) = some i
  injective : ∀ {a a' i i'}, f a = some i → f a' = some i' → owner a = owner a' → a = a'
  covers : ∀ {b i}, g b = some i → ∃ a, f a = some i ∧ owner a = b

/-- The entries of the two maps can be matched. -/
def SameValues (f : α → Option ι) (g : β → Option ι) : Prop := ∃ owner, Matching f g owner

namespace SameValues

variable {f : α → Option ι} {g : β → Option ι} {a : α} {b : β} {i : ι}

theorem of_empty (hf : ∀ a, f a = none) (hg : ∀ b, g b = none) [Nonempty β] : SameValues f g := by
  refine ⟨fun _ => Classical.arbitrary β, ?_, ?_, ?_⟩
  · intro a i entry
    simp [hf] at entry
  · intro a a' i i' entry
    simp [hf] at entry
  · intro b i entry
    simp [hg] at entry

/-- Each value of one map is one of the other. -/
theorem exists_entry (same : SameValues f g) (entry : g b = some i) : ∃ a, f a = some i := by
  obtain ⟨owner, matching⟩ := same
  obtain ⟨a, value, -⟩ := matching.covers entry
  exact ⟨a, value⟩

theorem ncard_eq (same : SameValues f g) :
    {a | (f a).isSome}.ncard = {b | (g b).isSome}.ncard := by
  obtain ⟨owner, matching⟩ := same
  refine Set.ncard_congr (fun a _ => owner a) ?_ ?_ ?_
  · intro a entry
    obtain ⟨i, entry⟩ := Option.isSome_iff_exists.mp entry
    exact Option.isSome_iff_exists.mpr ⟨i, matching.value entry⟩
  · intro a a' entry entry'
    obtain ⟨i, entry⟩ := Option.isSome_iff_exists.mp entry
    obtain ⟨i', entry'⟩ := Option.isSome_iff_exists.mp entry'
    exact matching.injective entry entry'
  · intro b entry
    obtain ⟨i, entry⟩ := Option.isSome_iff_exists.mp entry
    obtain ⟨a, value, owned⟩ := matching.covers entry
    exact ⟨a, Option.isSome_iff_exists.mpr ⟨i, value⟩, owned⟩

/-- The entries of a map from a finite type and those of two maps side by side. -/
theorem ncard_eq_add {γ : Type*} {l : γ → Option ι} [Finite α] (same : SameValues f (Sum.elim g l)) :
    {a | (f a).isSome}.ncard = {b | (g b).isSome}.ncard + {c | (l c).isSome}.ncard := by
  have finite : {d | (Sum.elim g l d).isSome}.Finite := by
    obtain ⟨owner, matching⟩ := same
    refine (Set.finite_range owner).subset ?_
    intro d entry
    obtain ⟨i, entry⟩ := Option.isSome_iff_exists.mp entry
    obtain ⟨a, -, owned⟩ := matching.covers entry
    exact ⟨a, owned⟩
  have sides : {d | (Sum.elim g l d).isSome} =
      Sum.inl '' {b | (g b).isSome} ∪ Sum.inr '' {c | (l c).isSome} := by
    ext d
    cases d <;> simp
  have finiteSides := Set.finite_union.mp (sides ▸ finite)
  calc {a | (f a).isSome}.ncard
      = (Sum.inl '' {b | (g b).isSome} ∪ Sum.inr '' {c | (l c).isSome}).ncard := by
        rw [same.ncard_eq, sides]
    _ = (Sum.inl '' {b | (g b).isSome}).ncard + (Sum.inr '' {c | (l c).isSome}).ncard :=
        Set.ncard_union_eq Set.disjoint_image_inl_image_inr finiteSides.1 finiteSides.2
    _ = {b | (g b).isSome}.ncard + {c | (l c).isSome}.ncard := by
        rw [Set.ncard_image_of_injective _ Sum.inl_injective,
          Set.ncard_image_of_injective _ Sum.inr_injective]

variable [DecidableEq α] [DecidableEq β]

/-- A new entry on both sides. -/
theorem insert (same : SameValues f g) (freeA : f a = none) (freeB : g b = none) (i : ι) :
    SameValues (Function.update f a (some i)) (Function.update g b (some i)) := by
  obtain ⟨owner, matching⟩ := same
  have apart : ∀ {a' i'}, f a' = some i' → a' ≠ a ∧ owner a' ≠ b := by
    intro a' i' entry
    constructor
    · rintro rfl
      simp [freeA] at entry
    · intro same
      have value := matching.value entry
      simp [same, freeB] at value
  have entries : ∀ {a' i'}, Function.update f a (some i) a' = some i' →
      a' = a ∧ i' = i ∨ f a' = some i' ∧ a' ≠ a := by
    intro a' i' entry
    by_cases new : a' = a
    · rw [new, Function.update_self, Option.some.injEq] at entry
      exact .inl ⟨new, entry.symm⟩
    · rw [Function.update_of_ne new] at entry
      exact .inr ⟨entry, new⟩
  refine ⟨Function.update owner a b, ?_, ?_, ?_⟩
  · intro a' i' entry
    obtain ⟨rfl, rfl⟩ | ⟨old, ne⟩ := entries entry
    · rw [Function.update_self, Function.update_self]
    · rw [Function.update_of_ne ne, Function.update_of_ne (apart old).2]
      exact matching.value old
  · intro a₁ a₂ i₁ i₂ entry₁ entry₂ equal
    obtain ⟨rfl, rfl⟩ | ⟨old₁, ne₁⟩ := entries entry₁ <;>
      obtain ⟨rfl, rfl⟩ | ⟨old₂, ne₂⟩ := entries entry₂
    · rfl
    · rw [Function.update_self, Function.update_of_ne ne₂] at equal
      exact absurd equal.symm (apart old₂).2
    · rw [Function.update_self, Function.update_of_ne ne₁] at equal
      exact absurd equal (apart old₁).2
    · rw [Function.update_of_ne ne₁, Function.update_of_ne ne₂] at equal
      exact matching.injective old₁ old₂ equal
  · intro b' i' entry
    by_cases new : b' = b
    · rw [new, Function.update_self, Option.some.injEq] at entry
      refine ⟨a, ?_, ?_⟩
      · rw [Function.update_self, entry]
      · rw [Function.update_self, new]
    · rw [Function.update_of_ne new] at entry
      obtain ⟨a', value, owned⟩ := matching.covers entry
      refine ⟨a', ?_, ?_⟩
      · rw [Function.update_of_ne (apart value).1, value]
      · rw [Function.update_of_ne (apart value).1, owned]

/-- Two entries with the same value are removed. If they were not matched, their partners
are. -/
theorem erase (same : SameValues f g) (entryA : f a = some i) (entryB : g b = some i) :
    SameValues (Function.update f a none) (Function.update g b none) := by
  obtain ⟨owner, matching⟩ := same
  obtain ⟨partner, partnerValue, partnerOwner⟩ := matching.covers entryB
  have entries : ∀ {a' i'}, Function.update f a none a' = some i' → f a' = some i' ∧ a' ≠ a := by
    intro a' i' entry
    by_cases removed : a' = a
    · simp [removed] at entry
    · rw [Function.update_of_ne removed] at entry
      exact ⟨entry, removed⟩
  have elsewhere : ∀ {a' i'}, f a' = some i' → a' ≠ partner → owner a' ≠ b := by
    intro a' i' entry ne owned
    exact ne (matching.injective entry partnerValue (owned.trans partnerOwner.symm))
  refine ⟨Function.update owner partner (owner a), ?_, ?_, ?_⟩
  · intro a' i' entry
    obtain ⟨old, ne⟩ := entries entry
    by_cases swapped : a' = partner
    · have value : i = i' := by
        rw [swapped, partnerValue] at old
        exact Option.some.inj old
      rw [swapped, Function.update_self, Function.update_of_ne, ← value]
      · exact matching.value entryA
      · exact elsewhere entryA (swapped ▸ ne.symm)
    · rw [Function.update_of_ne swapped, Function.update_of_ne (elsewhere old swapped)]
      exact matching.value old
  · intro a₁ a₂ i₁ i₂ entry₁ entry₂ equal
    obtain ⟨old₁, ne₁⟩ := entries entry₁
    obtain ⟨old₂, ne₂⟩ := entries entry₂
    by_cases swapped₁ : a₁ = partner <;> by_cases swapped₂ : a₂ = partner
    · rw [swapped₁, swapped₂]
    · rw [swapped₁, Function.update_self, Function.update_of_ne swapped₂] at equal
      exact absurd (matching.injective old₂ entryA equal.symm) ne₂
    · rw [swapped₂, Function.update_self, Function.update_of_ne swapped₁] at equal
      exact absurd (matching.injective old₁ entryA equal) ne₁
    · rw [Function.update_of_ne swapped₁, Function.update_of_ne swapped₂] at equal
      exact matching.injective old₁ old₂ equal
  · intro b' i' entry
    have kept : b' ≠ b := by
      rintro rfl
      simp at entry
    rw [Function.update_of_ne kept] at entry
    obtain ⟨a', value, owned⟩ := matching.covers entry
    by_cases removed : a' = a
    · have ne : partner ≠ a := by
        rintro rfl
        exact kept (owned.symm.trans ((congrArg owner removed).trans partnerOwner))
      refine ⟨partner, ?_, ?_⟩
      · rw [Function.update_of_ne ne, partnerValue, ← entryA, ← removed, value]
      · rw [Function.update_self, ← removed, owned]
    · have ne : a' ≠ partner := by
        rintro rfl
        exact kept (owned.symm.trans partnerOwner)
      refine ⟨a', ?_, ?_⟩
      · rw [Function.update_of_ne removed, value]
      · rw [Function.update_of_ne ne, owned]

/-- An entry goes to another place. -/
theorem move {b' : β} (same : SameValues f g) (entry : g b = some i) (free : g b' = none) :
    SameValues f (Function.update (Function.update g b none) b' (some i)) := by
  obtain ⟨a, value⟩ := same.exists_entry entry
  have elsewhere : b' ≠ b := by
    rintro rfl
    simp [free] at entry
  have moved := (same.erase value entry).insert (Function.update_self a none f)
    ((Function.update_of_ne elsewhere _ _).trans free) i
  rwa [Function.update_idem, ← value, Function.update_eq_self, value] at moved

end SameValues

end FujiNet
