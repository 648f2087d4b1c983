import Mathlib.Order.RelClasses
import Mathlib.Data.List.Pairwise

/-!
# Maps kept in key order

A finite map as the list of its entries in strictly increasing key order, the
view an ordered container gives to its user: assignment replaces or inserts, and
the first entry is the one with the least key. The order of the keys is part of
the type, so every value of `OrderedMap` has at most one entry for a key.
-/

namespace FujiNet

/-- Entries in strictly increasing key order. -/
structure OrderedMap (κ β : Type*) [LT κ] where
  entries : List (κ × β)
  sorted : entries.Pairwise fun a b => a.1 < b.1

namespace OrderedMap

variable {κ β : Type*} [LT κ] [DecidableLT κ]

def empty : OrderedMap κ β := ⟨[], .nil⟩

/-- Replace the entry of `k`, or insert one at its place in the order. -/
def assignEntry (k : κ) (v : β) : List (κ × β) → List (κ × β)
  | [] => [(k, v)]
  | e :: es =>
    if k < e.1 then (k, v) :: e :: es
    else if e.1 < k then e :: assignEntry k v es
    else (k, v) :: es

theorem mem_assignEntry_imp {k : κ} {v : β} {es : List (κ × β)} {e : κ × β}
    (h : e ∈ assignEntry k v es) : e = (k, v) ∨ e ∈ es := by
  induction es with
  | nil => simpa [assignEntry] using h
  | cons e' es ih =>
      simp only [assignEntry] at h
      split at h
      · simpa using h
      · split at h
        · rcases List.mem_cons.mp h with rfl | h
          · simp
          · rcases ih h with h | h <;> simp [h]
        · rcases List.mem_cons.mp h with h | h <;> simp [h]

variable [IsStrictTotalOrder κ (· < ·)]

theorem pairwise_assignEntry (k : κ) (v : β) {es : List (κ × β)}
    (h : es.Pairwise fun a b => a.1 < b.1) :
    (assignEntry k v es).Pairwise fun a b => a.1 < b.1 := by
  induction es with
  | nil => simp [assignEntry]
  | cons e es ih =>
      obtain ⟨first, rest⟩ := List.pairwise_cons.mp h
      simp only [assignEntry]
      split
      · rename_i before
        refine List.pairwise_cons.mpr ⟨?_, h⟩
        rintro a ha
        rcases List.mem_cons.mp ha with rfl | ha
        · exact before
        · exact trans_of (· < ·) before (first a ha)
      · rename_i notBefore
        split
        · rename_i after
          refine List.pairwise_cons.mpr ⟨fun a ha => ?_, ih rest⟩
          rcases mem_assignEntry_imp ha with rfl | ha
          · exact after
          · exact first a ha
        · rename_i notAfter
          have same : k = e.1 := by
            rcases trichotomous_of (· < ·) k e.1 with h | h | h
            · exact absurd h notBefore
            · exact h
            · exact absurd h notAfter
          refine List.pairwise_cons.mpr ⟨fun a ha => ?_, rest⟩
          simpa only [same] using first a ha

/-- Assignment of `v` to the key `k`. -/
def assign (m : OrderedMap κ β) (k : κ) (v : β) : OrderedMap κ β :=
  ⟨assignEntry k v m.entries, pairwise_assignEntry k v m.sorted⟩

/-- All entries but the first. -/
def eraseFirst (m : OrderedMap κ β) : OrderedMap κ β := ⟨m.entries.tail, m.sorted.tail⟩

omit [DecidableLT κ] [IsStrictTotalOrder κ (· < ·)] in
@[simp] theorem entries_empty : (empty : OrderedMap κ β).entries = [] := rfl

theorem mem_assign_iff (m : OrderedMap κ β) (k : κ) (v : β) (e : κ × β) :
    e ∈ (m.assign k v).entries ↔ e = (k, v) ∨ (e.1 ≠ k ∧ e ∈ m.entries) := by
  obtain ⟨es, sorted⟩ := m
  change e ∈ assignEntry k v es ↔ _
  induction es with
  | nil => simp [assignEntry]
  | cons e' es ih =>
      obtain ⟨first, rest⟩ := List.pairwise_cons.mp sorted
      have irr := irrefl_of ((· < ·) : κ → κ → Prop)
      simp only [assignEntry]
      split
      · rename_i before
        -- every old key is above `k`, so nothing is replaced
        have apart : ∀ a ∈ e' :: es, a.1 ≠ k := by
          rintro a ha rfl
          rcases List.mem_cons.mp ha with rfl | ha
          · exact irr _ before
          · exact irr _ (trans_of (· < ·) before (first a ha))
        rw [List.mem_cons]
        exact or_congr_right ⟨fun h => ⟨apart e h, h⟩, fun h => h.2⟩
      · rename_i notBefore
        split
        · rename_i after
          have apart : e'.1 ≠ k := by
            rintro rfl
            exact irr _ after
          rw [List.mem_cons, ih rest, List.mem_cons]
          constructor
          · rintro (rfl | rfl | ⟨h, hmem⟩)
            · exact .inr ⟨apart, .inl rfl⟩
            · exact .inl rfl
            · exact .inr ⟨h, .inr hmem⟩
          · rintro (rfl | ⟨h, rfl | hmem⟩)
            · exact .inr (.inl rfl)
            · exact .inl rfl
            · exact .inr (.inr ⟨h, hmem⟩)
        · rename_i notAfter
          have same : e'.1 = k := by
            rcases trichotomous_of (· < ·) k e'.1 with h | h | h
            · exact absurd h notBefore
            · exact h.symm
            · exact absurd h notAfter
          rw [List.mem_cons, List.mem_cons]
          constructor
          · rintro (rfl | hmem)
            · exact .inl rfl
            · refine .inr ⟨?_, .inr hmem⟩
              rintro rfl
              exact irr _ (same ▸ first e hmem)
          · rintro (rfl | ⟨h, rfl | hmem⟩)
            · exact .inl rfl
            · exact absurd same h
            · exact .inr hmem

theorem assignEntry_of_forall_lt {k : κ} (v : β) {es : List (κ × β)} (h : ∀ e ∈ es, e.1 < k) :
    assignEntry k v es = es ++ [(k, v)] := by
  induction es with
  | nil => rfl
  | cons e es ih =>
      have below : e.1 < k := h e (by simp)
      have notBefore : ¬ k < e.1 := fun hk => irrefl_of (· < ·) k (trans_of (· < ·) hk below)
      simp only [assignEntry, if_neg notBefore, if_pos below, List.cons_append]
      rw [ih fun e' he' => h e' (List.mem_cons_of_mem _ he')]

/-- A key above all others goes to the end: nothing is overtaken or replaced. -/
theorem entries_assign_of_forall_lt {m : OrderedMap κ β} {k : κ} (v : β)
    (h : ∀ e ∈ m.entries, e.1 < k) : (m.assign k v).entries = m.entries ++ [(k, v)] :=
  assignEntry_of_forall_lt v h

end OrderedMap

/-- Bytes are ordered by their values. -/
instance isStrictTotalOrderUInt8 : IsStrictTotalOrder UInt8 (· < ·) where
  irrefl a := by simp
  trans a b c := by
    simp only [UInt8.lt_iff_toNat_lt]
    omega
  trichotomous a b := by
    simp only [UInt8.lt_iff_toNat_lt, ← UInt8.toNat_inj]
    omega

end FujiNet
