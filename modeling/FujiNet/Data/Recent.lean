import Mathlib.Data.List.Nodup

/-!
# Keys by their last use

A history lists the uses of keys with the values that they got, the last one first. `recent` keeps of
each key the last use, so that a key that is used again moves to the front.
-/

namespace FujiNet

variable {κ α : Type*} [DecidableEq κ]

/-- The last use of each key, from the one used last to the one used first. -/
def recent : List (κ × α) → List (κ × α)
  | [] => []
  | e :: history => e :: (recent history).filter (·.1 ≠ e.1)

/-- Each key is there once. -/
theorem nodup_keys_recent (history : List (κ × α)) : ((recent history).map Prod.fst).Nodup := by
  induction history with
  | nil => exact .nil
  | cons e history ih =>
      rw [recent, List.map_cons, List.nodup_cons]
      refine ⟨?_, ih.sublist (List.filter_sublist.map _)⟩
      simp

/-- A key comes with the value that it got last. -/
theorem lookup_of_mem_recent [BEq κ] [LawfulBEq κ] {e : κ × α} {history : List (κ × α)} (mem : e ∈ recent history) :
    history.lookup e.1 = some e.2 := by
  induction history with
  | nil => exact absurd mem List.not_mem_nil
  | cons e' history ih =>
      rw [recent, List.mem_cons, List.mem_filter, decide_eq_true_eq] at mem
      rcases mem with rfl | ⟨mem, other⟩
      · exact List.lookup_cons_self
      · rw [List.lookup_cons, beq_false_of_ne other]
        exact ih mem

/-- The place of a key, or the length of the list. -/
def place (k : κ) (l : List (κ × α)) : Nat := l.findIdx (·.1 = k)

/-- Where each key is there once, the place of a key is the one where it is. -/
theorem place_eq {l : List (κ × α)} (nodup : (l.map Prod.fst).Nodup) {k : Nat} {e : κ × α}
    (here : l[k]? = some e) : place e.1 l = k := by
  induction l generalizing k with
  | nil => exact nomatch here
  | cons e' l ih =>
      rw [List.map_cons, List.nodup_cons] at nodup
      rw [place, List.findIdx_cons]
      cases k with
      | zero =>
          obtain rfl : e' = e := Option.some.inj here
          rw [decide_eq_true rfl]
          rfl
      | succ k =>
          have mem : e ∈ l := List.mem_of_getElem? here
          have ne : e'.1 ≠ e.1 := fun same => nodup.1 (same ▸ List.mem_map_of_mem mem)
          rw [decide_eq_false ne]
          exact congrArg (· + 1) (ih nodup.2 here)

/-- What is at the place of a key has the key. -/
theorem getElem?_place {k : κ} {l : List (κ × α)} (lt : place k l < l.length) :
    ∃ e, l[place k l]? = some e ∧ e.1 = k :=
  ⟨_, List.getElem?_eq_getElem lt, of_decide_eq_true (List.findIdx_getElem (w := lt))⟩

/-- Where each key is there once, leaving out a key leaves out its place. -/
theorem filter_eq_eraseIdx (k : κ) {l : List (κ × α)} (nodup : (l.map Prod.fst).Nodup) :
    l.filter (·.1 ≠ k) = l.eraseIdx (place k l) := by
  induction l with
  | nil => rfl
  | cons e l ih =>
      rw [List.map_cons, List.nodup_cons] at nodup
      rw [place, List.findIdx_cons]
      by_cases same : e.1 = k
      · have absent : ∀ e' ∈ l, e'.1 ≠ k := by
          rintro e' mem rfl
          exact nodup.1 (same ▸ List.mem_map_of_mem mem)
        rw [List.filter_cons_of_neg (by simpa using same), decide_eq_true same]
        exact List.filter_eq_self.mpr fun e' mem => decide_eq_true (absent e' mem)
      · rw [List.filter_cons_of_pos (by simpa using same), decide_eq_false same, ih nodup.2]
        rfl

end FujiNet
