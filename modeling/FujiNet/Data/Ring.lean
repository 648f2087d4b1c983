import Mathlib.Data.List.Basic
import Mathlib.Data.Nat.ModEq

/-!
# Queues and rings

A bounded queue drops its oldest item when a further one comes in. A ring keeps the items of a queue
in a vector, from one position on and from the start again behind the end: `segment` is the list of
the items that lie behind a position.
-/

namespace FujiNet

/-- A queue for at most `capacity` items, the oldest in front. -/
structure BoundedQueue (α : Type*) (capacity : Nat) where
  items : List α
  bounded : items.length ≤ capacity

namespace BoundedQueue

variable {α : Type*} {capacity : Nat}

def empty : BoundedQueue α capacity := ⟨[], Nat.zero_le _⟩

/-- A further item; tells whether the oldest one is dropped for it. -/
def put (x : α) (q : BoundedQueue α capacity) : Bool × BoundedQueue α capacity :=
  if full : q.items.length = capacity then
    (true, ⟨(q.items ++ [x]).tail, by
      rw [List.length_tail, List.length_append, List.length_singleton, Nat.add_sub_cancel]
      exact q.bounded⟩)
  else
    (false, ⟨q.items ++ [x], by
      rw [List.length_append, List.length_singleton]
      exact Nat.lt_of_le_of_ne q.bounded full⟩)

/-- The oldest item is taken out. -/
def get (q : BoundedQueue α capacity) : Option α × BoundedQueue α capacity :=
  (q.items.head?, ⟨q.items.tail, by
    rw [List.length_tail]
    exact Nat.le_trans (Nat.sub_le _ _) q.bounded⟩)

end BoundedQueue

/-! ## Rings -/

section Ring

variable {α : Type*} {n : Nat} [NeZero n]

/-- The item at a position, counted around the ring. -/
def ringItem (v : Vector α n) (i : Nat) : α :=
  v.get ⟨i % n, Nat.mod_lt i (Nat.pos_of_ne_zero (NeZero.ne n))⟩

/-- The next `len` items from a position on. -/
def segment (v : Vector α n) (tail len : Nat) : List α :=
  (List.range len).map fun i => ringItem v (tail + i)

variable {v : Vector α n} {tail head len i : Nat} {x : α}

theorem ringItem_mod : ringItem v (i % n) = ringItem v i := by
  simp only [ringItem, Nat.mod_mod]

theorem segment_mod : segment v (tail % n) len = segment v tail len := by
  refine List.map_congr_left fun i _ => ?_
  rw [← ringItem_mod, Nat.mod_add_mod, ringItem_mod]

theorem length_segment : (segment v tail len).length = len := by
  rw [segment, List.length_map, List.length_range]

theorem segment_succ :
    segment v tail (len + 1) = segment v tail len ++ [ringItem v (tail + len)] := by
  rw [segment, List.range_succ, List.map_append, segment]
  rfl

theorem segment_eq_cons :
    segment v tail (len + 1) = ringItem v tail :: segment v (tail + 1) len := by
  rw [segment, List.range_succ_eq_map, List.map_cons, List.map_map, segment]
  congr 1
  refine List.map_congr_left fun i _ => ?_
  rw [Function.comp_apply, Nat.add_assoc, Nat.add_comm 1]

theorem ringItem_set (lt : head < n) :
    ringItem (v.set head x lt) i = if head = i % n then x else ringItem v i :=
  Vector.getElem_set ..

/-- An item that is stored behind the last one joins the others. -/
theorem segment_set (lt : head < n) (behind : head = (tail + len) % n) (room : len < n) :
    segment (v.set head x lt) tail (len + 1) = segment v tail len ++ [x] := by
  rw [segment_succ, ringItem_set, if_pos behind]
  congr 1
  refine List.map_congr_left fun i mem => ?_
  have before : i < len := List.mem_range.mp mem
  rw [ringItem_set, if_neg]
  intro same
  have close : tail + len ≡ tail + i [MOD n] := behind.symm.trans same
  have eq := Nat.ModEq.eq_of_lt_of_lt (Nat.ModEq.add_left_cancel' tail close) room
    (Nat.lt_trans before room)
  exact absurd eq (Nat.ne_of_gt before)

end Ring

end FujiNet
