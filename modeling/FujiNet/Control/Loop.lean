import Mathlib.Logic.Relation

/-!
# Loops with a pass function

A loop is given by what one pass of its body does: go round again with a new
state, leave with a result, or not return at all (`none`, when something the body
calls does not return). `Loop.run` performs at most `fuel` passes and reports
`none` when they do not suffice, so an exhausted budget is never a result.

`Loop.Reaches` lists the states at the head of the loop. Safety properties of a
loop are statements about these states; `Loop.run_total` is the total-correctness
rule, an invariant together with a decreasing natural variant.
-/

namespace FujiNet.Loop

variable {σ β : Type*} {body : σ → Option (σ ⊕ β)} {s t : σ} {b : β} {fuel : Nat}

/-- Perform at most `fuel` passes of `body`. -/
def run (body : σ → Option (σ ⊕ β)) : Nat → σ → Option β
  | 0, _ => none
  | fuel + 1, s =>
    match body s with
    | none => none
    | some (.inl s) => run body fuel s
    | some (.inr b) => some b

theorem run_succ_inl (h : body s = some (.inl t)) :
    run body (fuel + 1) s = run body fuel t := by
  simp only [run, h]

theorem run_succ_inr (h : body s = some (.inr b)) : run body (fuel + 1) s = some b := by
  simp only [run, h]

/-- More fuel does not change the result. -/
theorem run_mono {more : Nat} (h : run body fuel s = some b) (le : fuel ≤ more) :
    run body more s = some b := by
  induction fuel generalizing s more with
  | zero => simp [run] at h
  | succ fuel ih =>
      obtain ⟨more, rfl⟩ : ∃ m, more = m + 1 := ⟨more - 1, by omega⟩
      cases hbody : body s with
      | none => simp [run, hbody] at h
      | some next =>
          cases next with
          | inl t =>
              rw [run_succ_inl hbody] at h ⊢
              exact ih h (Nat.le_of_succ_le_succ le)
          | inr b' =>
              rw [run_succ_inr hbody] at h ⊢
              exact h

/-- A loop has one result. -/
theorem run_unique {other : Nat} {c : β} (h : run body fuel s = some b)
    (h' : run body other s = some c) : b = c := by
  have left := run_mono h (Nat.le_max_left fuel other)
  have right := run_mono h' (Nat.le_max_right fuel other)
  exact Option.some.inj (left.symm.trans right)

/-- States met at the head of the loop, the entry state included. -/
def Reaches (body : σ → Option (σ ⊕ β)) : σ → σ → Prop :=
  Relation.ReflTransGen fun s t => body s = some (.inl t)

/-- An invariant kept by every pass holds whenever the loop is at its head. -/
theorem Reaches.invariant {inv : σ → Prop} (reached : Reaches body s t) (initial : inv s)
    (preserved : ∀ s t, inv s → body s = some (.inl t) → inv t) : inv t := by
  induction reached with
  | refl => exact initial
  | tail _ pass ih => exact preserved _ _ ih pass

/-- Leave the loop through a state at its head: a finished run has one. -/
theorem exists_reaches_of_run (h : run body fuel s = some b) :
    ∃ t, Reaches body s t ∧ body t = some (.inr b) := by
  induction fuel generalizing s with
  | zero => simp [run] at h
  | succ fuel ih =>
      cases hbody : body s with
      | none => simp [run, hbody] at h
      | some next =>
          cases next with
          | inl s' =>
              rw [run_succ_inl hbody] at h
              obtain ⟨t, reached, exit⟩ := ih h
              exact ⟨t, .head hbody reached, exit⟩
          | inr b' =>
              rw [run_succ_inr hbody, Option.some.injEq] at h
              exact ⟨s, .refl, h ▸ hbody⟩

/-- Partial correctness: what every exit from an invariant state establishes
holds of the result. -/
theorem run_post (inv : σ → Prop) (post : β → Prop) (h : run body fuel s = some b)
    (initial : inv s) (preserved : ∀ s t, inv s → body s = some (.inl t) → inv t)
    (exit : ∀ s b, inv s → body s = some (.inr b) → post b) : post b := by
  obtain ⟨t, reached, leaves⟩ := exists_reaches_of_run h
  exact exit t b (reached.invariant initial preserved) leaves

/-- Total correctness. Each pass from an invariant state either leaves with the
postcondition or returns to the head with the invariant and a smaller variant. -/
theorem run_total (inv : σ → Prop) (post : β → Prop) (variant : σ → Nat)
    (pass : ∀ s, inv s → (∃ t, body s = some (.inl t) ∧ inv t ∧ variant t < variant s) ∨
      ∃ b, body s = some (.inr b) ∧ post b)
    (initial : inv s) (enough : variant s < fuel) : ∃ b, run body fuel s = some b ∧ post b := by
  induction fuel generalizing s with
  | zero => omega
  | succ fuel ih =>
      rcases pass s initial with ⟨t, hbody, preserved, smaller⟩ | ⟨b, hbody, done⟩
      · rw [run_succ_inl hbody]
        exact ih preserved (by omega)
      · exact ⟨b, run_succ_inr hbody, done⟩

/-- Two loops in step: as long as each pass of the one is the image of a pass of the other,
so is what they leave with. -/
theorem run_map {τ γ : Type*} {body' : τ → Option (τ ⊕ γ)} (f : σ → τ) (g : β → γ) (inv : σ → Prop)
    (follows : ∀ s, inv s → body' (f s) = (body s).map (Sum.map f g))
    (preserved : ∀ s t, inv s → body s = some (.inl t) → inv t) (initial : inv s) :
    run body' fuel (f s) = (run body fuel s).map g := by
  induction fuel generalizing s with
  | zero => rfl
  | succ fuel ih =>
      have follow := follows s initial
      cases hbody : body s with
      | none =>
          rw [hbody, Option.map_none] at follow
          simp only [run, hbody, follow, Option.map_none]
      | some next =>
          cases next with
          | inl t =>
              rw [hbody, Option.map_some, Sum.map_inl] at follow
              rw [run_succ_inl hbody, run_succ_inl follow]
              exact ih (preserved s t initial hbody)
          | inr b =>
              rw [hbody, Option.map_some, Sum.map_inr] at follow
              rw [run_succ_inr hbody, run_succ_inr follow, Option.map_some]

/-! ## Passes one by one -/

/-- The state at the head of the loop after `n` passes, if the loop goes round so often. -/
def passes (body : σ → Option (σ ⊕ β)) : Nat → σ → Option σ
  | 0, s => some s
  | n + 1, s =>
    match passes body n s with
    | none => none
    | some t =>
      match body t with
      | some (.inl t) => some t
      | _ => none

theorem passes_succ_eq_some {n : Nat} {u : σ} : passes body (n + 1) s = some u ↔
    ∃ t, passes body n s = some t ∧ body t = some (.inl u) := by
  simp only [passes]
  cases passes body n s with
  | none => simp
  | some t =>
      rcases next : body t with _ | (_ | _) <;> simp [next]

theorem reaches_of_passes {n : Nat} (h : passes body n s = some t) : Reaches body s t := by
  induction n generalizing t with
  | zero =>
      cases h
      exact .refl
  | succ n ih =>
      obtain ⟨u, before, pass⟩ := passes_succ_eq_some.mp h
      exact (ih before).tail pass

/-- A loop that has ended stays so. -/
theorem passes_add_of_none {n : Nat} (h : passes body n s = none) (k : Nat) :
    passes body (n + k) s = none := by
  induction k with
  | zero => exact h
  | succ k ih => rw [← Nat.add_assoc, passes, ih]

/-- A loop in which a variant never grows ends exactly if in all but finitely many passes the
variant falls. -/
theorem ends_iff_falls (variant : σ → Nat)
    (le : ∀ t u, Reaches body s t → body t = some (.inl u) → variant u ≤ variant t) :
    (∃ n, passes body n s = none) ↔
      ∃ last, ∀ n ≥ last, ∀ t u, passes body n s = some t → body t = some (.inl u) →
        variant u ≠ variant t := by
  constructor
  · rintro ⟨n, ended⟩
    refine ⟨n, fun m behind t u there => ?_⟩
    obtain ⟨k, rfl⟩ := Nat.exists_eq_add_of_le behind
    rw [passes_add_of_none ended k] at there
    cases there
  · rintro ⟨last, falls⟩
    by_cases goesOn : ∀ n, passes body n s ≠ none
    case neg => simpa using goesOn
    -- otherwise the variant falls for ever
    have at_head (n : Nat) : ∃ t, passes body n s = some t :=
      Option.ne_none_iff_exists'.mp (goesOn n)
    obtain ⟨t, start⟩ := at_head last
    have falling (k : Nat) : ∃ u, passes body (last + k) s = some u ∧
        variant u + k ≤ variant t := by
      induction k with
      | zero => exact ⟨t, start, Nat.le_refl _⟩
      | succ k ih =>
          obtain ⟨u, there, spent⟩ := ih
          obtain ⟨v, next⟩ := at_head (last + (k + 1))
          obtain ⟨u', there', pass⟩ := passes_succ_eq_some.mp next
          obtain rfl : u = u' := Option.some.inj (there.symm.trans there')
          have less := le u v (reaches_of_passes there) pass
          have busy := falls (last + k) (by omega) u v there pass
          exact ⟨v, next, by omega⟩
    obtain ⟨u, -, spent⟩ := falling (variant t + 1)
    omega

/-! ## Enough fuel -/

/-- A loop whose body may itself take fuel gives this result whenever there is enough of it. -/
def Settles (body : Nat → σ → Option (σ ⊕ β)) (s : σ) (b : β) : Prop :=
  ∃ enough, ∀ fuel ≥ enough, ∀ passes ≥ enough, run (body fuel) passes s = some b

namespace Settles

variable {body : Nat → σ → Option (σ ⊕ β)} {s t : σ} {b c : β}

theorem next (pass : ∃ enough, ∀ fuel ≥ enough, body fuel s = some (.inl t))
    (rest : Settles body t b) : Settles body s b := by
  obtain ⟨n, pass⟩ := pass
  obtain ⟨m, rest⟩ := rest
  refine ⟨max n m + 1, fun fuel le passes le' => ?_⟩
  obtain ⟨passes, rfl⟩ : ∃ k, passes = k + 1 := ⟨passes - 1, by omega⟩
  rw [run_succ_inl (pass fuel (by omega))]
  exact rest fuel (by omega) passes (by omega)

theorem exit (pass : ∃ enough, ∀ fuel ≥ enough, body fuel s = some (.inr b)) : Settles body s b := by
  obtain ⟨n, pass⟩ := pass
  refine ⟨n + 1, fun fuel le passes le' => ?_⟩
  obtain ⟨passes, rfl⟩ : ∃ k, passes = k + 1 := ⟨passes - 1, by omega⟩
  exact run_succ_inr (pass fuel (by omega))

theorem unique (settles : Settles body s b) (settles' : Settles body s c) : b = c := by
  obtain ⟨n, settles⟩ := settles
  obtain ⟨m, settles'⟩ := settles'
  have left := settles (max n m) (by omega) (max n m) (by omega)
  have right := settles' (max n m) (by omega) (max n m) (by omega)
  exact Option.some.inj (left.symm.trans right)

end Settles

end FujiNet.Loop
