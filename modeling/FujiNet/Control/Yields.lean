import FujiNet.Control.Loop

/-!
# Computations that may not return

A computation is an `Option`: `none` when it does not return. `Yields` says of whatever it
returns that it satisfies a postcondition, and nothing where it returns nothing. There is
one rule for each way in which such computations are put together; the rule for loops takes
an invariant of the loop's head.
-/

namespace FujiNet

variable {α β σ : Type*}

/-- What `m` returns, if it does, satisfies `post`. -/
def Yields (m : Option α) (post : α → Prop) : Prop := ∀ a, m = some a → post a

namespace Yields

variable {m : Option α} {post post' : α → Prop}

theorem some {a : α} (h : post a) : Yields (some a) post := by
  rintro _ ⟨⟩
  exact h

theorem none : Yields (none : Option α) post := by
  rintro _ ⟨⟩

theorem mono (h : Yields m post) (weaker : ∀ a, post a → post' a) : Yields m post' :=
  fun a returned => weaker a (h a returned)

theorem and (h : Yields m post) (h' : Yields m post') : Yields m fun a => post a ∧ post' a :=
  fun a returned => ⟨h a returned, h' a returned⟩

theorem bind {f : α → Option β} {post : β → Prop} {M : α → Prop} (h : Yields m M)
    (next : ∀ a, M a → Yields (f a) post) : Yields (m.bind f) post := by
  intro b returned
  obtain ⟨a, first, second⟩ := Option.bind_eq_some_iff.mp returned
  exact next a (h a first) b second

theorem map {f : α → β} {post : β → Prop} (h : Yields m fun a => post (f a)) :
    Yields (m.map f) post := by
  intro b returned
  obtain ⟨a, first, rfl⟩ := Option.map_eq_some_iff.mp returned
  exact h a first

/-- The invariant of a loop's head, and what a pass of the body makes of it. -/
theorem run {body : σ → Option (σ ⊕ β)} {I : σ → Prop} {post : β → Prop} {s : σ} {fuel : Nat}
    (initial : I s) (pass : ∀ s, I s → Yields (body s) fun r => r.elim I post) :
    Yields (Loop.run body fuel s) post := by
  intro b returned
  refine Loop.run_post I post returned initial ?_ ?_
  · intro s t holds next
    exact pass s holds _ next
  · intro s b holds exit
    exact pass s holds _ exit

end Yields

end FujiNet
