import Mathlib.Data.List.Basic

/-!
# Machines that answer inputs

A machine takes one input at a time, answers it and goes on to its next state; it
may fail to answer. `Machine.run` feeds it a list of inputs. A machine refines a
total one when, from related states, it gives the same answers and stays related.

`Machine.Reaches` lists the states of a machine whose environment keeps to a rule
about single steps. Invariants of such runs are proved one step at a time.
-/

namespace FujiNet.Machine

variable {σ τ ι β : Type*}

/-- Feed the inputs one after another: the answers and the last state. -/
def run (step : ι → σ → Option (β × σ)) : List ι → σ → Option (List β × σ)
  | [], s => some ([], s)
  | x :: xs, s =>
    (step x s).bind fun (answer, s) =>
    (run step xs s).map fun (answers, s) => (answer :: answers, s)

/-- The same for a machine that always answers. -/
def runTotal (step : ι → τ → β × τ) : List ι → τ → List β × τ
  | [], t => ([], t)
  | x :: xs, t =>
    ((step x t).1 :: (runTotal step xs (step x t).2).1, (runTotal step xs (step x t).2).2)

/-- From related states, an admissible input is answered as the specification answers
it, and the next states are related again. -/
def Refines (step : ι → σ → Option (β × σ)) (spec : ι → τ → β × τ) (rel : τ → σ → Prop)
    (admissible : ι → τ → Prop) : Prop :=
  ∀ x t s, rel t s → admissible x t → ∃ s', step x s = some ((spec x t).1, s') ∧ rel (spec x t).2 s'

/-- Every input is admissible when its turn comes. -/
def Admissible (spec : ι → τ → β × τ) (admissible : ι → τ → Prop) : List ι → τ → Prop
  | [], _ => True
  | x :: xs, t => admissible x t ∧ Admissible spec admissible xs (spec x t).2

variable {step : ι → σ → Option (β × σ)} {spec : ι → τ → β × τ} {rel : τ → σ → Prop}
  {admissible : ι → τ → Prop}

/-- Single steps that refine give whole runs that refine. -/
theorem Refines.run (refines : Refines step spec rel admissible) {xs : List ι} {t : τ} {s : σ}
    (related : rel t s) (legal : Admissible spec admissible xs t) :
    ∃ s', Machine.run step xs s = some ((runTotal spec xs t).1, s') ∧
      rel (runTotal spec xs t).2 s' := by
  induction xs generalizing t s with
  | nil => exact ⟨s, rfl, related⟩
  | cons x xs ih =>
      obtain ⟨s₁, hstep, related₁⟩ := refines x t s related legal.1
      obtain ⟨s₂, hrun, related₂⟩ := ih related₁ legal.2
      refine ⟨s₂, ?_, related₂⟩
      simp only [Machine.run, hstep, Option.bind_some, hrun, Option.map_some, runTotal]

/-- The same for two machines that always answer: when each step answers alike, so does a run. -/
theorem runTotal_of_alike {step : ι → σ → β × σ}
    (alike : ∀ x t s, rel t s → (step x s).1 = (spec x t).1 ∧ rel (spec x t).2 (step x s).2)
    {xs : List ι} {t : τ} {s : σ} (related : rel t s) :
    (runTotal step xs s).1 = (runTotal spec xs t).1 ∧
      rel (runTotal spec xs t).2 (runTotal step xs s).2 := by
  induction xs generalizing t s with
  | nil => exact ⟨rfl, related⟩
  | cons x xs ih =>
      obtain ⟨answer, related'⟩ := alike x t s related
      obtain ⟨answers, last⟩ := ih related'
      exact ⟨congrArg₂ List.cons answer answers, last⟩

/-- Under an invariant that the admissible inputs keep, what means the same of each input means
the same of a whole list. -/
theorem admissible_congr {admissible' : ι → τ → Prop} {I : τ → Prop}
    (same : ∀ x t, I t → (admissible x t ↔ admissible' x t))
    (kept : ∀ x t, I t → admissible' x t → I (spec x t).2) {xs : List ι} {t : τ} (initial : I t) :
    Admissible spec admissible xs t ↔ Admissible spec admissible' xs t := by
  induction xs generalizing t with
  | nil => exact Iff.rfl
  | cons x xs ih =>
      rw [Admissible, Admissible, same x t initial]
      exact and_congr_right fun ok => ih (kept x t initial ok)

/-- The states of a machine that is only given steps which `rule` allows. The rule
sees the input, the state before, the answer and the state afterwards. -/
inductive Reaches (step : ι → σ → Option (β × σ)) (rule : ι → σ → β → σ → Prop) (s : σ) : σ → Prop
  | refl : Reaches step rule s s
  | next {x : ι} {t t' : σ} {answer : β} : Reaches step rule s t →
      step x t = some (answer, t') → rule x t answer t' → Reaches step rule s t'

/-- What every allowed step preserves holds in every state reached. -/
theorem Reaches.invariant {rule : ι → σ → β → σ → Prop} {s t : σ}
    (reached : Reaches step rule s t) (inv : σ → Prop) (initial : inv s)
    (preserved : ∀ x t answer t', inv t → step x t = some (answer, t') → rule x t answer t' →
      inv t') : inv t := by
  induction reached with
  | refl => exact initial
  | next _ hstep allowed ih => exact preserved _ _ _ _ ih hstep allowed

/-- In every run whose inputs keep to `rule`, each further one that does is answered, and
well. -/
def Keeps (step : ι → σ → Option (β × σ)) (rule : ι → σ → Prop) (good : ι → σ → β → σ → Prop)
    (s : σ) : Prop :=
  ∀ t, Reaches step (fun x t _ _ => rule x t) s t → ∀ x, rule x t →
    ∃ answer t', step x t = some (answer, t') ∧ good x t answer t'

/-- One step at a time, under an invariant. -/
theorem Keeps.of_invariant {rule : ι → σ → Prop} {good : ι → σ → β → σ → Prop} {s : σ}
    (inv : σ → Prop) (initial : inv s)
    (step_spec : ∀ x t, inv t → rule x t →
      ∃ answer t', step x t = some (answer, t') ∧ good x t answer t' ∧ inv t') :
    Keeps step rule good s := by
  intro t reached x allowed
  have holds : inv t := by
    refine reached.invariant inv initial fun x t answer t' holds stepped allowed => ?_
    obtain ⟨answer', t'', stepped', -, kept⟩ := step_spec x t holds allowed
    cases Option.some.inj (stepped'.symm.trans stepped)
    exact kept
  obtain ⟨answer, t', stepped, fine, -⟩ := step_spec x t holds allowed
  exact ⟨answer, t', stepped, fine⟩

/-! ## Steps that may crash -/

section Along

variable {ε : Type*} {crashing : ι → σ → Except ε σ} {P Q : ι → σ → Prop} {I : σ → Prop}

/-- `P` holds of every input and of the state in which it is met, up to a crash. -/
def Along (crashing : ι → σ → Except ε σ) (P : ι → σ → Prop) : List ι → σ → Prop
  | [], _ => True
  | x :: xs, s => P x s ∧ ∀ s', crashing x s = .ok s' → Along crashing P xs s'

/-- Under an invariant that the steps with `Q` keep, what means the same of each step means the same
of a whole run. -/
theorem along_congr_of (preserved : ∀ x s s', I s → Q x s → crashing x s = .ok s' → I s')
    (same : ∀ x s, I s → (P x s ↔ Q x s)) {xs : List ι} {s : σ} (initial : I s) :
    Along crashing P xs s ↔ Along crashing Q xs s := by
  induction xs generalizing s with
  | nil => exact Iff.rfl
  | cons x xs ih =>
      rw [Along, Along, same x s initial]
      refine and_congr_right fun ok => forall_congr' fun s' => imp_congr_right fun step => ?_
      exact ih (preserved x s s' initial ok step)

/-- Under an invariant that the steps with `P` keep, what follows from `P` for each step follows for a
whole run. -/
theorem Along.imp_of (preserved : ∀ x s s', I s → P x s → crashing x s = .ok s' → I s')
    (implies : ∀ x s, I s → P x s → Q x s) {xs : List ι} {s : σ} (initial : I s)
    (along : Along crashing P xs s) : Along crashing Q xs s := by
  induction xs generalizing s with
  | nil => trivial
  | cons x xs ih =>
      refine ⟨implies x s initial along.1, fun s' step => ?_⟩
      exact ih (preserved x s s' initial along.1 step) (along.2 s' step)

/-- Take the inputs one after another, up to a crash. -/
def runOrCrash (crashing : ι → σ → Except ε σ) : List ι → σ → Except ε σ
  | [], s => .ok s
  | x :: xs, s =>
    match crashing x s with
    | .error e => .error e
    | .ok s => runOrCrash crashing xs s

/-- What holds along a run holds along what is left of it. -/
theorem Along.of_append {xs ys : List ι} {s t : σ} (along : Along crashing P (xs ++ ys) s)
    (run : runOrCrash crashing xs s = .ok t) : Along crashing P ys t := by
  induction xs generalizing s with
  | nil =>
      obtain rfl : s = t := by simpa [runOrCrash] using run
      exact along
  | cons x xs ih =>
      rw [runOrCrash] at run
      cases step : crashing x s with
      | error e => simp [step] at run
      | ok s' =>
          rw [step] at run
          exact ih (along.2 s' step) run

end Along

end FujiNet.Machine
