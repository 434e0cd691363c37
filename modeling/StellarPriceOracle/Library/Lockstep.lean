import StellarPriceOracle.Library.Runs

namespace Lockstep
open List
open Guarded (require someOr)

-- Two guarded computations that end alike: related results, or related failures.
inductive Answers (E : ε → φ → Prop) (R : α → β → Prop) : Except ε α → Except φ β → Prop where
  | done : R a b → Answers E R (.ok a) (.ok b)
  | failed : E e f → Answers E R (.error e) (.error f)

section Rules
variable {ε φ α β γ δ : Type}

theorem Answers.guard [Decidable p] [Decidable q] (same : p ↔ q) (named : E e f) (rest : p → Answers E R x y) :
    Answers E R (require p e >>= fun _ => x) (require q f >>= fun _ => y) := by
  by_cases holds : p
  · have other := same.mp holds
    simp only [require,holds,other,if_true]
    exact rest holds
  · have other : ¬ q := fun passed => holds (same.mpr passed)
    simp only [require,holds,other,if_false]
    exact .failed named

theorem Answers.lookup (named : E e f) (rest : ∀ a, value = some a → Answers E R (x a) (y (image a))) :
    Answers E R (someOr value e >>= x) (someOr (value.map image) f >>= y) := by
  cases got : value with
  | none => exact .failed named
  | some a => exact rest a got

end Rules

-- A machine that is handed inputs; a rejected one leaves the state where it was.
def attempt (step : σ → ι → Except ε σ) (s : σ) (i : ι) : σ × Option ε :=
  match step s i with
  | .ok next => (next,none)
  | .error failure => (s,some failure)

def attempts (step : σ → ι → Except ε σ) (s : σ) : List ι → List (σ × Option ε)
  | [] => []
  | i :: rest => attempt step s i :: attempts step (attempt step s i).1 rest

section
variable {σ τ ι ε φ : Type}
  {R : List ι → σ → τ → Prop}

structure Agrees (E : ε → φ → Prop) (Q : σ → τ → Prop) (x : σ × Option ε) (y : τ × Option φ) : Prop where
  verdict : Option.Rel E x.2 y.2
  states : Q x.1 y.1

theorem attempts_agree (seen : ∀ inputs s t, R inputs s t → Q s t) (drop : ∀ i rest s t, R (i :: rest) s t → R rest s t)
    (follow : ∀ i rest s t, R (i :: rest) s t → Answers E (R rest) (left s i) (right t i))
    (start : R inputs s t) : Forall₂ (Agrees E Q) (attempts left s inputs) (attempts right t inputs) := by
  induction inputs generalizing s t with
  | nil => exact .nil
  | cons i rest ih =>
    simp only [attempts,attempt]
    have kept := drop i rest s t start
    have answered := follow i rest s t start
    generalize left s i = x at answered
    generalize right t i = y at answered
    cases answered with
    | done related =>
      apply Forall₂.cons
      · exact ⟨.none,seen rest _ _ related⟩
      · exact ih related
    | failed named =>
      apply Forall₂.cons
      · exact ⟨.some named,seen rest _ _ kept⟩
      · exact ih kept

end

end Lockstep
