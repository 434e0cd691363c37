import StellarPriceOracle.Library.Runs

-- A breaker of three states; what it counts is stated over the history of what it was told.
namespace Tripping
open Runs
open List

inductive Mode where
  | closed | opened | halfOpen
  deriving DecidableEq

inductive Signal where
  | failure | success | probe | other
  deriving DecidableEq

structure Event where
  before : Mode
  signal : Signal
  after : Mode

@[simp] def Event.becomes (mode : Mode) (e : Event) : Bool := e.before ≠ mode && e.after = mode

@[simp] def Event.isFailure (e : Event) : Bool := e.signal = .failure
@[simp] def Event.isSuccess (e : Event) : Bool := e.signal = .success

def since {α : Type} (test : α → Bool) (past : List α) : List α := (past.reverse.takeWhile (fun e => !test e)).reverse

theorem since_snoc : since test (past ++ [e]) = if test e then [] else since test past ++ [e] := by
  unfold since
  rw [reverse_concat,takeWhile_cons]
  cases test e with
  | true => rfl
  | false => simp

def failuresInRow (past : List Event) : Nat := (since (fun e => e.becomes .closed || e.isSuccess) past).countP Event.isFailure

def successesSince (past : List Event) : Nat := (since (Event.becomes .halfOpen) past).countP Event.isSuccess

theorem failuresInRow_snoc : failuresInRow (past ++ [e]) =
    if e.becomes .closed || e.isSuccess then 0 else failuresInRow past + if e.isFailure then 1 else 0 := by
  unfold failuresInRow
  rw [since_snoc]
  split
  · rfl
  · rw [countP_append,countP_singleton]

theorem successesSince_snoc : successesSince (past ++ [e]) =
    if e.becomes .halfOpen then 0 else successesSince past + if e.isSuccess then 1 else 0 := by
  unfold successesSince
  rw [since_snoc]
  split
  · rfl
  · rw [countP_append,countP_singleton]

-- The one count at which a threshold is first met.
def Completes (reached : Nat → Bool) (n : Nat) : Prop := reached n = false ∧ reached (n + 1) = true

structure Lawful (trips closes : Nat → Bool) (past : List Event) (e : Event) : Prop where
  closed : e.before = .closed → (e.after = .opened ↔ e.signal = .failure ∧ Completes trips (failuresInRow past)) ∧ e.after ≠ .halfOpen
  opened : e.before = .opened → (e.after = .halfOpen ↔ e.signal = .probe) ∧ e.after ≠ .closed
  halfOpen : e.before = .halfOpen → (e.after = .opened ↔ e.signal = .failure) ∧
    (e.after = .closed ↔ e.signal = .success ∧ Completes closes (successesSince past))

structure Gauge where
  mode : Mode
  (streak wins : Nat)

section
variable (trips closes : Nat → Bool)

@[simp] def react (g : Gauge) (signal : Signal) : Gauge :=
  match g.mode,signal with
  | .closed,.failure => if trips (g.streak + 1) then ⟨.opened,0,0⟩ else ⟨.closed,g.streak + 1,0⟩
  | .closed,.success => ⟨.closed,0,0⟩
  | .opened,.probe => ⟨.halfOpen,0,0⟩
  | .halfOpen,.failure => ⟨.opened,0,0⟩
  | .halfOpen,.success => if closes (g.wins + 1) then ⟨.closed,0,0⟩ else ⟨.halfOpen,0,g.wins + 1⟩
  | _,_ => g

-- The counters are what the history says, and below their thresholds.
structure Tallied (past : List Event) (g : Gauge) : Prop where
  streak : g.mode = .closed → g.streak = failuresInRow past ∧ trips g.streak = false
  wins : g.mode = .halfOpen → g.wins = successesSince past ∧ closes g.wins = false

end

section
theorem react_lawful (tallied : Tallied trips closes past g) :
    Lawful trips closes past ⟨g.mode,signal,(react trips closes g signal).mode⟩ := by
  obtain ⟨_,streak,wins⟩ := g
  constructor
  · rintro ⟨⟩
    obtain ⟨counted,few⟩ := tallied.streak rfl
    dsimp only at counted few
    cases signal <;> simp only [react]
    case failure => cases more : trips (streak + 1) <;> simp [Completes,← counted,few,more]
    all_goals simp
  · rintro ⟨⟩
    cases signal <;> simp
  · rintro ⟨⟩
    obtain ⟨counted,few⟩ := tallied.wins rfl
    dsimp only at counted few
    cases signal <;> simp only [react]
    case success => cases more : closes (wins + 1) <;> simp [Completes,← counted,few,more]
    all_goals simp

theorem react_opened (opened : (react trips closes g signal).mode = .opened) : signal = .failure ∨ g.mode = .opened := by
  obtain ⟨mode,_,wins⟩ := g
  cases mode with
  | closed => cases signal <;> simp at opened ⊢
  | opened => exact .inr rfl
  | halfOpen =>
    cases signal with
    | success => cases more : closes (wins + 1) <;> simp [more] at opened
    | _ => simp at opened ⊢

theorem react_tallied (none : trips 0 = false) (first : closes 0 = false) (tallied : Tallied trips closes past g) :
    Tallied trips closes (past ++ [⟨g.mode,signal,(react trips closes g signal).mode⟩]) (react trips closes g signal) := by
  obtain ⟨mode,streak,wins⟩ := g
  constructor
  · intro closed
    rw [failuresInRow_snoc]
    cases mode with
    | closed =>
      obtain ⟨counted,few⟩ := tallied.streak rfl
      dsimp only at counted few
      cases signal with
      | failure =>
        cases more : trips (streak + 1) with
        | true => simp [more] at closed
        | false => simp [more,← counted]
      | success => simp [none]
      | probe | other => simpa [← counted] using few
    | opened => cases signal <;> simp at closed
    | halfOpen =>
      cases signal with
      | success =>
        cases more : closes (wins + 1) with
        | true => simp [more,none]
        | false => simp [more] at closed
      | _ => simp at closed
  · intro halfOpen
    rw [successesSince_snoc]
    cases mode with
    | closed =>
      cases signal with
      | failure => cases more : trips (streak + 1) <;> simp [more] at halfOpen
      | _ => simp at halfOpen
    | opened =>
      cases signal with
      | probe => simp [first]
      | _ => simp at halfOpen
    | halfOpen =>
      obtain ⟨counted,few⟩ := tallied.wins rfl
      dsimp only at counted few
      cases signal with
      | failure => simp at halfOpen
      | success =>
        cases more : closes (wins + 1) with
        | true => simp [more] at halfOpen
        | false => simp [more,← counted]
      | probe | other => simpa [← counted] using few

-- A machine whose view moves as the gauge does.
structure Follows {σ ι ε : Type} (trips closes : Nat → Bool) (step : σ → ι → Except ε σ) (start : σ) (view : σ → Gauge)
    (signal : Transition σ ι → Signal) : Prop where
  start : view start = ⟨.closed,0,0⟩
  step : ∀ t : Transition σ ι, step t.before t.input = .ok t.after → view t.after = react trips closes (view t.before) (signal t)

variable {σ ι ε : Type} {step : σ → ι → Except ε σ} {start s : σ}

def event (view : σ → Gauge) (signal : Transition σ ι → Signal) (t : Transition σ ι) : Event :=
  ⟨(view t.before).mode,signal t,(view t.after).mode⟩

theorem Follows.event_exact (follows : Follows trips closes step start view signal) (ran : step t.before t.input = .ok t.after) :
    event view signal t = ⟨(view t.before).mode,signal t,(react trips closes (view t.before) (signal t)).mode⟩ := by
  rw [event,follows.step t ran]

theorem Follows.tallied (follows : Follows trips closes step start view signal) (none : trips 0 = false) (first : closes 0 = false)
    (path : Run step start ts s) : Tallied trips closes (ts.map (event view signal)) (view s) := by
  induction path with
  | nil =>
    rw [follows.start]
    exact ⟨fun _ => ⟨rfl,none⟩,by simp⟩
  | @snoc ts s i next prior accepted ih =>
    have ran := follows.step ⟨s,i,next⟩ accepted
    rw [map_append,map_singleton,follows.event_exact accepted,show view next = _ from ran]
    exact react_tallied none first ih

theorem Follows.lawful (follows : Follows trips closes step start view signal) (none : trips 0 = false) (first : closes 0 = false)
    (path : Run step start (earlier ++ t :: later) s) : Lawful trips closes (earlier.map (event view signal)) (event view signal t) := by
  obtain ⟨reached,ran⟩ := path.split
  rw [follows.event_exact ran]
  exact react_lawful (follows.tallied none first reached)

end

end Tripping
