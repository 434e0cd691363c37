import StellarPriceOracle.Library.JsNumber
import StellarPriceOracle.Library.Tripping

-- api/src/infrastructure/db-circuit-breaker.ts. The clock is read once in every input.
namespace StellarPriceOracle.DbBreaker
open Tripping Runs
open JsNumber (le reaches reaches_zero)

abbrev CircuitState := Mode

structure DbCircuitBreakerConfig where
  name : String
  enabled : Bool
  (failureThreshold successThreshold openMs : JsNumber)

structure DbCircuitBreaker where
  state : CircuitState
  (failures successes : Nat)
  openedAt : Int
  deriving DecidableEq

def DbCircuitBreaker.fresh : DbCircuitBreaker := ⟨.closed,0,0,0⟩

def transitionTo (b : DbCircuitBreaker) (state : CircuitState) (now : Int) : DbCircuitBreaker :=
  if b.state = state then b
  else ⟨state,0,0,if state = .opened then now else b.openedAt⟩

section
variable (config : DbCircuitBreakerConfig)

section
variable (b : DbCircuitBreaker)

def onSuccess (now : Int) : DbCircuitBreaker :=
  if b.state = .halfOpen then
    let b := {b with successes := b.successes + 1}
    if reaches config.successThreshold b.successes then transitionTo b .closed now else b
  else {b with failures := 0}

def onFailure (now : Int) : DbCircuitBreaker :=
  if b.state = .halfOpen then transitionTo b .opened now
  else
    let b := {b with failures := b.failures + 1}
    if reaches config.failureThreshold b.failures then transitionTo b .opened now else b

inductive Refusal where
  | circuitOpen (message : String)
  | notPending
  deriving DecidableEq

def begin (now : Int) : Except Refusal DbCircuitBreaker :=
  if config.enabled = true ∧ b.state = .opened then
    if le config.openMs (.finite (now - b.openedAt)) then .ok (transitionTo b .halfOpen now)
    else .error (.circuitOpen ("Database circuit breaker \"" ++ config.name ++ "\" is open"))
  else .ok b

def finish (ok : Bool) (now : Int) : DbCircuitBreaker :=
  if config.enabled then if ok then onSuccess config b now else onFailure config b now else b

end

structure Service where
  breaker : DbCircuitBreaker
  started : Nat
  pending : List Nat
  deriving DecidableEq

def Service.fresh : Service := ⟨.fresh,0,[]⟩

inductive Input where
  | execute (now : Int)
  | completed (id : Nat) (ok : Bool) (now : Int)
  deriving DecidableEq

def step (s : Service) : Input → Except Refusal Service
  | .execute now => do
    let breaker ← begin config s.breaker now
    .ok ⟨breaker,s.started + 1,s.pending ++ [s.started]⟩
  | .completed id ok now =>
    if id ∈ s.pending then .ok {s with breaker := finish config s.breaker ok now,pending := s.pending.erase id}
    else .error .notPending

end

abbrev Step := Transition Service Input

def Input.now : Input → Int
  | .execute now => now
  | .completed _ _ now => now

def gauge (b : DbCircuitBreaker) : Gauge :=
  match b.state with
  | .closed => ⟨.closed,b.failures,0⟩
  | .opened => ⟨.opened,0,0⟩
  | .halfOpen => ⟨.halfOpen,0,b.successes⟩

def view (s : Service) : Gauge := gauge s.breaker

def signal (t : Step) : Signal :=
  match t.input with
  | .execute _ => .probe
  | .completed _ true _ => .success
  | .completed _ false _ => .failure

def history (past : List Step) : List Event := past.map (event view signal)

def opens (t : Step) : Bool := t.before.breaker.state ≠ .opened && t.after.breaker.state = .opened

def lastOpened (past : List Step) : Option Int := (past.reverse.find? opens).map (fun t => t.input.now)

def Step.Fails (t : Step) : Prop := ∃ id now, t.input = .completed id false now
def Step.Succeeds (t : Step) : Prop := ∃ id now, t.input = .completed id true now

structure TraceLaw (config : DbCircuitBreakerConfig) (past : List Step) (t : Step) : Prop where
  starts : ∀ now, t.input = .execute now → t.before.breaker.state ≠ .opened ∨
    ∃ opened, lastOpened past = some opened ∧ le config.openMs (.finite (now - opened)) = true
  closed : t.before.breaker.state = .closed →
    (t.after.breaker.state = .opened ↔ t.Fails ∧ Completes (reaches config.failureThreshold) (failuresInRow (history past))) ∧
    t.after.breaker.state ≠ .halfOpen
  opened : t.before.breaker.state = .opened → (t.after.breaker.state = .halfOpen ↔ ∃ now, t.input = .execute now) ∧
    t.after.breaker.state ≠ .closed
  halfOpen : t.before.breaker.state = .halfOpen → (t.after.breaker.state = .opened ↔ t.Fails) ∧
    (t.after.breaker.state = .closed ↔ t.Succeeds ∧ Completes (reaches config.successThreshold) (successesSince (history past)))

theorem gauge_mode (b : DbCircuitBreaker) : (gauge b).mode = b.state := by
  unfold gauge
  cases b.state with
  | closed | opened | halfOpen => rfl

-- The counter that the state does not use is not shown by the gauge.
theorem onSuccess_gauge : gauge (onSuccess config b now) = react trips (reaches config.successThreshold) (gauge b) .success := by
  obtain ⟨state,_,successes,_⟩ := b
  cases state with
  | closed | opened => rfl
  | halfOpen =>
    show gauge (if reaches config.successThreshold (successes + 1) then _ else _) =
      if reaches config.successThreshold (successes + 1) then _ else _
    cases reaches config.successThreshold (successes + 1) with
    | true | false => rfl

theorem onFailure_gauge : gauge (onFailure config b now) = react (reaches config.failureThreshold) closes (gauge b) .failure := by
  obtain ⟨state,failures,_⟩ := b
  cases state with
  | halfOpen => rfl
  | closed =>
    show gauge (if reaches config.failureThreshold (failures + 1) then _ else _) =
      if reaches config.failureThreshold (failures + 1) then _ else _
    cases reaches config.failureThreshold (failures + 1) with
    | true | false => rfl
  | opened =>
    show gauge (if reaches config.failureThreshold (failures + 1) then _ else _) = _
    cases reaches config.failureThreshold (failures + 1) with
    | true | false => rfl

theorem begin_cases (enabled : config.enabled = true) (begun : begin config b now = .ok next) :
    b.state ≠ .opened ∧ next = b ∨ b.state = .opened ∧ le config.openMs (.finite (now - b.openedAt)) = true ∧ next = ⟨.halfOpen,0,0,b.openedAt⟩ := by
  unfold begin at begun
  by_cases opened : b.state = .opened
  · right
    rw [if_pos ⟨enabled,opened⟩] at begun
    split at begun
    · rename_i waited
      refine ⟨opened,waited,?_⟩
      rw [← Except.ok.inj begun,transitionTo,opened]
      rfl
    · cases begun
  · left
    rw [if_neg (fun both => opened both.2)] at begun
    exact ⟨opened,(Except.ok.inj begun).symm⟩

theorem begin_gauge (enabled : config.enabled = true) (begun : begin config b now = .ok next) :
    gauge next = react trips closes (gauge b) .probe := by
  rcases begin_cases enabled begun with ⟨shut,rfl⟩ | ⟨opened,_,rfl⟩
  · obtain ⟨state,failures,successes,openedAt⟩ := next
    cases state with
    | closed => rfl
    | opened => exact absurd rfl shut
    | halfOpen => rfl
  · obtain ⟨state,failures,successes,openedAt⟩ := b
    cases opened
    rfl

section
variable {config : DbCircuitBreakerConfig} {t : Step} {past : List Step}

theorem step_begins (input : t.input = .execute now) (ran : step config t.before t.input = .ok t.after) :
    begin config t.before.breaker now = .ok t.after.breaker := by
  rw [input] at ran
  simp only [step,Guarded.bind_ok,Except.ok.injEq] at ran
  obtain ⟨_,begun,same⟩ := ran
  rw [begun,← same]

theorem step_finishes {id : Nat} (input : t.input = .completed id ok now) (ran : step config t.before t.input = .ok t.after) :
    t.after.breaker = finish config t.before.breaker ok now := by
  rw [input,step] at ran
  split at ran
  · rw [← Except.ok.inj ran]
  · cases ran

theorem follows (enabled : config.enabled = true) : Follows (reaches config.failureThreshold) (reaches config.successThreshold)
    (step config) .fresh view signal := by
  refine ⟨rfl,?_⟩
  intro t ran
  unfold view signal
  cases input : t.input with
  | execute => exact begin_gauge enabled (step_begins input ran)
  | completed _ ok =>
    rw [step_finishes input ran,finish,if_pos enabled]
    cases ok with
    | true => exact onSuccess_gauge
    | false => exact onFailure_gauge

theorem lastOpened_snoc : lastOpened (past ++ [t]) = if opens t then some t.input.now else lastOpened past := by
  unfold lastOpened
  rw [List.reverse_concat,List.find?_cons]
  cases opens t with
  | true | false => rfl

section
variable (enabled : config.enabled = true)
include enabled

-- A late failure in OPEN is counted and leaves `openedAt` as it was.
theorem finish_openedAt (opened : (finish config b ok now).state = .opened) :
    (finish config b ok now).openedAt = if b.state = .opened then b.openedAt else now := by
  obtain ⟨state,failures,successes,openedAt⟩ := b
  unfold finish at opened ⊢
  rw [if_pos enabled] at opened ⊢
  cases ok with
  | true =>
    cases state with
    | closed => cases opened
    | opened => rfl
    | halfOpen =>
      change (if reaches config.successThreshold (successes + 1) then _ else _ : DbCircuitBreaker).state = .opened at opened
      cases more : reaches config.successThreshold (successes + 1) <;> rw [more] at opened <;> cases opened
  | false =>
    cases state with
    | halfOpen => rfl
    | closed =>
      change (if reaches config.failureThreshold (failures + 1) then _ else _ : DbCircuitBreaker).state = .opened at opened
      show (if reaches config.failureThreshold (failures + 1) then _ else _ : DbCircuitBreaker).openedAt = now
      cases more : reaches config.failureThreshold (failures + 1) with
      | true => rfl
      | false =>
        rw [more] at opened
        cases opened
    | opened =>
      show (if reaches config.failureThreshold (failures + 1) then _ else _ : DbCircuitBreaker).openedAt = openedAt
      cases reaches config.failureThreshold (failures + 1) with
      | true | false => rfl

theorem step_openedAt (ran : step config t.before t.input = .ok t.after) (opened : t.after.breaker.state = .opened) :
    t.after.breaker.openedAt = if t.before.breaker.state = .opened then t.before.breaker.openedAt else t.input.now := by
  cases input : t.input with
  | execute =>
    rcases begin_cases enabled (step_begins input ran) with ⟨shut,same⟩ | ⟨_,_,same⟩
    · rw [same] at opened
      exact absurd opened shut
    · rw [same] at opened
      cases opened
  | completed =>
    rw [step_finishes input ran] at opened ⊢
    exact finish_openedAt enabled opened

-- The field is the time of the last step that opened the breaker.
theorem opened_at (path : Run (step config) .fresh ts s) (opened : s.breaker.state = .opened) :
    lastOpened ts = some s.breaker.openedAt := by
  induction path with
  | nil => cases opened
  | @snoc ts s i next prior ran ih =>
    have kept := step_openedAt (t := ⟨s,i,next⟩) enabled ran opened
    dsimp only at kept
    rw [lastOpened_snoc,kept]
    by_cases already : s.breaker.state = .opened
    · simp [opens,already,ih already]
    · simp [opens,already,opened]

end

theorem signal_failure : signal t = .failure ↔ t.Fails := by
  unfold signal Step.Fails
  cases t.input with
  | execute => simp
  | completed _ ok => cases ok <;> simp

theorem signal_success : signal t = .success ↔ t.Succeeds := by
  unfold signal Step.Succeeds
  cases t.input with
  | execute => simp
  | completed _ ok => cases ok <;> simp

theorem signal_probe : signal t = .probe ↔ ∃ now, t.input = .execute now := by
  unfold signal
  cases t.input with
  | execute => simp
  | completed _ ok => cases ok <;> simp

theorem database_breaker_trace_law (enabled : config.enabled = true) (failures : le 1 config.failureThreshold = true)
    (successes : le 1 config.successThreshold = true) (path : Run (step config) .fresh (past ++ t :: later) s) : TraceLaw config past t := by
  have law := (follows enabled).lawful (reaches_zero failures) (reaches_zero successes) path
  obtain ⟨reached,ran⟩ := path.split
  have before : (event view signal t).before = t.before.breaker.state := gauge_mode _
  have after : (event view signal t).after = t.after.breaker.state := gauge_mode _
  have told : (event view signal t).signal = signal t := rfl
  constructor
  · intro _ input
    rcases begin_cases enabled (step_begins input ran) with ⟨shut,_⟩ | ⟨opened,waited,_⟩
    · exact .inl shut
    · exact .inr ⟨_,opened_at enabled reached opened,waited⟩
  · intro closed
    have law := law.closed (before.trans closed)
    rwa [after,told,signal_failure] at law
  · intro opened
    have law := law.opened (before.trans opened)
    rwa [after,told,signal_probe] at law
  · intro halfOpen
    have law := law.halfOpen (before.trans halfOpen)
    rwa [after,told,signal_failure,signal_success] at law

end

namespace Sample

def config : DbCircuitBreakerConfig := ⟨"timescale",true,1,1,1000⟩

def idle : Service := .fresh
def one : Service := ⟨.fresh,1,[0]⟩
def two : Service := ⟨.fresh,2,[0,1]⟩
def tripped : Service := ⟨⟨.opened,0,0,5⟩,2,[1]⟩
def probing : Service := ⟨⟨.halfOpen,0,0,5⟩,3,[1,2]⟩
def reopened : Service := ⟨⟨.opened,0,0,1010⟩,3,[2]⟩

def past : List Step := [⟨idle,.execute 0,one⟩,⟨one,.execute 1,two⟩,⟨two,.completed 0 false 5,tripped⟩,⟨tripped,.execute 1005,probing⟩]

theorem path : Run (step config) .fresh (past ++ ⟨probing,.completed 1 false 1010,reopened⟩ :: []) reopened :=
  .snoc (.snoc (.snoc (.snoc (.snoc .nil rfl) rfl) (by decide +kernel)) (by decide +kernel)) rfl

theorem late_failure_lawful : TraceLaw config past ⟨probing,.completed 1 false 1010,reopened⟩ :=
  database_breaker_trace_law rfl (by decide) (by decide) path

end Sample

end StellarPriceOracle.DbBreaker
