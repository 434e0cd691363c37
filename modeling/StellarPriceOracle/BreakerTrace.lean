import StellarPriceOracle.SourceBreaker
import StellarPriceOracle.Library.Tripping

-- When a source's breaker changes its state, told by what was recorded before.
namespace StellarPriceOracle.BreakerTrace
open SourceBreaker Tripping Runs
open JsNumber (le reaches reaches_zero)
open InsertionMap (get_set_ne empty)
open Except (ok)

inductive Call where
  | evaluateSurge | recordSuccess | recordFailure
  deriving DecidableEq

structure Input where
  call : Call
  source : String
  now : Int
  deriving DecidableEq

abbrev Step := Transition States Input

def next (config : SourceCBConfig) (states : States) (input : Input) : States :=
  match input.call with
  | .evaluateSurge => (evaluateSurge config states input.source input.now).1
  | .recordSuccess => recordSuccess config states input.source input.now
  | .recordFailure => recordFailure config states input.source input.now

@[simp] def mode : CBState → Mode
  | .closed => .closed
  | .opened => .opened
  | .halfOpen => .halfOpen

def gauge (s : CBEntry) : Gauge :=
  match s.state with
  | .closed => ⟨.closed,s.failures,0⟩
  | .opened => ⟨.opened,0,0⟩
  | .halfOpen => ⟨.halfOpen,0,s.halfOpenSuccesses⟩

section
variable (config : SourceCBConfig) (source : String)

-- A source with no entry yet is CLOSED.
def stateOf (states : States) : CBState := ((states.get source).map CBEntry.state).getD .closed

def view (states : States) : Gauge := ((states.get source).map gauge).getD ⟨.closed,0,0⟩

-- Only an evaluation after the cool-down probes.
def attempt (s : CBEntry) (now : Int) : Signal := if cooledDown config s now then .probe else .other

def signal (t : Step) : Signal :=
  if t.input.source = source then
    match t.input.call with
    | .evaluateSurge => attempt config (getOrCreate t.before source t.input.now) t.input.now
    | .recordSuccess => .success
    | .recordFailure => .failure
  else .other

def history (past : List Step) : List Event := past.map (event (view source) (signal config source))

def latestFailure (past : List Step) : Option Int :=
  (past.reverse.find? (fun t => t.input.source = source && t.input.call = .recordFailure)).map (fun t => t.input.now)

structure TraceLaw (past : List Step) (t : Step) : Prop where
  closed : stateOf source t.before = .closed →
    (stateOf source t.after = .opened ↔ t.input = ⟨.recordFailure,source,t.input.now⟩ ∧
      Completes (reaches config.failureThreshold) (failuresInRow (history config source past))) ∧
    stateOf source t.after ≠ .halfOpen
  opened : stateOf source t.before = .opened →
    (stateOf source t.after = .halfOpen ↔ t.input = ⟨.evaluateSurge,source,t.input.now⟩ ∧
      ∃ failed, latestFailure source past = some failed ∧ le config.cooldownMs (.finite (t.input.now - failed)) = true) ∧
    stateOf source t.after ≠ .closed
  halfOpen : stateOf source t.before = .halfOpen →
    (stateOf source t.after = .opened ↔ t.input = ⟨.recordFailure,source,t.input.now⟩) ∧
    (stateOf source t.after = .closed ↔ t.input = ⟨.recordSuccess,source,t.input.now⟩ ∧
      Completes (reaches config.halfOpenSuccesses) (successesSince (history config source past)))
  degraded : t.input = ⟨.evaluateSurge,source,t.input.now⟩ → stateOf source t.after = .opened →
    (evaluateSurge config t.before source t.input.now).2.decision = .degrade
  others : t.input.source ≠ source → t.after.get source = t.before.get source

end

section
variable {states : States}

theorem view_create (states : States) (now : Int) : view source states = gauge (getOrCreate states source now) := by
  unfold view getOrCreate
  cases states.get source with
  | none | some s => rfl

theorem stateOf_mode : (view source states).mode = mode (stateOf source states) := by
  unfold view stateOf
  cases states.get source with
  | none => rfl
  | some s =>
    obtain ⟨state⟩ := s
    cases state with
    | closed | opened | halfOpen => rfl

@[simp] theorem view_set : view source (states.set source s) = gauge s := by
  simp [view]

theorem rollWindow_gauge (config : SourceCBConfig) (s : CBEntry) (now : Int) : gauge (rollWindow config s now) = gauge s := by
  unfold rollWindow
  split <;> rfl

theorem enforce_gauge : gauge (enforce config s now).1 = gauge s := by
  obtain ⟨_,_,_,same⟩ := enforce_same config s now
  rw [same]
  rfl

theorem gauge_mode (s : CBEntry) : (gauge s).mode = mode s.state := by
  unfold gauge
  cases s.state with
  | closed | opened | halfOpen => rfl

theorem react_attempt (shut : g.mode ≠ .opened) : react trips closes g (attempt config s now) = g := by
  obtain ⟨mode,_⟩ := g
  unfold attempt
  cases mode with
  | closed => split <;> rfl
  | opened => exact absurd rfl shut
  | halfOpen => split <;> rfl

-- Rolling the window changes no state, so the three cases are those of the entry.
theorem evaluate_gauge (s : CBEntry) (now : Int) :
    gauge (evaluate config s now).1 = react trips closes (gauge s) (attempt config s now) := by
  obtain ⟨same,cooled⟩ := rollWindow_same config s now
  have rolled := rollWindow_gauge config s now
  unfold evaluate
  dsimp only
  cases state : (rollWindow config s now).state with
  | closed =>
    have shut : (gauge s).mode ≠ .opened := by rw [gauge_mode,← same,state]; simp
    rw [react_attempt shut]
    exact rolled
  | halfOpen =>
    have shut : (gauge s).mode ≠ .opened := by rw [gauge_mode,← same,state]; simp
    rw [react_attempt shut,enforce_gauge]
    exact rolled
  | opened =>
    have still : gauge s = ⟨.opened,0,0⟩ := by rw [gauge,← same,state]
    rw [cooled,attempt,still]
    cases cooledDown config s now with
    | true =>
      rw [if_pos rfl,if_pos rfl,enforce_gauge]
      rfl
    | false =>
      simp only [Bool.false_eq_true,if_false]
      rw [rolled,still]
      rfl

theorem succeed_gauge (s : CBEntry) (now : Int) :
    gauge (succeed config s now) = react trips (reaches config.halfOpenSuccesses) (gauge s) .success := by
  unfold succeed
  cases state : s.state with
  | closed | opened => simp [gauge,state]
  | halfOpen =>
    have still : gauge s = ⟨.halfOpen,0,s.halfOpenSuccesses⟩ := by rw [gauge,state]
    rw [still]
    show gauge (if reaches config.halfOpenSuccesses (s.halfOpenSuccesses + 1) then _ else _) =
      if reaches config.halfOpenSuccesses (s.halfOpenSuccesses + 1) then _ else _
    cases reaches config.halfOpenSuccesses (s.halfOpenSuccesses + 1) with
    | true | false => rfl

theorem fail_gauge : gauge (fail config s now) = react (reaches config.failureThreshold) closes (gauge s) .failure := by
  unfold fail
  cases state : s.state with
  | halfOpen => simp [gauge,state,trip]
  | opened => simp [gauge,state]
  | closed =>
    have still : gauge s = ⟨.closed,s.failures,0⟩ := by rw [gauge,state]
    rw [still]
    show gauge (if reaches config.failureThreshold (s.failures + 1) then _ else _) =
      if reaches config.failureThreshold (s.failures + 1) then _ else _
    cases reaches config.failureThreshold (s.failures + 1) with
    | true | false => rfl

theorem evaluate_failed : (evaluate config s now).1.lastFailureTime = s.lastFailureTime := by
  have rolled : (rollWindow config s now).lastFailureTime = s.lastFailureTime := by
    unfold rollWindow
    split <;> rfl
  have enforced : ∀ r : CBEntry, (enforce config r now).1.lastFailureTime = r.lastFailureTime := by
    intro r
    obtain ⟨_,_,_,same⟩ := enforce_same config r now
    rw [same]
  unfold evaluate
  dsimp only
  cases (rollWindow config s now).state with
  | closed => exact rolled
  | halfOpen => rw [enforced,rolled]
  | opened =>
    dsimp only
    split
    · rw [enforced]
      exact rolled
    · exact rolled

theorem succeed_failed : (succeed config s now).lastFailureTime = s.lastFailureTime := by
  unfold succeed
  cases s.state with
  | closed | opened => rfl
  | halfOpen =>
    dsimp only
    split <;> rfl

theorem fail_failed : (fail config s now).lastFailureTime = some now := by
  unfold fail
  cases s.state with
  | halfOpen | opened => rfl
  | closed =>
    dsimp only
    split <;> rfl

end

section
variable {config : SourceCBConfig} {source : String} {states : States} {past : List Step} {t : Step}

theorem next_other (ne : t.input.source ≠ source) (ran : next config t.before t.input = t.after) :
    t.after.get source = t.before.get source := by
  rw [← ran]
  have apart : source ≠ t.input.source := fun same => ne same.symm
  unfold next
  cases t.input.call with
  | evaluateSurge | recordSuccess | recordFailure => exact get_set_ne apart

theorem follows (config : SourceCBConfig) (source : String) : Follows (reaches config.failureThreshold) (reaches config.halfOpenSuccesses)
    (total (next config)) empty (view source) (signal config source) := by
  refine ⟨rfl,?_⟩
  intro t ran
  have ran : next config t.before t.input = t.after := ok.inj ran
  by_cases same : t.input.source = source
  · rw [signal,if_pos same,view_create t.before t.input.now,← ran]
    unfold next
    subst same
    cases t.input.call with
    | evaluateSurge =>
      show view _ (t.before.set _ _) = _
      rw [view_set]
      exact evaluate_gauge _ _
    | recordSuccess =>
      show view _ (t.before.set _ _) = _
      rw [view_set]
      exact succeed_gauge _ _
    | recordFailure =>
      show view _ (t.before.set _ _) = _
      rw [view_set]
      exact fail_gauge
  · rw [signal,if_neg same,view,next_other same ran,← view]
    obtain ⟨mode,_⟩ := view source t.before
    cases mode with
    | closed | opened | halfOpen => rfl

theorem signal_exact : (signal config source t = .failure ↔ t.input = ⟨.recordFailure,source,t.input.now⟩) ∧
    (signal config source t = .success ↔ t.input = ⟨.recordSuccess,source,t.input.now⟩) ∧
    (signal config source t = .probe ↔ t.input = ⟨.evaluateSurge,source,t.input.now⟩ ∧
      cooledDown config (getOrCreate t.before source t.input.now) t.input.now = true) := by
  obtain ⟨before,⟨call,name,now⟩,_⟩ := t
  by_cases same : name = source
  · cases call with
    | evaluateSurge => by_cases cool : cooledDown config (getOrCreate before source now) now = true <;> simp [signal,attempt,same,cool]
    | recordSuccess | recordFailure => simp [signal,same]
  · simp [signal,same]

theorem latestFailure_snoc : latestFailure source (past ++ [t]) =
    if t.input = ⟨.recordFailure,source,t.input.now⟩ then some t.input.now else latestFailure source past := by
  obtain ⟨_,⟨call,name,_⟩,_⟩ := t
  unfold latestFailure
  by_cases same : name = source
  · cases call with
    | evaluateSurge | recordSuccess | recordFailure => simp [same]
  · simp [same]

-- The entry's time of failure is that of the latest one recorded.
structure Remembers (source : String) (past : List Step) (states : States) : Prop where
  failed : (states.get source).bind CBEntry.lastFailureTime = latestFailure source past
  opened : (view source states).mode = .opened → ∃ time, latestFailure source past = some time

theorem create_failed (source : String) (states : States) (now : Int) :
    (getOrCreate states source now).lastFailureTime = (states.get source).bind CBEntry.lastFailureTime := by
  unfold getOrCreate
  cases states.get source with
  | none | some s => rfl

theorem next_remembers (memory : Remembers source past t.before) (ran : next config t.before t.input = t.after) :
    Remembers source (past ++ [t]) t.after := by
  constructor
  · rw [latestFailure_snoc]
    by_cases same : t.input.source = source
    · have kept := (create_failed source t.before t.input.now).trans memory.failed
      rw [← ran]
      obtain ⟨before,⟨call,_⟩,_⟩ := t
      subst same
      cases call with
      | evaluateSurge => simp [next,evaluateSurge,evaluate_failed,kept]
      | recordSuccess => simp [next,recordSuccess,succeed_failed,kept]
      | recordFailure => simp [next,recordFailure,fail_failed]
    · have silent : t.input ≠ ⟨.recordFailure,source,t.input.now⟩ := fun whole => same (congrArg Input.source whole)
      rw [if_neg silent,next_other same ran]
      exact memory.failed
  · intro opened
    rw [(follows config source).step t (congrArg ok ran)] at opened
    rw [latestFailure_snoc]
    rcases react_opened opened with failure | before
    · exact ⟨_,if_pos (signal_exact.1.mp failure)⟩
    · split
      · exact ⟨_,rfl⟩
      · exact memory.opened before

theorem remembers (path : Run (total (next config)) empty ts s) : Remembers source ts s := by
  induction path with
  | nil => exact ⟨rfl,by simp [view]⟩
  | @snoc ts s i last prior ran ih => exact next_remembers (t := ⟨s,i,last⟩) ih (ok.inj ran)

theorem cooled_exact (memory : Remembers source past states) (opened : stateOf source states = .opened) :
    cooledDown config (getOrCreate states source now) now = true ↔
      ∃ failed, latestFailure source past = some failed ∧ le config.cooldownMs (.finite (now - failed)) = true := by
  have mode : (view source states).mode = .opened := by rw [stateOf_mode,opened]; rfl
  obtain ⟨failed,latest⟩ := memory.opened mode
  rw [cooledDown,create_failed,memory.failed,latest]
  simp

theorem mode_closed : mode state = .closed ↔ state = .closed := by
  cases state <;> simp

theorem mode_opened : mode state = .opened ↔ state = .opened := by
  cases state <;> simp

theorem mode_halfOpen : mode state = .halfOpen ↔ state = .halfOpen := by
  cases state <;> simp

theorem evaluate_degrades (opened : (evaluate config s now).1.state = .opened) : (evaluate config s now).2 = .degrade := by
  unfold evaluate at opened ⊢
  dsimp only at opened ⊢
  cases state : (rollWindow config s now).state with
  | closed => simp [state] at opened
  | halfOpen =>
    obtain ⟨_,_,_,same⟩ := enforce_same config (rollWindow config s now) now
    simp [state,same] at opened
  | opened =>
    cases cool : cooledDown config (rollWindow config s now) now with
    | false => rfl
    | true =>
      obtain ⟨_,_,_,same⟩ := enforce_same config (enterHalfOpen (rollWindow config s now) now) now
      rw [state] at opened
      simp only [cool,if_true,same] at opened
      cases opened

theorem source_breaker_trace_law (failures : le 1 config.failureThreshold = true) (successes : le 1 config.halfOpenSuccesses = true)
    (path : Run (total (next config)) empty (past ++ t :: later) s) (source : String) : TraceLaw config source past t := by
  have law := (follows config source).lawful (reaches_zero failures) (reaches_zero successes) path
  obtain ⟨reached,accepted⟩ := path.split
  have ran : next config t.before t.input = t.after := ok.inj accepted
  have memory : Remembers source past t.before := remembers reached
  have before : (event (view source) (signal config source) t).before = mode (stateOf source t.before) := stateOf_mode
  have after : (event (view source) (signal config source) t).after = mode (stateOf source t.after) := stateOf_mode
  have told : (event (view source) (signal config source) t).signal = signal config source t := rfl
  constructor
  · intro closed
    have law := law.closed (before.trans (mode_closed.mpr closed))
    rwa [after,told,signal_exact.1,mode_opened,Ne,mode_halfOpen] at law
  · intro opened
    have law := law.opened (before.trans (mode_opened.mpr opened))
    rwa [after,told,signal_exact.2.2,cooled_exact memory opened,mode_halfOpen,Ne,mode_closed] at law
  · intro halfOpen
    have law := law.halfOpen (before.trans (mode_halfOpen.mpr halfOpen))
    rwa [after,told,signal_exact.1,signal_exact.2.1,mode_opened,mode_closed] at law
  · intro evaluated opened
    have reached : t.after = (evaluateSurge config t.before source t.input.now).1 := by
      rw [← ran,next,evaluated]
    apply evaluate_degrades
    simpa [reached,evaluateSurge,stateOf] using opened
  · intro different
    exact next_other different ran

end

namespace Sample

def config : SourceCBConfig := ⟨2,30000,2,none⟩

def first : Input := ⟨.recordFailure,"binance",1000⟩
def second : Input := ⟨.recordFailure,"binance",2000⟩

def once : States := next config .empty first
def twice : States := next config once second

theorem path : Run (total (next config)) empty ([⟨.empty,first,once⟩] ++ ⟨once,second,twice⟩ :: []) twice :=
  .snoc (.snoc .nil rfl) rfl

theorem second_failure_lawful : stateOf "binance" once = .closed ∧ stateOf "binance" twice = .opened ∧
    TraceLaw config "binance" [⟨.empty,first,once⟩] ⟨once,second,twice⟩ :=
  ⟨by decide,by decide,source_breaker_trace_law (by decide) (by decide) path "binance"⟩

end Sample

end StellarPriceOracle.BreakerTrace
