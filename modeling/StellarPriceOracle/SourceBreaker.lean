import StellarPriceOracle.Library.InsertionMap
import StellarPriceOracle.Library.JsNumber

-- price-aggregation/source-circuit-breaker.ts. A function reads the clock once.
namespace StellarPriceOracle.SourceBreaker
open JsNumber (le lt add floor max min mul)

inductive CBState where
  | closed | opened | halfOpen
  deriving DecidableEq

structure SurgeLimitConfig where
  (maxConcurrentHalfOpen maxRequestsPerWindow windowMs halfOpenRateFraction costPerRequest : JsNumber)
  maxCostPerWindow : JsNumber

structure SourceCBConfig where
  (failureThreshold cooldownMs halfOpenSuccesses : JsNumber)
  surge : Option SurgeLimitConfig

def defaultSurge : SurgeLimitConfig := ⟨2,10,10000,.finite (1 / 4),1,20⟩

def SourceCBConfig.limits (config : SourceCBConfig) : SurgeLimitConfig := config.surge.getD defaultSurge

inductive SurgeDecision where
  | allow | throttle | degrade
  deriving DecidableEq

structure SurgeStatus where
  decision : SurgeDecision
  (inFlight requestsInWindow : Nat)
  costInWindow : JsNumber
  (throttled degraded : Nat)
  lastSurgeAlertTime : Option Int

structure CBEntry where
  state : CBState
  failures : Nat
  lastFailureTime : Option Int
  lastStateChange : Int
  (halfOpenSuccesses totalTrips inFlight : Nat)
  windowStart : Int
  requestsInWindow : Nat
  costInWindow : JsNumber
  (throttled degraded : Nat)
  lastSurgeAlertTime : Option Int

abbrev States := InsertionMap String CBEntry

def CBEntry.fresh (now : Int) : CBEntry := ⟨.closed,0,none,now,0,0,0,now,0,0,0,0,none⟩

def getOrCreate (states : States) (source : String) (now : Int) : CBEntry := (states.get source).getD (.fresh now)

section
variable (config : SourceCBConfig)

section
variable (s : CBEntry)

def windowOver (now : Int) : Bool := le config.limits.windowMs (.finite (now - s.windowStart))

def rollWindow (now : Int) : CBEntry :=
  if windowOver config s now then {s with windowStart := now,requestsInWindow := 0,costInWindow := 0} else s

def alertSurge (now : Int) : CBEntry :=
  if s.lastSurgeAlertTime.any (fun last => lt (.finite (now - last)) config.limits.windowMs) then s
  else {s with lastSurgeAlertTime := some now}

def buildSurgeStatus (decision : SurgeDecision) : SurgeStatus :=
  ⟨decision,s.inFlight,s.requestsInWindow,s.costInWindow,s.throttled,s.degraded,s.lastSurgeAlertTime⟩

def cooledDown (now : Int) : Bool := le config.cooldownMs (.finite (now - s.lastFailureTime.getD 0))

def enterHalfOpen (now : Int) : CBEntry :=
  {s with
    state := .halfOpen,lastStateChange := now,halfOpenSuccesses := 0,inFlight := 0
    windowStart := now,requestsInWindow := 0,costInWindow := 0}

-- The share of the usual rate that a recovering source may use.
def rateCap : JsNumber :=
  max 1 (floor (mul config.limits.maxRequestsPerWindow config.limits.halfOpenRateFraction))

def effectiveRateCap : JsNumber := min config.limits.maxRequestsPerWindow (rateCap config)

-- The last part of `evaluateSurge`, which only a source in HALF_OPEN comes to.
def enforce (now : Int) : CBEntry × SurgeDecision :=
  if le config.limits.maxConcurrentHalfOpen (.finite s.inFlight) then
    (alertSurge config {s with throttled := s.throttled + 1} now,.throttle)
  else if le (effectiveRateCap config) (.finite s.requestsInWindow) then
    (alertSurge config {s with throttled := s.throttled + 1} now,.throttle)
  else if lt config.limits.maxCostPerWindow (add s.costInWindow config.limits.costPerRequest) then
    (alertSurge config {s with degraded := s.degraded + 1} now,.degrade)
  else (s,.allow)

def evaluate (now : Int) : CBEntry × SurgeDecision :=
  let s := rollWindow config s now
  match s.state with
  | .opened => if cooledDown config s now then enforce config (enterHalfOpen s now) now else (s,.degrade)
  | .closed => (s,.allow)
  | .halfOpen => enforce config s now

end

section
variable (states : States)

section
variable (source : String)

def evaluateSurge (now : Int) : States × SurgeStatus :=
  let (s,decision) := evaluate config (getOrCreate states source now) now
  (states.set source s,buildSurgeStatus s decision)

def isAllowed (now : Int) : States × Bool :=
  let (states,status) := evaluateSurge config states source now
  (states,status.decision = .allow)

end

def succeed (s : CBEntry) (now : Int) : CBEntry :=
  match s.state with
  | .halfOpen =>
    let s := {s with halfOpenSuccesses := s.halfOpenSuccesses + 1}
    if le config.halfOpenSuccesses (.finite s.halfOpenSuccesses) then {s with state := .closed,failures := 0,lastStateChange := now} else s
  | .closed => {s with failures := 0}
  | .opened => s

def trip (s : CBEntry) (now : Int) : CBEntry :=
  {s with state := .opened,lastStateChange := now,totalTrips := s.totalTrips + 1}

def fail (s : CBEntry) (now : Int) : CBEntry :=
  let s := {s with failures := s.failures + 1,lastFailureTime := some now}
  match s.state with
  | .halfOpen => trip s now
  | .closed => if le config.failureThreshold (.finite s.failures) then trip s now else s
  | .opened => s

def recordSuccess (source : String) (now : Int) : States :=
  states.set source (succeed config (getOrCreate states source now) now)

def recordFailure (source : String) (now : Int) : States :=
  states.set source (fail config (getOrCreate states source now) now)

end

end

structure Idle (s : CBEntry) : Prop where
  inFlight : s.inFlight = 0
  requests : s.requestsInWindow = 0
  cost : s.costInWindow = 0

def Recovering (config : SourceCBConfig) (s : CBEntry) (now : Int) : Prop :=
  s.state = .halfOpen ∨ s.state = .opened ∧ cooledDown config s now = true

structure LetsFirst (config : SourceCBConfig) : Prop where
  concurrency : le config.limits.maxConcurrentHalfOpen 0 = false
  rate : le (effectiveRateCap config) 0 = false
  cost : lt config.limits.maxCostPerWindow (add 0 config.limits.costPerRequest) = false

instance : Decidable (Recovering config s now) := inferInstanceAs (Decidable (_ ∨ _))

instance : Decidable (LetsFirst config) :=
  decidable_of_iff (le config.limits.maxConcurrentHalfOpen 0 = false ∧ le (effectiveRateCap config) 0 = false ∧
    lt config.limits.maxCostPerWindow (add 0 config.limits.costPerRequest) = false)
    ⟨fun ⟨concurrency,rate,cost⟩ => ⟨concurrency,rate,cost⟩,fun ⟨concurrency,rate,cost⟩ => ⟨concurrency,rate,cost⟩⟩

theorem alertSurge_same (config : SourceCBConfig) (s : CBEntry) (now : Int) : ∃ time, alertSurge config s now = {s with lastSurgeAlertTime := time} := by
  unfold alertSurge
  split <;> exact ⟨_,rfl⟩

theorem enforce_same (config : SourceCBConfig) (s : CBEntry) (now : Int) : ∃ throttled degraded time,
    (enforce config s now).1 = {s with throttled := throttled,degraded := degraded,lastSurgeAlertTime := time} := by
  unfold enforce
  split
  · obtain ⟨time,same⟩ := alertSurge_same config {s with throttled := s.throttled + 1} now
    exact ⟨_,_,time,same⟩
  · split
    · obtain ⟨time,same⟩ := alertSurge_same config {s with throttled := s.throttled + 1} now
      exact ⟨_,_,time,same⟩
    · split
      · obtain ⟨time,same⟩ := alertSurge_same config {s with degraded := s.degraded + 1} now
        exact ⟨_,_,time,same⟩
      · exact ⟨_,_,_,rfl⟩

theorem enforce_allow : (enforce config s now).2 = .allow ↔
    le config.limits.maxConcurrentHalfOpen (.finite s.inFlight) = false ∧ le (effectiveRateCap config) (.finite s.requestsInWindow) = false ∧
      lt config.limits.maxCostPerWindow (add s.costInWindow config.limits.costPerRequest) = false := by
  unfold enforce
  split
  · rename_i reached
    simp [reached]
  · split
    · rename_i _ reached
      simp [reached]
    · split
      · rename_i _ _ reached
        simp [reached]
      · rename_i concurrency rate cost
        simp [concurrency,rate,cost]

theorem enforce_idle (idle : Idle s) : Idle (enforce config s now).1 ∧ (enforce config s now).1.state = s.state ∧
    ((enforce config s now).2 = .allow ↔ LetsFirst config) := by
  obtain ⟨_,_,_,same⟩ := enforce_same config s now
  rw [same]
  refine ⟨{idle with},rfl,?_⟩
  rw [enforce_allow,idle.inFlight,idle.requests,idle.cost,JsNumber.finite_zero]
  exact ⟨fun ⟨concurrency,rate,cost⟩ => ⟨concurrency,rate,cost⟩,fun ⟨concurrency,rate,cost⟩ => ⟨concurrency,rate,cost⟩⟩

theorem rollWindow_same (config : SourceCBConfig) (s : CBEntry) (now : Int) : (rollWindow config s now).state = s.state ∧
    cooledDown config (rollWindow config s now) now = cooledDown config s now := by
  unfold rollWindow
  split <;> exact ⟨rfl,rfl⟩

theorem rollWindow_idle (config : SourceCBConfig) (now : Int) (idle : Idle s) : Idle (rollWindow config s now) := by
  unfold rollWindow
  split
  · exact ⟨idle.inFlight,rfl,rfl⟩
  · exact idle

theorem enterHalfOpen_idle : Idle (enterHalfOpen s now) := ⟨rfl,rfl,rfl⟩

theorem evaluate_idle (config : SourceCBConfig) (now : Int) (idle : Idle s) :
    Idle (evaluate config s now).1 ∧ ((evaluate config s now).1.state = .halfOpen ↔ Recovering config s now) ∧
      (Recovering config s now → ((evaluate config s now).2 = .allow ↔ LetsFirst config)) := by
  have rolled := rollWindow_idle config now idle
  obtain ⟨same,cooled⟩ := rollWindow_same config s now
  unfold Recovering
  simp only [evaluate,← same,← cooled]
  generalize rollWindow config s now = r at rolled
  cases state : r.state with
  | closed => exact ⟨rolled,by simp [state],by simp⟩
  | opened =>
    cases cooledDown config r now with
    | false => exact ⟨rolled,by simp [state],by simp⟩
    | true =>
      obtain ⟨kept,still,allowed⟩ := enforce_idle (enterHalfOpen_idle)
      have half : (enforce config (enterHalfOpen r now) now).1.state = .halfOpen := still
      exact ⟨kept,by simp [half],fun _ => allowed⟩
  | halfOpen =>
    obtain ⟨kept,still,allowed⟩ := enforce_idle rolled
    exact ⟨kept,by simp [still,state],fun _ => allowed⟩

theorem succeed_idle (idle : Idle s) : Idle (succeed config s now) := by
  unfold succeed
  cases s.state with
  | closed => exact {idle with}
  | opened => exact idle
  | halfOpen =>
    dsimp only
    split <;> exact {idle with}

theorem fail_idle (idle : Idle s) : Idle (fail config s now) := by
  unfold fail
  cases s.state with
  | closed =>
    dsimp only
    split <;> exact {idle with}
  | opened | halfOpen => exact {idle with}

theorem succeed_state (half : (succeed config s now).state = .halfOpen) : s.state = .halfOpen := by
  unfold succeed at half
  cases state : s.state with
  | closed | opened => simp [state] at half
  | halfOpen => rfl

theorem fail_state : (fail config s now).state ≠ .halfOpen := by
  unfold fail
  cases s.state with
  | closed =>
    dsimp only
    split
    · simp [trip]
    · simp
  | opened => simp
  | halfOpen => simp [trip]

end StellarPriceOracle.SourceBreaker
