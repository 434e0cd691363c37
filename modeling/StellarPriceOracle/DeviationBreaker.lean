import StellarPriceOracle.CommonScale
import StellarPriceOracle.Library.InsertionMap

-- price-aggregation/circuit-breaker.ts, without log lines, alerts and the trailing medians nothing reads.
namespace StellarPriceOracle.DeviationBreaker
open CommonScale (NormalizedPrice toScale medianOnCommonScale)
open JsNumber (le lt reaches floor mul)

structure SurgeLimitConfig where
  (maxEvaluationsPerWindow windowMs maxConcurrentRecoveries alertThresholdRatio : JsNumber)

def defaultSurgeLimits : SurgeLimitConfig := ⟨1000,60000,5,.finite (4 / 5)⟩

structure CircuitBreakerConfig where
  (deviationThreshold recoveryRequiredSuccesses : JsNumber)
  surgeLimits : SurgeLimitConfig

def defaultConfig : CircuitBreakerConfig := ⟨20,3,defaultSurgeLimits⟩

structure SurgeState where
  degraded : Bool
  windowStart : Int
  (evaluationsInWindow activeRecoveries rejectedEvaluations : Nat)
  alertFired : Bool

structure SourceState where
  suspicious : Bool
  consecutiveSuccesses : Nat
  lastSuspicionTime : Option Int
  deviations : Nat

def SourceState.fresh : SourceState := ⟨false,0,none,0⟩

structure CircuitBreaker where
  sourceStates : InsertionMap String SourceState
  surgeState : SurgeState

def CircuitBreaker.fresh (now : Int) : CircuitBreaker := ⟨.empty,⟨false,now,0,0,0,false⟩⟩

def stateKey (p : NormalizedPrice) : String := p.asset ++ ":" ++ p.source

section
variable (toNumber : ℚ → JsNumber) (config : CircuitBreakerConfig)

section
variable (surge : SurgeState)

def rolled (now : Int) : SurgeState :=
  if le config.surgeLimits.windowMs (.finite (now - surge.windowStart)) then
    {surge with windowStart := now,evaluationsInWindow := 0,degraded := false,alertFired := false}
  else surge

def admitEvaluation (now : Int) : SurgeState × Bool :=
  let surge := rolled config surge now
  let limit := config.surgeLimits.maxEvaluationsPerWindow
  if reaches limit surge.evaluationsInWindow then ({surge with degraded := true},false)
  else
    let used := surge.evaluationsInWindow + 1
    let threshold := floor (mul limit config.surgeLimits.alertThresholdRatio)
    ({surge with evaluationsInWindow := used,alertFired := surge.alertFired || reaches threshold used},true)

def calculateDeviation (price median : ℚ) : JsNumber :=
  if median = 0 then 0 else toNumber (BigNumber.dividedBy |price - median| median * 100)

def deviate (state : SourceState) (now : Int) : SourceState :=
  {state with suspicious := true,lastSuspicionTime := some now,consecutiveSuccesses := 0,deviations := state.deviations + 1}

def recover (state : SourceState) : SourceState :=
  if !state.suspicious then state
  else if reaches config.surgeLimits.maxConcurrentRecoveries surge.activeRecoveries then state
  else
    let state := {state with consecutiveSuccesses := state.consecutiveSuccesses + 1}
    if reaches config.recoveryRequiredSuccesses state.consecutiveSuccesses then {state with suspicious := false,consecutiveSuccesses := 0}
    else state

end

def evaluatePrice (breaker : CircuitBreaker) (price : NormalizedPrice) (allPrices : List NormalizedPrice) (now : Int) :
    CircuitBreaker × Bool × JsNumber :=
  let key := stateKey price
  let state := (breaker.sourceStates.get key).getD .fresh
  let (surge,admitted) := admitEvaluation config breaker.surgeState now
  if !admitted then
    let state := {state with suspicious := true,lastSuspicionTime := some now,consecutiveSuccesses := 0}
    (⟨breaker.sourceStates.set key state,{surge with rejectedEvaluations := surge.rejectedEvaluations + 1}⟩,true,0)
  else
    let assetPrices := allPrices.filter (fun p => p.asset = price.asset)
    if assetPrices.length = 0 then (⟨breaker.sourceStates.set key state,surge⟩,state.suspicious,0)
    else
      let median := medianOnCommonScale assetPrices
      let deviation := calculateDeviation toNumber (toScale price median.decimals) median.value
      let state := if lt config.deviationThreshold deviation then deviate state now else recover config surge state
      (⟨breaker.sourceStates.set key state,surge⟩,state.suspicious,deviation)

end

def CircuitBreaker.suspicious (breaker : CircuitBreaker) (p : NormalizedPrice) : Bool :=
  ((breaker.sourceStates.get (stateKey p)).map SourceState.suspicious).getD false

end StellarPriceOracle.DeviationBreaker
