import StellarPriceOracle.DeviationBreaker
import StellarPriceOracle.Library.Runs

-- How many sources of the deviation breaker are part-way through recovery at once.
namespace StellarPriceOracle.RecoveryCap
open CommonScale (NormalizedPrice medianOnCommonScale toScale)
open DeviationBreaker Runs
open JsNumber (le lt reaches)

structure Submission where
  price : NormalizedPrice
  allPrices : List NormalizedPrice
  now : Int

def next (toNumber : ℚ → JsNumber) (config : CircuitBreakerConfig) (breaker : CircuitBreaker) (call : Submission) : CircuitBreaker :=
  (evaluatePrice toNumber config breaker call.price call.allPrices call.now).1

def recovering (state : SourceState) : Bool := state.suspicious && decide (0 < state.consecutiveSuccesses)

def recoveries (breaker : CircuitBreaker) : Nat := breaker.sourceStates.values.countP recovering

-- None at all is within any limit.
def Capped (config : CircuitBreakerConfig) (breaker : CircuitBreaker) : Prop :=
  recoveries breaker = 0 ∨ le (.finite (recoveries breaker)) config.surgeLimits.maxConcurrentRecoveries = true

def Room (config : CircuitBreakerConfig) (breaker : CircuitBreaker) : Prop :=
  le (.finite (recoveries breaker + 1 : Nat)) config.surgeLimits.maxConcurrentRecoveries = true

-- A price in line from a source that is suspicious and has none counted, and would not be cleared by it.
def begins (toNumber : ℚ → JsNumber) (config : CircuitBreakerConfig) (breaker : CircuitBreaker) (call : Submission) : Bool :=
  let state := (breaker.sourceStates.get (stateKey call.price)).getD .fresh
  let assetPrices := call.allPrices.filter (fun p => p.asset = call.price.asset)
  let median := medianOnCommonScale assetPrices
  state.suspicious && state.consecutiveSuccesses = 0 && (admitEvaluation config breaker.surgeState call.now).2 && assetPrices.length ≠ 0 &&
    !lt config.deviationThreshold (calculateDeviation toNumber (toScale call.price median.decimals) median.value) &&
    !reaches config.surgeLimits.maxConcurrentRecoveries breaker.surgeState.activeRecoveries && !reaches config.recoveryRequiredSuccesses 1

instance : Decidable (Room config breaker) := inferInstanceAs (Decidable (_ = _))

section
variable (toNumber : ℚ → JsNumber) (config : CircuitBreakerConfig)

theorem admitEvaluation_active (surge : SurgeState) : (admitEvaluation config surge now).1.activeRecoveries = surge.activeRecoveries := by
  unfold admitEvaluation rolled
  split <;> dsimp only <;> split <;> rfl

theorem next_parts (b : CircuitBreaker) (call : Submission) : ∃ state, (next toNumber config b call).sourceStates = b.sourceStates.set (stateKey call.price) state ∧
    (next toNumber config b call).surgeState.activeRecoveries = b.surgeState.activeRecoveries ∧
    (begins toNumber config b call = true ↔ recovering ((b.sourceStates.get (stateKey call.price)).getD .fresh) = false ∧ recovering state = true) := by
  unfold next evaluatePrice begins
  dsimp only
  split
  · rename_i refused
    exact ⟨_,rfl,admitEvaluation_active config _,by simp at refused; simp [refused,recovering]⟩
  · rename_i admitted
    split
    · rename_i none
      exact ⟨_,rfl,admitEvaluation_active config _,by simp [none]⟩
    · rename_i priced
      refine ⟨_,rfl,admitEvaluation_active config _,?_⟩
      simp only [Bool.not_eq_true,Bool.not_eq_false'] at admitted
      split
      · rename_i off
        simp [off,deviate,recovering]
      · rename_i close
        unfold recover
        rw [admitEvaluation_active]
        simp only [admitted,close,recovering]
        split
        · rename_i trusted
          simp at trusted
          simp [trusted]
        · rename_i suspicious
          simp only [Bool.not_eq_true,Bool.not_eq_false'] at suspicious
          split
          · rename_i full
            simp [full]
          · rename_i free
            by_cases first : ((b.sourceStates.get (stateKey call.price)).getD .fresh).consecutiveSuccesses = 0
            · simp [suspicious,first,free]
              split <;> simp_all
            · simp [suspicious,first]

-- A recovery that begins adds one; every other call adds none.
theorem next_recoveries (b : CircuitBreaker) (call : Submission) :
    (begins toNumber config b call = true → recoveries (next toNumber config b call) = recoveries b + 1) ∧
      (begins toNumber config b call = false → recoveries (next toNumber config b call) ≤ recoveries b) := by
  obtain ⟨state,written,_,exact⟩ := next_parts toNumber config b call
  have count := b.sourceStates.countP_set recovering (stateKey call.price) state
  have old : (b.sourceStates.get (stateKey call.price)).any recovering = recovering ((b.sourceStates.get (stateKey call.price)).getD .fresh) := by
    cases b.sourceStates.get (stateKey call.price) <;> rfl
  rw [← Bool.not_eq_true,exact]
  unfold recoveries
  rw [written]
  rw [old] at count
  cases before : recovering ((b.sourceStates.get (stateKey call.price)).getD .fresh) <;> cases after : recovering state <;>
    simp [before,after] at count ⊢ <;> omega

end

theorem step_exact (capped : Capped config b) :
    (begins toNumber config b call = true → Room config b) ↔ Capped config (next toNumber config b call) := by
  obtain ⟨more,fewer⟩ := next_recoveries toNumber config b call
  cases begun : begins toNumber config b call with
  | true => simp [Room,Capped,more begun]
  | false =>
    have few := fewer begun
    refine ⟨fun _ => ?_,fun _ never => by cases never⟩
    rcases capped with none | within
    · exact .inl (Nat.le_zero.mp (none ▸ few))
    · exact .inr (JsNumber.finite_le (by exact_mod_cast few) within)

-- The counter that the breaker compares with the cap is never raised.
theorem recoveries_capped_exact (path : Run (total (next toNumber config)) (.fresh now) ts s) :
    ((∀ t ∈ ts, begins toNumber config t.before t.input = true → Room config t.before) ↔ ∀ b ∈ states (.fresh now) ts, Capped config b) ∧
      ∀ b ∈ states (.fresh now) ts, b.surgeState.activeRecoveries = 0 := by
  constructor
  · refine path.always_exact (.inl rfl) ?_
    intro t mem capped
    rw [← Except.ok.inj (path.accepted mem)]
    exact step_exact capped
  · refine path.always (G := fun _ => True) (fun _ _ => trivial) rfl ?_
    intro t _ ran zero
    obtain ⟨_,_,same,_⟩ := next_parts toNumber config t.before t.input
    rw [← Except.ok.inj ran]
    exact same.trans zero

namespace Sample
def config : CircuitBreakerConfig := ⟨20,3,{defaultSurgeLimits with maxConcurrentRecoveries := 1}⟩

def quote (source : String) (price : Int) : NormalizedPrice := ⟨"XLM",price,7,source,1700000000,none⟩

def submitted (source : String) (price : Int) : Submission :=
  ⟨quote source price,[quote "band" 100,quote "redstone" 100,quote source price],0⟩

def run (calls : List Submission) := replay (total (next .finite config)) (.fresh 0) calls

def one : List Submission := [submitted "a" 200,submitted "b" 200,submitted "a" 100]
end Sample

open Sample

theorem single_recovery_capped : ∃ ts s, Run (total (next .finite config)) (.fresh 0) ts s ∧ recoveries s = 1 ∧
    ∀ b ∈ states (.fresh 0) ts, Capped config b := by
  have observed : (run one).map (fun result =>
      (recoveries result.2,result.1.all (fun t => decide (begins .finite config t.before t.input = true → Room config t.before)))) = .ok (1,true) := by decide +kernel
  obtain ⟨ts,s,path,count,room⟩ := Runs.replay_pair observed
  simp only [List.all_eq_true,decide_eq_true_eq] at room
  exact ⟨ts,s,path,count,(recoveries_capped_exact path).1.mp room⟩

-- Two sources recover at once where the cap is one.
theorem recoveries_overrun : ∃ ts s, Run (total (next .finite config)) (.fresh 0) ts s ∧
    config.surgeLimits.maxConcurrentRecoveries = 1 ∧ recoveries s = 2 := by
  have observed : (run (one ++ [submitted "b" 100])).map (fun result => recoveries result.2) = .ok 2 := by decide +kernel
  obtain ⟨ts,s,path,shown⟩ := replay_observed observed
  exact ⟨ts,s,path,rfl,shown⟩

end StellarPriceOracle.RecoveryCap
