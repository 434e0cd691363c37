import StellarPriceOracle.DeviationBreaker
import StellarPriceOracle.Library.DecimalText
import StellarPriceOracle.Library.Runs

-- price-quality/freshness.ts and price-aggregation/aggregator.ts, without anomaly score, version and hash.
namespace StellarPriceOracle.PriceAggregator
open CommonScale DeviationBreaker
open JsNumber (lt max mul sub)
open Except (ok toOption)
open BigNumber

structure FreshnessPolicy where
  (hardMaxAgeMs minAgeMs baseAgeMs sensitivity : ℚ)
  positive : 0 < minAgeMs
  nonnegative : 0 ≤ sensitivity
  least : minAgeMs ≤ baseAgeMs
  most : baseAgeMs ≤ hardMaxAgeMs

structure Host extends BigNumber.Texts where
  toNumber : ℚ → JsNumber
  toUpperCase : String → String

def freshnessBudget (policy : FreshnessPolicy) (volatilityBps : ℚ) : Except String ℚ :=
  if volatilityBps < 0 then .error "Invalid volatility"
  else .ok (min policy.hardMaxAgeMs (max policy.minAgeMs (policy.baseAgeMs / (1 + policy.sensitivity * volatilityBps / 10000))))

def realizedVolatility (host : Host) (before after : ℚ) : Except String ℚ :=
  if before ≤ 0 ∨ after ≤ 0 then .error "Volatility prices must be finite and positive"
  else
    match host.toNumber (dividedBy |after - before| before * 10000) with
    | .finite result => .ok result
    | _ => .error "Volatility overflow"

def isFresh (observedAt : Option JsNumber) (nowMs : Int) (budgetMs : JsNumber) : Bool :=
  match observedAt,budgetMs with
  | some (.finite observed),.finite budget =>
    decide (0 ≤ observed) && decide (0 < budget) && decide (observed * 1000 ≤ nowMs) && decide (nowMs - observed * 1000 < budget)
  | _,_ => false

structure Settings where
  policy : Option FreshnessPolicy
  stalenessThresholdMs : JsNumber
  breaker : CircuitBreakerConfig

inductive Mode where
  | legacy | volatilityBounded
  deriving DecidableEq

inductive Fallback where
  | none | stale | suspicious
  deriving DecidableEq

inductive DegradationLevel where
  | healthy | degraded | critical
  deriving DecidableEq

structure AggregatedPrice where
  asset : String
  price : Text
  decimals : Nat
  sources : List String
  timestamp : Int
  confidence : ℚ
  degradationLevel : DegradationLevel
  (stale ageVerified : Bool)
  deriving DecidableEq

structure Observation where
  source : String
  price : Text
  decimals : Nat
  observedAt : Option JsNumber
  timestamp : JsNumber
  normalizedPrice : Option Text
  included : Bool
  reasons : List String

structure PolicyEvidence where
  mode : Mode
  budgetMs : JsNumber
  hardMaxAgeMs : Option ℚ
  volatilityBps : ℚ

structure Quorum where
  (available contributing minimum : Nat)
  met : Bool

structure AggregationEvidence where
  asset : String
  evaluatedAtMs : Int
  policy : PolicyEvidence
  observations : List Observation
  quorum : Quorum
  fallback : Fallback
  result : Option AggregatedPrice

-- The price is kept as a text in full and read back: here it is the number.
structure Previous where
  price : ℚ
  timestamp : JsNumber
  volatilityBps : ℚ

structure Aggregator where
  sources : InsertionMap String NormalizedPrice
  breaker : CircuitBreaker
  evidence : InsertionMap String AggregationEvidence
  previous : InsertionMap String Previous

def Aggregator.fresh (now : Int) : Aggregator := ⟨.empty,.fresh now,.empty,.empty⟩

def sourceKey (p : NormalizedPrice) : String := p.source ++ ":" ++ p.asset

def Aggregator.pricesOf (a : Aggregator) (asset : String) : List NormalizedPrice := a.sources.values.filter (fun p => p.asset = asset)

section
variable (host : Host) (settings : Settings)

section
variable (a : Aggregator)

def updateSourcePrice (price : NormalizedPrice) (now : Int) : Aggregator :=
  let sources := a.sources.set (sourceKey price) price
  {a with
    sources := sources
    breaker := (evaluatePrice host.toNumber settings.breaker a.breaker price sources.values now).1}

def volatilityOf (asset : String) : ℚ := ((a.previous.get asset).map Previous.volatilityBps).getD 0

def budgetOf (asset : String) : Except String JsNumber :=
  match settings.policy with
  | some policy => (freshnessBudget policy (volatilityOf a asset)).map .finite
  | none => .ok settings.stalenessThresholdMs

def passes (nowMs : Int) (budgetMs : JsNumber) (p : NormalizedPrice) : Bool :=
  match settings.policy with
  | some _ => isFresh p.observedAt nowMs budgetMs
  | none => lt (sub (.finite nowMs) (mul p.timestamp 1000)) budgetMs

structure Selection where
  (prices validPrices : List NormalizedPrice)
  stale : Bool
  (trustedPrices pricesToUse : List NormalizedPrice)

def select (asset : String) (nowMs : Int) (budgetMs : JsNumber) : Selection :=
  let prices := a.pricesOf asset
  let validPrices := prices.filter (passes settings nowMs budgetMs)
  let stale : Bool := validPrices.length = 0
  let activePrices := if stale && settings.policy.isNone then prices else validPrices
  let trustedPrices := activePrices.filter (fun p => !a.breaker.suspicious p)
  let pricesToUse := if 0 < trustedPrices.length then trustedPrices else if settings.policy.isSome then [] else activePrices
  ⟨prices,validPrices,stale,trustedPrices,pricesToUse⟩

def fallbackOf (s : Selection) : Fallback :=
  if s.stale && settings.policy.isNone then .stale
  else if s.trustedPrices.length = 0 ∧ 0 < s.pricesToUse.length then .suspicious else .none

def observe (s : Selection) (result : Option AggregatedPrice) (p : NormalizedPrice) : Observation where
  source := p.source
  price := signed (p.price < 0) (whole p.price.natAbs)
  decimals := p.decimals
  observedAt := p.observedAt
  timestamp := p.timestamp
  normalizedPrice := result.map (fun r => host.toFixed p.price (r.decimals - p.decimals))
  included := s.pricesToUse.contains p
  reasons := (if s.validPrices.contains p then [] else ["outside-freshness-policy"]) ++
    (if p.observedAt.isNone then ["unverified-observation-time"] else []) ++ (if a.breaker.suspicious p then ["suspicious"] else [])

def capture (asset : String) (nowMs : Int) (budgetMs : JsNumber) (s : Selection) (result : Option AggregatedPrice) :
    AggregationEvidence where
  asset := asset
  evaluatedAtMs := nowMs
  policy := ⟨if settings.policy.isSome then .volatilityBounded else .legacy,budgetMs,settings.policy.map FreshnessPolicy.hardMaxAgeMs,volatilityOf a asset⟩
  observations := s.prices.map (observe host a s result)
  quorum := ⟨s.prices.length,s.pricesToUse.length,1,decide (1 ≤ s.pricesToUse.length)⟩
  fallback := fallbackOf settings s
  result := result

def computeDegradationLevel (activeCount totalCount : Nat) (stale : Bool) : DegradationLevel :=
  if stale = true ∨ activeCount = 0 then .critical
  else
    let ratio : ℚ := activeCount / Nat.max totalCount 1
    if ratio < 1/2 then .critical else if ratio < 1 then .degraded else .healthy

def aggregate (asset : String) (nowMs : Int) (s : Selection) : AggregatedPrice :=
  let median := medianOnCommonScale s.pricesToUse
  ⟨asset,host.toString median.value.num,median.decimals,JsArray.distinct (s.pricesToUse.map NormalizedPrice.source),nowMs / 1000,
    s.pricesToUse.length / Nat.max s.prices.length 1,computeDegradationLevel s.pricesToUse.length s.prices.length s.stale,s.stale,
    isAgeVerified s.pricesToUse⟩

def latestObservation (prices : List NormalizedPrice) : JsNumber :=
  (prices.map (fun p => p.observedAt.getD p.timestamp)).foldl max (.infinite true)

def remember (asset : String) (prices : List NormalizedPrice) : Except String (InsertionMap String Previous) :=
  let median := medianOnCommonScale prices
  let humanPrice := shiftedBy median.value (-median.decimals)
  if 0 < median.value then
    match a.previous.get asset with
    | none => .ok (a.previous.set asset ⟨humanPrice,latestObservation prices,0⟩)
    | some previous =>
      if lt previous.timestamp (latestObservation prices) then do
        let volatilityBps ← realizedVolatility host previous.price humanPrice
        .ok (a.previous.set asset ⟨humanPrice,latestObservation prices,volatilityBps⟩)
      else .ok a.previous
  else .ok a.previous

-- An error is thrown to the caller and leaves everything as it was.
def getLatestForAsset (asset : String) (nowMs : Int) : Except String (Aggregator × Option AggregatedPrice) :=
  let normalized := host.toUpperCase asset
  if (a.pricesOf normalized).length = 0 then .ok (a,none)
  else do
    let budgetMs ← budgetOf settings a normalized
    let s := select settings a normalized nowMs budgetMs
    if s.pricesToUse.length = 0 then
      .ok ({a with evidence := a.evidence.set normalized (capture host settings a normalized nowMs budgetMs s none)},none)
    else do
      let result := aggregate host normalized nowMs s
      let previous ← remember host a normalized s.pricesToUse
      .ok ({a with previous := previous,evidence := a.evidence.set normalized (capture host settings a normalized nowMs budgetMs s (some result))},some result)

def getEvidence (asset : String) : Option AggregationEvidence := a.evidence.get (host.toUpperCase asset)

inductive Input where
  | updateSourcePrice (price : NormalizedPrice) (now : Int)
  | getLatestForAsset (asset : String) (now : Int)

def step : Input → Except String Aggregator
  | .updateSourcePrice price now => .ok (updateSourcePrice host settings a price now)
  | .getLatestForAsset asset now => (getLatestForAsset host settings a asset now).map Prod.fst

end

end

structure Reads (host : Host) (settings : Settings) (a : Aggregator) (asset : String) (nowMs : Int) (budgetMs : JsNumber) (next : Aggregator)
    (result : Option AggregatedPrice) : Prop where
  budget : budgetOf settings a (host.toUpperCase asset) = .ok budgetMs
  answer : result =
    if (select settings a (host.toUpperCase asset) nowMs budgetMs).pricesToUse = [] then none
    else some (aggregate host (host.toUpperCase asset) nowMs (select settings a (host.toUpperCase asset) nowMs budgetMs))
  evidence : next.evidence = a.evidence.set (host.toUpperCase asset)
    (capture host settings a (host.toUpperCase asset) nowMs budgetMs (select settings a (host.toUpperCase asset) nowMs budgetMs) result)
  sources : next.sources = a.sources

theorem getLatest_reads (mem : a.pricesOf (host.toUpperCase asset) ≠ []) (read : getLatestForAsset host settings a asset nowMs = .ok (next,result)) :
    ∃ budgetMs, Reads host settings a asset nowMs budgetMs next result := by
  have some : (a.pricesOf (host.toUpperCase asset)).length ≠ 0 := fun none => mem (List.length_eq_zero_iff.mp none)
  simp only [getLatestForAsset,if_neg some,Guarded.bind_ok] at read
  obtain ⟨budgetMs,budget,read⟩ := read
  refine ⟨budgetMs,?_⟩
  split at read
  · rename_i none
    have none := List.length_eq_zero_iff.mp none
    simp only [ok.injEq,Prod.mk.injEq] at read
    obtain ⟨rfl,rfl⟩ := read
    exact ⟨budget,by rw [if_pos none],rfl,rfl⟩
  · rename_i used
    have used := fun none => used (List.length_eq_zero_iff.mpr none)
    simp only [Guarded.bind_ok,ok.injEq,Prod.mk.injEq] at read
    obtain ⟨_,_,rfl,rfl⟩ := read
    exact ⟨budget,by rw [if_neg used],rfl,rfl⟩

theorem getLatest_nothing (none : a.pricesOf (host.toUpperCase asset) = []) : getLatestForAsset host settings a asset nowMs = .ok (a,.none) := by
  simp [getLatestForAsset,none]

theorem getLatest_sources (read : getLatestForAsset host settings a asset nowMs = .ok (next,result)) : next.sources = a.sources := by
  by_cases none : a.pricesOf (host.toUpperCase asset) = []
  · rw [getLatest_nothing none] at read
    cases read
    rfl
  · obtain ⟨_,reads⟩ := getLatest_reads none read
    exact reads.sources

theorem getLatest_present (read : getLatestForAsset host settings a asset nowMs = .ok (next,some r)) : a.pricesOf (host.toUpperCase asset) ≠ [] := by
  intro none
  rw [getLatest_nothing none] at read
  cases read

theorem used_filter : ∃ keep, (select settings a asset nowMs budgetMs).pricesToUse = (a.pricesOf asset).filter keep := by
  have active : ∃ keep, (if (decide (((a.pricesOf asset).filter (passes settings nowMs budgetMs)).length = 0) && settings.policy.isNone) = true
      then a.pricesOf asset else (a.pricesOf asset).filter (passes settings nowMs budgetMs)) = (a.pricesOf asset).filter keep := by
    split
    · exact ⟨fun _ => true,by simp⟩
    · exact ⟨_,rfl⟩
  obtain ⟨keep,active⟩ := active
  simp only [select,active]
  split
  · exact ⟨_,List.filter_filter⟩
  · split
    · exact ⟨fun _ => false,by simp⟩
    · exact ⟨keep,rfl⟩

def answer (host : Host) (settings : Settings) (a : Aggregator) (asset : String) (nowMs : Int) (part : AggregatedPrice → α) : Option (Option α) :=
  (getLatestForAsset host settings a asset nowMs).toOption.map (fun read => read.2.map part)

theorem answer_read (answered : answer host settings a asset nowMs part = some (some x)) :
    ∃ next r, getLatestForAsset host settings a asset nowMs = .ok (next,some r) ∧ part r = x := by
  unfold answer at answered
  cases read : getLatestForAsset host settings a asset nowMs with
  | error => simp [read,toOption] at answered
  | ok result =>
    obtain ⟨next,result⟩ := result
    cases result with
    | none => simp [read,toOption] at answered
    | some r => exact ⟨next,r,rfl,by simpa [read,toOption] using answered⟩

end StellarPriceOracle.PriceAggregator
