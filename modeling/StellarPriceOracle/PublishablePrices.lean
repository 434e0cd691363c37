import StellarPriceOracle.PriceAggregator
import StellarPriceOracle.PriceScaling

-- From an aggregated price back to an integer: `BigInt(price.price)`.
namespace StellarPriceOracle.PublishablePrices
open CommonScale DeviationBreaker PriceAggregator
open PriceScaling (scaleValidatedPrice wholeDecimals)
open BigNumber

def Validated (p : NormalizedPrice) : Prop := ∃ host price decimals,
  scaleValidatedPrice host price decimals = .ok p.price ∧ wholeDecimals decimals = some p.decimals

def Publishable (prices : List NormalizedPrice) (r : AggregatedPrice) : Prop :=
  ∃ n, bigInt r.price = some n ∧ (n : ℚ) = (medianOnCommonScale prices).value

def Fits (prices : List NormalizedPrice) : Prop := ∀ m, exactMedian prices = some m → m * 10^highestDecimals prices < 10^21 - 1/2

section
variable {host : Host} {settings : Settings} {a next : Aggregator} {asset : String} {nowMs : Int} {budgetMs : JsNumber} {r : AggregatedPrice}
  {prices : List NormalizedPrice} {p : NormalizedPrice}

theorem Validated.positive (validated : Validated p) : 0 < p.price := by
  obtain ⟨_,_,_,ran,_⟩ := validated
  obtain ⟨_,_,_,_,_,positive⟩ := PriceScaling.scaled_parts ran
  exact positive

theorem worth_positive (validated : Validated p) : 0 < worth p := by
  have positive : (0 : ℚ) < p.price := by exact_mod_cast validated.positive
  unfold worth
  positivity

theorem value_positive (nonempty : prices ≠ []) (validated : ∀ p ∈ prices, Validated p) : 0 < (medianOnCommonScale prices).value := by
  obtain ⟨p,mem,_,_,least,_⟩ := value_between nonempty
  have positive := worth_positive (validated p mem)
  exact lt_of_lt_of_le (by positivity) least

theorem aggregate_price (value : (medianOnCommonScale s.pricesToUse).value = (n : Int)) : (aggregate host asset nowMs s).price = host.toString n := by
  simp [aggregate,value,Rat.num_intCast]

theorem publishable_exact (used : s.pricesToUse ≠ []) (validated : ∀ p ∈ s.pricesToUse, Validated p) :
    Publishable s.pricesToUse (aggregate host asset nowMs s) ↔ Fits s.pricesToUse := by
  obtain ⟨m,median,value⟩ := value_exact used
  have positive : 0 < BigNumber.round (m * 10^highestDecimals s.pricesToUse) := by
    have := value_positive used validated
    rw [value] at this
    exact_mod_cast this
  have bound : BigNumber.round (m * 10^highestDecimals s.pricesToUse) < 10^21 ↔ m * 10^highestDecimals s.pricesToUse < 10^21 - 1/2 := by
    have exact := BigNumber.round_lt (q := m * 10^highestDecimals s.pricesToUse) (show (0 : Int) < 10^21 by decide)
    rwa [Int.cast_pow,Int.cast_ofNat] at exact
  have fits : Fits s.pricesToUse ↔ m * 10^highestDecimals s.pricesToUse < 10^21 - 1/2 := by
    simp [Fits,median,Option.some.injEq,forall_eq']
  rw [fits,← bound,Publishable,aggregate_price value,host.integral]
  constructor
  · rintro ⟨n,read,_⟩
    by_contra large
    rw [if_neg (by omega)] at read
    cases read
  · intro _
    exact ⟨_,if_pos (by omega),value.symm⟩

theorem used_price (used : p ∈ (select settings a asset nowMs budgetMs).pricesToUse) : p ∈ a.pricesOf asset := by
  obtain ⟨_,same⟩ := used_filter
  rw [same] at used
  exact List.mem_of_mem_filter used

theorem price_publishable_exactly (validated : ∀ p ∈ a.pricesOf (host.toUpperCase asset), Validated p)
    (read : getLatestForAsset host settings a asset nowMs = .ok (next,some r)) :
    ∃ budgetMs, budgetOf settings a (host.toUpperCase asset) = .ok budgetMs ∧
      (Publishable (select settings a (host.toUpperCase asset) nowMs budgetMs).pricesToUse r ↔
        Fits (select settings a (host.toUpperCase asset) nowMs budgetMs).pricesToUse) := by
  obtain ⟨budgetMs,reads⟩ := getLatest_reads (getLatest_present read) read
  refine ⟨budgetMs,reads.budget,?_⟩
  have answer := reads.answer
  split at answer
  · cases answer
  rename_i used
  cases answer
  exact publishable_exact used (fun p present => validated p (used_price present))

end

namespace Sample

def validation : PriceScaling.Host where
  bigNumber
    | .text _ => .nan
    | .number value => value
  overflows _ := false
  priceText _ := "NaN"
  numberText _ := "NaN"

def host : Host := ⟨texts,.finite,fun text => if text = "eth" then "ETH" else text⟩

def settings : Settings := ⟨none,300000,defaultConfig⟩

def quote (price : Int) : NormalizedPrice := ⟨"ETH",price,18,"band",900,none⟩

def holding (price : Int) : Aggregator := updateSourcePrice host settings (.fresh 0) (quote price) 1000000

-- A price of 1000 with 18 decimals passes the validation. Its text has an exponent and is no integer literal.
theorem thousand_not_publishable : scaleValidatedPrice validation (.number 1000) 18 = .ok (10^21) ∧
    answer host settings (holding (10^21)) "eth" 1000000 AggregatedPrice.price = some (some "1e+21".toList) ∧
    BigNumber.bigInt "1e+21".toList = none ∧ (medianOnCommonScale [quote (10^21)]).value = 10^21 := by
  refine ⟨by decide +kernel,by decide +kernel,by decide,by decide +kernel⟩

theorem hundred_publishable : ∃ next r, getLatestForAsset host settings (holding (10^20)) "eth" 1000000 = .ok (next,some r) ∧
    Publishable [quote (10^20)] r := by
  have only : (holding (10^20)).pricesOf (host.toUpperCase "eth") = [quote (10^20)] := by decide +kernel
  have used : (select settings (holding (10^20)) (host.toUpperCase "eth") 1000000 300000).pricesToUse = [quote (10^20)] := by decide +kernel
  have validated : ∀ p ∈ (holding (10^20)).pricesOf (host.toUpperCase "eth"), Validated p := by
    intro p present
    rw [only,List.mem_singleton] at present
    subst present
    exact ⟨validation,.number 100,18,by decide +kernel,by decide +kernel⟩
  obtain ⟨next,r,read,_⟩ := answer_read (show answer host settings (holding (10^20)) "eth" 1000000 AggregatedPrice.decimals = some (some 18) by decide +kernel)
  obtain ⟨budgetMs,budget,exact⟩ := price_publishable_exactly validated read
  have same : budgetMs = 300000 := (Except.ok.inj budget).symm
  rw [same,used] at exact
  refine ⟨next,r,read,exact.mpr ?_⟩
  intro m median
  have value : exactMedian [quote (10^20)] = some 100 := by decide +kernel
  cases value.symm.trans median
  decide +kernel

end Sample

end StellarPriceOracle.PublishablePrices
