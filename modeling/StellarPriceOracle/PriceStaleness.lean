import StellarPriceOracle.PriceAggregator

-- What a price rests on that is not reported as stale.
namespace StellarPriceOracle.PriceStaleness
open CommonScale DeviationBreaker PriceAggregator
open JsNumber (le lt add mul neg sub)
open List

@[simp] def observationTime (settings : Settings) (p : NormalizedPrice) : JsNumber :=
  match settings.policy with
  | some _ => p.observedAt.getD .nan
  | none => p.timestamp

structure FreshAt (nowMs : Int) (budgetMs time : JsNumber) : Prop where
  past : le (mul time 1000) (.finite nowMs) = true
  young : lt (sub (.finite nowMs) (mul time 1000)) budgetMs = true

structure RestsOnFresh (settings : Settings) (a : Aggregator) (asset : String) (nowMs : Int) (budgetMs : JsNumber) : Prop where
  contributing : ∀ p ∈ (select settings a asset nowMs budgetMs).pricesToUse, FreshAt nowMs budgetMs (observationTime settings p)
  bounded : ∀ policy, settings.policy = some policy → le budgetMs (.finite policy.hardMaxAgeMs) = true

def ahead (nowMs : Int) (p : NormalizedPrice) : Bool := lt (.finite nowMs) (mul p.timestamp 1000)

-- Without a policy, a price from the future is held only from a suspicious source, beside another.
def NoneAhead (settings : Settings) (a : Aggregator) (asset : String) (nowMs : Int) : Prop :=
  settings.policy = none → ∀ p ∈ a.pricesOf asset, passes settings nowMs settings.stalenessThresholdMs p = true → ahead nowMs p = true →
    a.breaker.suspicious p = true ∧
      ∃ q ∈ a.pricesOf asset, passes settings nowMs settings.stalenessThresholdMs q = true ∧ a.breaker.suspicious q = false

section
variable {host : Host} {settings : Settings} {a next : Aggregator} {asset : String} {nowMs : Int} {budgetMs : JsNumber} {p : NormalizedPrice}

theorem le_of_lt_sub (young : lt (sub (.finite n) time) budget = true) : le time (.finite n) = true ↔ lt (.finite n) time = false := by
  cases time with
  | nan => simp [sub,neg,add,lt] at young
  | infinite negative | finite q => simp [le]

theorem isFresh_exact : isFresh observedAt nowMs (.finite budget) = true ↔
    ∃ seen, observedAt = some (.finite seen) ∧ 0 ≤ seen ∧ 0 < budget ∧ seen * 1000 ≤ nowMs ∧ nowMs - seen * 1000 < budget := by
  unfold isFresh
  split
  · rename_i seen _ same
    cases same
    simp [and_assoc]
  · rename_i other
    constructor
    · intro fresh
      cases fresh
    · rintro ⟨seen,rfl,_⟩
      exact absurd rfl (other seen budget rfl)

theorem budget_bounded (fixed : settings.policy = some policy) (budget : budgetOf settings a asset = .ok budgetMs) :
    ∃ q, budgetMs = .finite q ∧ q ≤ policy.hardMaxAgeMs := by
  unfold budgetOf at budget
  rw [fixed] at budget
  unfold freshnessBudget at budget
  dsimp only at budget
  split at budget
  · cases budget
  · cases budget
    exact ⟨_,rfl,min_le_left _ _⟩

theorem budget_legacy (legacy : settings.policy = none) (budget : budgetOf settings a asset = .ok budgetMs) : budgetMs = settings.stalenessThresholdMs := by
  unfold budgetOf at budget
  rw [legacy] at budget
  exact (Except.ok.inj budget).symm

theorem used_exact (live : (select settings a asset nowMs budgetMs).stale = false) : p ∈ (select settings a asset nowMs budgetMs).pricesToUse ↔
    p ∈ a.pricesOf asset ∧ passes settings nowMs budgetMs p = true ∧ (a.breaker.suspicious p = false ∨
      settings.policy = none ∧ ∀ q ∈ a.pricesOf asset, passes settings nowMs budgetMs q = true → a.breaker.suspicious q = true) := by
  have active : (select settings a asset nowMs budgetMs).trustedPrices =
      ((a.pricesOf asset).filter (passes settings nowMs budgetMs)).filter (fun p => !a.breaker.suspicious p) := by
    have live : decide (((a.pricesOf asset).filter (passes settings nowMs budgetMs)).length = 0) = false := live
    simp only [select,live,Bool.false_and,Bool.false_eq_true,if_false]
  have used : (select settings a asset nowMs budgetMs).pricesToUse =
      if 0 < (select settings a asset nowMs budgetMs).trustedPrices.length then (select settings a asset nowMs budgetMs).trustedPrices
      else if settings.policy.isSome then [] else (a.pricesOf asset).filter (passes settings nowMs budgetMs) := by
    have live : decide (((a.pricesOf asset).filter (passes settings nowMs budgetMs)).length = 0) = false := live
    simp only [select,live,Bool.false_and,Bool.false_eq_true,if_false]
  rw [used,active]
  split
  · rename_i trusted
    obtain ⟨q,listed⟩ := exists_mem_of_length_pos trusted
    simp only [mem_filter,Bool.not_eq_true'] at listed ⊢
    constructor
    · rintro ⟨⟨mem,passed⟩,clear⟩
      exact ⟨mem,passed,.inl clear⟩
    · rintro ⟨mem,passed,clear | ⟨_,all⟩⟩
      · exact ⟨⟨mem,passed⟩,clear⟩
      · have := all q listed.1.1 listed.1.2
        rw [listed.2] at this
        cases this
  · rename_i none
    have all : ∀ q ∈ a.pricesOf asset, passes settings nowMs budgetMs q = true → a.breaker.suspicious q = true := by
      intro q mem passed
      by_contra clear
      apply none
      apply length_pos_of_mem (a := q)
      simp only [mem_filter,Bool.not_eq_true']
      exact ⟨⟨mem,passed⟩,by simpa using clear⟩
    split
    · rename_i policy
      constructor
      · intro listed
        cases listed
      · rintro ⟨mem,passed,clear | ⟨absent,_⟩⟩
        · rw [all p mem passed] at clear
          cases clear
        · simp [absent] at policy
    · rename_i legacy
      rw [mem_filter]
      constructor
      · rintro ⟨mem,passed⟩
        exact ⟨mem,passed,.inr ⟨by simpa using legacy,all⟩⟩
      · rintro ⟨mem,passed,_⟩
        exact ⟨mem,passed⟩

theorem legacy_passes (legacy : settings.policy = none) : passes settings nowMs budgetMs p =
    lt (sub (.finite nowMs) (mul p.timestamp 1000)) budgetMs := by
  simp [passes,legacy]

theorem mul_thousand : mul (.finite q) 1000 = .finite (q * 1000) := by
  rw [show (1000 : JsNumber) = .finite ((1000 : Nat) : ℚ) from rfl]
  simp [mul]

theorem policy_fresh (fixed : settings.policy = some policy) (budget : budgetOf settings a asset = .ok budgetMs)
    (live : (select settings a asset nowMs budgetMs).stale = false) : RestsOnFresh settings a asset nowMs budgetMs := by
  obtain ⟨q,rfl,bound⟩ := budget_bounded fixed budget
  constructor
  · intro p used
    obtain ⟨_,passed,_⟩ := (used_exact live).mp used
    simp only [passes,fixed] at passed
    obtain ⟨observed,same,_,_,past,young⟩ := isFresh_exact.mp passed
    have time : observationTime settings p = .finite observed := by simp [fixed,same]
    constructor
    · rw [time,mul_thousand]
      simpa [le,lt] using past
    · rw [time,mul_thousand]
      simpa [sub,neg,add,lt,sub_eq_add_neg] using young
  · intro _ same
    cases fixed.symm.trans same
    simpa [le,lt] using bound

theorem legacy_fresh (legacy : settings.policy = none) (budget : budgetOf settings a asset = .ok budgetMs)
    (live : (select settings a asset nowMs budgetMs).stale = false) : RestsOnFresh settings a asset nowMs budgetMs ↔ NoneAhead settings a asset nowMs := by
  have same := budget_legacy legacy budget
  subst same
  constructor
  · intro rests _ p mem passed early
    have unused : p ∉ (select settings a asset nowMs settings.stalenessThresholdMs).pricesToUse := by
      intro used
      have past := (rests.contributing p used).past
      have young := (rests.contributing p used).young
      rw [le_of_lt_sub young] at past
      simp only [observationTime,legacy] at past
      rw [ahead,past] at early
      cases early
    rw [used_exact live] at unused
    constructor
    · by_contra clear
      exact unused ⟨mem,passed,.inl (by simpa using clear)⟩
    · by_contra lone
      apply unused
      refine ⟨mem,passed,.inr ⟨legacy,?_⟩⟩
      intro q listed within
      by_contra clear
      exact lone ⟨q,listed,within,by simpa using clear⟩
  · intro none
    refine ⟨?_,by simp [legacy]⟩
    intro p used
    obtain ⟨mem,passed,reason⟩ := (used_exact live).mp used
    have young := passed
    rw [legacy_passes legacy] at young
    have time : observationTime settings p = p.timestamp := by simp [legacy]
    rw [time]
    refine ⟨(le_of_lt_sub young).mpr ?_,young⟩
    by_contra early
    obtain ⟨suspect,q,listed,within,clear⟩ := none legacy p mem passed (by simpa [ahead] using early)
    rcases reason with trusted | ⟨_,all⟩
    · cases suspect.symm.trans trusted
    · rw [all q listed within] at clear
      cases clear

theorem not_stale_rests_on_fresh_exactly (read : getLatestForAsset host settings a asset nowMs = .ok (next,some r)) (live : r.stale = false) :
    (∃ budgetMs, budgetOf settings a (host.toUpperCase asset) = .ok budgetMs ∧ RestsOnFresh settings a (host.toUpperCase asset) nowMs budgetMs) ↔
      NoneAhead settings a (host.toUpperCase asset) nowMs := by
  obtain ⟨budgetMs,reads⟩ := getLatest_reads (getLatest_present read) read
  have answer := reads.answer
  split at answer
  · cases answer
  cases answer
  have exact : RestsOnFresh settings a (host.toUpperCase asset) nowMs budgetMs ↔ NoneAhead settings a (host.toUpperCase asset) nowMs := by
    cases policy : settings.policy with
    | none => exact legacy_fresh policy reads.budget live
    | some =>
      constructor
      · intro _ absent
        cases policy.symm.trans absent
      · intro _
        exact policy_fresh policy reads.budget live
  rw [← exact]
  constructor
  · rintro ⟨_,budget,rests⟩
    rw [reads.budget] at budget
    cases budget
    exact rests
  · intro rests
    exact ⟨budgetMs,reads.budget,rests⟩

end

namespace Sample

def host : Host := ⟨BigNumber.texts,.finite,fun text => if text = "xlm" then "XLM" else text⟩

def settings : Settings := ⟨none,300000,defaultConfig⟩

def quote (timestamp : JsNumber) : NormalizedPrice := ⟨"XLM",1234500,7,"band",timestamp,none⟩

def holding (timestamp : JsNumber) : Aggregator := updateSourcePrice host settings (.fresh 0) (quote timestamp) 1000000

-- A price dated an hour ahead passes for fresh.
theorem future_price_not_stale : answer host settings (holding 4600) "xlm" 1000000 AggregatedPrice.stale = some (some false) ∧
    (select settings (holding 4600) "XLM" 1000000 300000).pricesToUse = [quote 4600] ∧ ¬ FreshAt 1000000 300000 (observationTime settings (quote 4600)) := by
  refine ⟨by decide +kernel,by decide +kernel,?_⟩
  intro fresh
  have past := fresh.past
  revert past
  decide +kernel

theorem recent_price_rests_on_fresh : NoneAhead settings (holding 900) "XLM" 1000000 ∧
    ∃ next r, getLatestForAsset host settings (holding 900) "xlm" 1000000 = .ok (next,some r) ∧ r.stale = false ∧
      ∃ budgetMs, budgetOf settings (holding 900) "XLM" = .ok budgetMs ∧ RestsOnFresh settings (holding 900) "XLM" 1000000 budgetMs := by
  have behind : NoneAhead settings (holding 900) "XLM" 1000000 := by
    intro _ p present _ early
    have only : (holding 900).pricesOf "XLM" = [quote 900] := by decide +kernel
    rw [only,mem_singleton] at present
    subst present
    revert early
    decide +kernel
  obtain ⟨next,r,read,live⟩ := answer_read (show answer host settings (holding 900) "xlm" 1000000 AggregatedPrice.stale = some (some false) by decide +kernel)
  exact ⟨behind,next,r,read,live,(not_stale_rests_on_fresh_exactly read live).mpr behind⟩

end Sample

end StellarPriceOracle.PriceStaleness
