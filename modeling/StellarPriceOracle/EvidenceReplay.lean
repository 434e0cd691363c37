import StellarPriceOracle.PriceAggregator

-- What an auditor finds when computing an aggregated price again from its evidence.
namespace StellarPriceOracle.EvidenceReplay
open CommonScale DeviationBreaker PriceAggregator Runs
open InsertionMap
open List
open BigNumber

structure Lists (o : Observation) (p : NormalizedPrice) : Prop where
  source : o.source = p.source
  price : denoted o.price = some (p.price : ℚ)
  decimals : o.decimals = p.decimals
  observedAt : o.observedAt = p.observedAt
  timestamp : o.timestamp = p.timestamp

def Normalized (o : Observation) (q : ℚ) : Prop := ∃ text, o.normalizedPrice = some text ∧ denoted text = some q

def included (e : AggregationEvidence) : List Observation := e.observations.filter Observation.included

structure Reproduces (prices : List NormalizedPrice) (e : AggregationEvidence) : Prop where
  once : prices.Nodup
  listed : Forall₂ Lists e.observations prices
  absent : e.result = none ↔ included e = []
  price : ∀ r, e.result = some r → ∃ values m n, Forall₂ Normalized (included e) values ∧
    Median.median values = some m ∧ Nearest n m ∧ denoted r.price = some (n : ℚ)
  contributing : e.quorum.contributing = (included e).length
  available : e.quorum.available = e.observations.length

section
variable {host : Host} {settings : Settings} {a next : Aggregator} {asset : String} {nowMs : Int} {budgetMs : JsNumber}

-- A price stands under its own key, so under one only.
def Keyed (a : Aggregator) : Prop := ∀ key p, a.sources.get key = some p → sourceKey p = key

theorem step_keyed (keyed : Keyed a) (ran : step host settings a input = .ok next) : Keyed next := by
  cases input with
  | updateSourcePrice price =>
    cases ran
    intro key p got
    rcases eq_or_ne key (sourceKey price) with rfl | same
    · have got : (a.sources.set (sourceKey price) price).get (sourceKey price) = some p := got
      rw [get_set] at got
      cases got
      rfl
    · have got : (a.sources.set (sourceKey price) price).get key = some p := got
      rw [get_set_ne same] at got
      exact keyed key p got
  | getLatestForAsset asset now =>
    rw [step] at ran
    cases read : getLatestForAsset host settings a asset now with
    | error =>
      rw [read] at ran
      cases ran
    | ok r =>
      obtain ⟨after,r⟩ := r
      rw [read] at ran
      have after : after = next := Except.ok.inj ran
      have same : next.sources = a.sources := after ▸ getLatest_sources read
      intro key p got
      rw [same] at got
      exact keyed key p got

theorem run_keyed (path : Run (step host settings) (.fresh start) ts a) : Keyed a :=
  path.invariant_of (fun _ _ => trivial) (by simp [Keyed,Aggregator.fresh]) (fun t _ ran keyed => step_keyed keyed ran)

theorem pricesOf_nodup (keyed : Keyed a) : (a.pricesOf asset).Nodup := by
  have keys : a.sources.values.map sourceKey = a.sources.entries.map Prod.fst := by
    rw [values,map_map]
    apply map_congr_left
    rintro ⟨key,p⟩ listed
    exact keyed key p (get_exact.mpr listed)
  have distinct : a.sources.values.Nodup := Nodup.of_map sourceKey (keys ▸ a.sources.distinct)
  exact distinct.filter _

theorem contains_filter (l : List NormalizedPrice) (keep : NormalizedPrice → Bool) : l.filter (fun p => (l.filter keep).contains p) = l.filter keep := by
  apply filter_congr
  intro p mem
  simp [mem]

theorem observe_lists : Lists (observe host a s r p) p := by
  have price : denoted (toFixed p.price 0) = some (p.price : ℚ) := by
    rw [denoted_toFixed]
    simp [shiftedBy]
  exact ⟨rfl,by simpa [observe,toFixed,fixed] using price,rfl,rfl,rfl⟩

theorem included_exact (host : Host) (settings : Settings) (a : Aggregator) (asset : String) (nowMs : Int) (budgetMs : JsNumber) (r : Option AggregatedPrice) :
    included (capture host settings a asset nowMs budgetMs (select settings a asset nowMs budgetMs) r) =
      (select settings a asset nowMs budgetMs).pricesToUse.map (observe host a (select settings a asset nowMs budgetMs) r) := by
  obtain ⟨keep,used⟩ := used_filter
  have marked : (a.pricesOf asset).filter (Observation.included ∘ observe host a (select settings a asset nowMs budgetMs) r) =
      (a.pricesOf asset).filter keep := by
    rw [← contains_filter (a.pricesOf asset) keep,← used]
    rfl
  rw [used,included,← marked]
  exact filter_map

theorem observe_normalized (decimals : r.decimals = D) : Normalized (observe host a s (some r) p) (toScale p D) := by
  subst decimals
  exact ⟨_,rfl,host.shifted⟩

theorem evidence_reproduces_result (path : Run (step host settings) (.fresh start) ts a) (present : a.pricesOf (host.toUpperCase asset) ≠ [])
    (read : getLatestForAsset host settings a asset nowMs = .ok (next,result)) :
    ∃ e, getEvidence host next asset = some e ∧ e.result = result ∧ Reproduces (a.pricesOf (host.toUpperCase asset)) e := by
  obtain ⟨budgetMs,reads⟩ := getLatest_reads present read
  refine ⟨_,by rw [getEvidence,reads.evidence,get_set],rfl,?_⟩
  have marked := included_exact host settings a (host.toUpperCase asset) nowMs budgetMs result
  constructor
  case once => exact pricesOf_nodup (run_keyed path)
  case listed =>
    rw [show AggregationEvidence.observations _ = (a.pricesOf (host.toUpperCase asset)).map _ from rfl,forall₂_map_left_iff,forall₂_same]
    exact fun p _ => observe_lists
  case absent =>
    rw [marked,map_eq_nil_iff]
    show result = none ↔ _
    rw [reads.answer]
    split
    · rename_i none
      exact ⟨fun _ => none,fun _ => rfl⟩
    · rename_i used
      constructor
      · intro none
        cases none
      · intro none
        exact absurd none used
  case price =>
    intro r answered
    have answered : result = some r := answered
    subst answered
    have answer := reads.answer
    split at answer
    · cases answer
    rename_i used
    cases answer
    obtain ⟨m,median,value⟩ := scaled_median used
    refine ⟨_,m,_,?_,median,BigNumber.round_nearest,?_⟩
    · rw [marked,scaled,forall₂_map_left_iff,forall₂_map_right_iff,forall₂_same]
      exact fun p _ => observe_normalized (decimals_exact used)
    · rw [aggregate,value]
      exact host.denotes
  case contributing =>
    rw [marked,length_map]
    rfl
  case available => exact (length_map _).symm

end

namespace Sample

def host : Host := ⟨texts,.finite,fun text => if text = "xlm" then "XLM" else text⟩

def settings : Settings := ⟨none,300000,defaultConfig⟩

def quotes : List NormalizedPrice := [⟨"XLM",1234500,7,"band",900,none⟩,⟨"XLM",12345700,8,"dia",950,none⟩,⟨"XLM",9,0,"redstone",100,none⟩]

def holding : Aggregator := quotes.foldl (fun a price => updateSourcePrice host settings a price 1000000) (.fresh 0)

theorem holding_reached : ∃ ts, Run (step host settings) (.fresh 0) ts holding :=
  ⟨_,.snoc (i := .updateSourcePrice _ 1000000) (.snoc (i := .updateSourcePrice _ 1000000) (.snoc (i := .updateSourcePrice _ 1000000) .nil rfl) rfl) rfl⟩

theorem mixed_scales_reproduced : ∃ next r e, getLatestForAsset host settings holding "xlm" 1000000 = .ok (next,some r) ∧
    r.price = "12345350".toList ∧ getEvidence host next "xlm" = some e ∧ e.result = some r ∧ Reproduces quotes e := by
  obtain ⟨_,path⟩ := holding_reached
  have all : holding.pricesOf (host.toUpperCase "xlm") = quotes := by decide +kernel
  have present : holding.pricesOf (host.toUpperCase "xlm") ≠ [] := by
    rw [all]
    exact cons_ne_nil _ _
  obtain ⟨next,r,read,price⟩ := answer_read (show answer host settings holding "xlm" 1000000 AggregatedPrice.price = some (some "12345350".toList) by decide +kernel)
  obtain ⟨e,stored,same,reproduces⟩ := evidence_reproduces_result path present read
  exact ⟨next,r,e,read,price,stored,same,all ▸ reproduces⟩

end Sample

end StellarPriceOracle.EvidenceReplay
