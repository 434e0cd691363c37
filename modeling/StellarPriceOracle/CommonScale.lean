import StellarPriceOracle.Library.BigNumber
import StellarPriceOracle.Library.JsArray
import StellarPriceOracle.Library.JsNumber
import StellarPriceOracle.Library.Median

-- services/aggregator/src/price-aggregation/median.ts. Its numbers are exact, so rationals.
namespace StellarPriceOracle.CommonScale
open List
open JsArray (sortBy)
open BigNumber
open Median

structure NormalizedPrice where
  asset : String
  price : Int
  decimals : Nat
  source : String
  timestamp : JsNumber
  observedAt : Option JsNumber
  deriving DecidableEq

@[ext] structure CommonScaleMedian where
  value : ℚ
  decimals : Nat
  deriving DecidableEq

def toScale (price : NormalizedPrice) (decimals : Nat) : ℚ := shiftedBy price.price (decimals - price.decimals)

section
variable (prices : List NormalizedPrice)

def highestDecimals : Nat := prices.foldl (fun max p => Nat.max max p.decimals) 0

def medianOnCommonScale : CommonScaleMedian :=
  if prices.length = 0 then ⟨0,0⟩
  else
    let decimals := highestDecimals prices
    let sorted := sortBy (fun a b => decide (a ≤ b)) (prices.map (fun p => toScale p decimals))
    let mid := sorted.length / 2
    let value : ℚ :=
      if sorted.length % 2 = 0 then BigNumber.round ((sorted.getD (mid - 1) 0 + sorted.getD mid 0) / 2)
      else sorted.getD mid 0
    ⟨value,decimals⟩

def isAgeVerified : Bool := prices.all (fun p => p.observedAt.isSome)

def worth (p : NormalizedPrice) : ℚ := p.price / 10^p.decimals

def exactMedian : Option ℚ := median (prices.map worth)

end

section
variable {prices : List NormalizedPrice} {p : NormalizedPrice} {D : Nat}

theorem foldl_decimals (prices : List NormalizedPrice) (first : Nat) :
    first ≤ prices.foldl (fun max p => Nat.max max p.decimals) first ∧
    (∀ p ∈ prices, p.decimals ≤ prices.foldl (fun max p => Nat.max max p.decimals) first) ∧
    (prices.foldl (fun max p => Nat.max max p.decimals) first = first ∨
      ∃ p ∈ prices, p.decimals = prices.foldl (fun max p => Nat.max max p.decimals) first) := by
  induction prices generalizing first with
  | nil => simp
  | cons head _ ih =>
    obtain ⟨least,all,met⟩ := ih (Nat.max first head.decimals)
    rw [foldl_cons]
    refine ⟨(Nat.le_max_left _ _).trans least,?_,?_⟩
    · intro p mem
      rcases mem_cons.mp mem with rfl | later
      · exact (Nat.le_max_right _ _).trans least
      · exact all p later
    · rcases met with same | ⟨p,mem,same⟩
      · rw [same]
        rcases Nat.le_total first head.decimals with less | more
        · exact .inr ⟨head,mem_cons_self,(Nat.max_eq_right less).symm⟩
        · exact .inl (Nat.max_eq_left more)
      · exact .inr ⟨p,mem_cons_of_mem _ mem,same⟩

theorem highest_bound (mem : p ∈ prices) : p.decimals ≤ highestDecimals prices := (foldl_decimals prices 0).2.1 p mem

theorem highest_met (nonempty : prices ≠ []) : ∃ p ∈ prices, p.decimals = highestDecimals prices := by
  rcases (foldl_decimals prices 0).2.2 with _ | met
  · obtain ⟨p,mem⟩ := exists_mem_of_ne_nil prices nonempty
    have bound := highest_bound mem
    exact ⟨p,mem,by unfold highestDecimals at bound ⊢; omega⟩
  · exact met

theorem highest_mono (within : ∀ p ∈ prices, p ∈ other) : highestDecimals prices ≤ highestDecimals other := by
  by_cases empty : prices = []
  · rw [empty]
    exact Nat.zero_le _
  · obtain ⟨p,mem,same⟩ := highest_met empty
    exact same ▸ highest_bound (within p mem)

theorem toScale_whole (fits : p.decimals ≤ D) : toScale p D = ((p.price * 10^(D - p.decimals) : Int) : ℚ) := by
  have places : (0 : Int) ≤ D - p.decimals := by omega
  have same : ((D : Int) - p.decimals).toNat = D - p.decimals := by omega
  rw [toScale,shiftedBy,if_pos places,same]
  push_cast
  rfl

theorem toScale_worth (fits : p.decimals ≤ D) : toScale p D = worth p * 10^D := by
  have split : (10 : ℚ)^D = 10^(D - p.decimals) * 10^p.decimals := by rw [← pow_add,Nat.sub_add_cancel fits]
  have nonzero : (10 : ℚ)^p.decimals ≠ 0 := by positivity
  rw [toScale_whole fits,worth,split]
  push_cast
  field_simp

def scaled (prices : List NormalizedPrice) : List ℚ := prices.map (fun p => toScale p (highestDecimals prices))

theorem scaled_whole (mem : x ∈ scaled prices) : ∃ n : Int, x = n := by
  obtain ⟨p,listed,rfl⟩ := mem_map.mp mem
  exact ⟨_,toScale_whole (highest_bound listed)⟩

theorem scaled_worth (prices : List NormalizedPrice) : scaled prices = (prices.map worth).map (· * 10^highestDecimals prices) := by
  rw [map_map]
  exact map_congr_left (fun p mem => toScale_worth (highest_bound mem))

theorem sortBy_sorted (l : List ℚ) : sortBy (fun a b => decide (a ≤ b)) l = sorted l := by
  simp [sortBy,sorted,decide_eq_true_eq]

theorem getD_ranked {l : List ℚ} (ranked : (sorted l)[i]? = some x) : (sorted l).getD i 0 = x := by
  rw [getD_eq_getElem?_getD,ranked]
  rfl

section
variable (nonempty : prices ≠ [])
include nonempty

theorem value_middle (low : lower (scaled prices) = some x) (high : upper (scaled prices) = some y) :
    (medianOnCommonScale prices).value = BigNumber.round ((x + y) / 2) := by
  have size : prices.length ≠ 0 := fun empty => nonempty (length_eq_zero_iff.mp empty)
  have length : (scaled prices).length = prices.length := length_map _
  unfold lower at low
  unfold upper at high
  rw [length] at low high
  simp only [medianOnCommonScale,if_neg size,sortBy_sorted,sorted_length,length_map]
  change (if prices.length % 2 = 0 then ((BigNumber.round (((sorted (scaled prices)).getD (prices.length / 2 - 1) 0 +
    (sorted (scaled prices)).getD (prices.length / 2) 0) / 2) : Int) : ℚ) else (sorted (scaled prices)).getD (prices.length / 2) 0) = _
  rw [getD_ranked high]
  split
  · rename_i even
    have same : (prices.length - 1) / 2 = prices.length / 2 - 1 := by omega
    rw [getD_ranked (same ▸ low)]
  · rename_i odd
    have same : (prices.length - 1) / 2 = prices.length / 2 := by omega
    rw [same,high] at low
    cases low
    obtain ⟨n,rfl⟩ := scaled_whole (sorted_perm.mem_iff.mp (mem_of_getElem? high))
    rw [add_self_div_two,round_int]

theorem scaled_median : ∃ m, median (scaled prices) = some m ∧ (medianOnCommonScale prices).value = BigNumber.round m := by
  have mem : scaled prices ≠ [] := by simpa [scaled] using nonempty
  obtain ⟨x,y,low,high,_⟩ := middle mem
  exact ⟨(x + y) / 2,by simp [median,low,high],value_middle nonempty low high⟩

theorem value_exact : ∃ m, exactMedian prices = some m ∧
    (medianOnCommonScale prices).value = BigNumber.round (m * 10^highestDecimals prices) := by
  have pos : (0 : ℚ) < 10^highestDecimals prices := by positivity
  obtain ⟨_,median,value⟩ := scaled_median nonempty
  rw [scaled_worth,median_scaled pos,Option.map_eq_some_iff] at median
  obtain ⟨m,exact,rfl⟩ := median
  exact ⟨m,exact,value⟩

theorem decimals_exact : (medianOnCommonScale prices).decimals = highestDecimals prices := by
  have size : prices.length ≠ 0 := fun empty => nonempty (length_eq_zero_iff.mp empty)
  simp only [medianOnCommonScale,if_neg size]

theorem median_of_perm (same : other.Perm prices) : medianOnCommonScale other = medianOnCommonScale prices := by
  have mem : other ≠ [] := fun empty => nonempty (nil_perm.mp (empty ▸ same))
  have decimals : highestDecimals other = highestDecimals prices :=
    Nat.le_antisymm (highest_mono (fun p => same.mem_iff.mp)) (highest_mono (fun p => same.mem_iff.mpr))
  obtain ⟨m,median,value⟩ := value_exact mem
  obtain ⟨n,median',value'⟩ := value_exact nonempty
  have agree : some m = some n := by
    rw [← median,← median']
    exact Median.median_of_perm (same.map worth)
  cases agree
  apply CommonScaleMedian.ext
  · rw [value,value',decimals]
  · rw [decimals_exact mem,decimals_exact nonempty,decimals]

theorem value_between : ∃ p ∈ prices, ∃ q ∈ prices, worth p * 10^highestDecimals prices ≤ (medianOnCommonScale prices).value ∧
      (medianOnCommonScale prices).value ≤ worth q * 10^highestDecimals prices := by
  have mem : scaled prices ≠ [] := by simpa [scaled] using nonempty
  obtain ⟨x,y,low,high,_⟩ := middle mem
  have first := sorted_perm.mem_iff.mp (mem_of_getElem? low)
  have last := sorted_perm.mem_iff.mp (mem_of_getElem? high)
  obtain ⟨p,listed,least⟩ := mem_map.mp first
  obtain ⟨q,listed',most⟩ := mem_map.mp last
  obtain ⟨n,rfl⟩ := scaled_whole first
  obtain ⟨k,rfl⟩ := scaled_whole last
  refine ⟨p,listed,q,listed',?_⟩
  rw [← toScale_worth (highest_bound listed),← toScale_worth (highest_bound listed'),least,most,value_middle nonempty low high]
  have below : n ≤ BigNumber.round ((n + k) / 2 : ℚ) := BigNumber.le_round (by linarith)
  have above : BigNumber.round ((n + k) / 2 : ℚ) ≤ k := round_le (by linarith)
  exact ⟨by exact_mod_cast below,by exact_mod_cast above⟩

end

-- No minority of the sources moves the median out of the interval of the others.
theorem value_majority (lo hi : Int) (most : prices.length < 2 * prices.countP (fun p =>
    (lo : ℚ) ≤ worth p * 10^highestDecimals prices ∧ worth p * 10^highestDecimals prices ≤ hi)) :
    (lo : ℚ) ≤ (medianOnCommonScale prices).value ∧ (medianOnCommonScale prices).value ≤ hi := by
  have nonempty : prices ≠ [] := by
    rintro rfl
    simp at most
  have mem : scaled prices ≠ [] := by simpa [scaled] using nonempty
  obtain ⟨x,y,low,high,_⟩ := middle mem
  have inside : (scaled prices).length < 2 * (scaled prices).countP (fun z => (lo : ℚ) ≤ z ∧ z ≤ hi) := by
    rw [scaled_worth]
    simpa [countP_map,Function.comp_def] using most
  obtain ⟨_,_⟩ := majority low high inside
  rw [value_middle nonempty low high]
  have below : lo ≤ BigNumber.round ((x + y) / 2) := BigNumber.le_round (by linarith)
  have above : BigNumber.round ((x + y) / 2) ≤ hi := round_le (by linarith)
  exact ⟨by exact_mod_cast below,by exact_mod_cast above⟩

theorem median_correct_on_common_scale {prices : List NormalizedPrice} (nonempty : prices ≠ []) :
    let D := (medianOnCommonScale prices).decimals
    let value := (medianOnCommonScale prices).value
    ((∀ p ∈ prices, p.decimals ≤ D) ∧ ∃ p ∈ prices, p.decimals = D) ∧
      (∃ m n, exactMedian prices = some m ∧ value = (n : Int) ∧ BigNumber.Nearest n (m * 10^D)) ∧
      (∀ other, other.Perm prices → medianOnCommonScale other = medianOnCommonScale prices) ∧
      (∃ p ∈ prices, ∃ q ∈ prices, worth p * 10^D ≤ value ∧ value ≤ worth q * 10^D) ∧
      ∀ lo hi : Int, prices.length < 2 * prices.countP (fun p => (lo : ℚ) ≤ worth p * 10^D ∧ worth p * 10^D ≤ hi) →
        (lo : ℚ) ≤ value ∧ value ≤ hi := by
  dsimp only
  rw [decimals_exact nonempty]
  obtain ⟨m,median,value⟩ := value_exact nonempty
  refine ⟨⟨fun p => highest_bound,highest_met nonempty⟩,⟨m,_,median,value,BigNumber.round_nearest⟩,?_,value_between nonempty,value_majority⟩
  intro _ same
  exact median_of_perm nonempty same

end

namespace Sample

def quote (source : String) (price : Int) (decimals : Nat) : NormalizedPrice := ⟨"XLM",price,decimals,source,1700000000,none⟩

def quotes : List NormalizedPrice := [quote "band" 9 1,quote "chainlink" 11 2,quote "redstone" 125 3,quote "reflector" 12 2]

theorem four_quotes_median :
    let D := (medianOnCommonScale quotes).decimals
    let value := (medianOnCommonScale quotes).value
    ((∀ p ∈ quotes, p.decimals ≤ D) ∧ ∃ p ∈ quotes, p.decimals = D) ∧
      (∃ m n, exactMedian quotes = some m ∧ value = (n : Int) ∧ BigNumber.Nearest n (m * 10^D)) ∧
      (∀ other, other.Perm quotes → medianOnCommonScale other = medianOnCommonScale quotes) ∧
      (∃ p ∈ quotes, ∃ q ∈ quotes, worth p * 10^D ≤ value ∧ value ≤ worth q * 10^D) ∧
      ∀ lo hi : Int, quotes.length < 2 * quotes.countP (fun p => (lo : ℚ) ≤ worth p * 10^D ∧ worth p * 10^D ≤ hi) →
        (lo : ℚ) ≤ value ∧ value ≤ hi :=
  median_correct_on_common_scale (by decide)

example : medianOnCommonScale quotes = ⟨123,3⟩ := by decide +kernel

end Sample

end StellarPriceOracle.CommonScale
