import StellarPriceOracle.Submission
import StellarPriceOracle.Library.Runs

namespace StellarPriceOracle.Reputation
open Guarded Storage Utils
open List
open Runs (Run)

def I128 (x : Int) : Prop := -2^127 ≤ x ∧ x < 2^127

def exactDeviationBps (newPrice prevPrice : Int) : Nat := 10000 * (newPrice - prevPrice).natAbs / prevPrice.natAbs

-- The product fits into 128 bits, or saturating it makes no difference to the comparison.
def Unsaturated (newPrice prevPrice : Int) (thresholdBps : Nat) : Prop :=
  10000 * (newPrice - prevPrice).natAbs < 2^128 ∨ thresholdBps < (2^128 - 1) / prevPrice.natAbs ∨
    10000 * (newPrice - prevPrice).natAbs < (thresholdBps + 1) * prevPrice.natAbs

instance : Decidable (Unsaturated newPrice prevPrice thresholdBps) := by
  unfold Unsaturated
  infer_instance

section
variable {newPrice prevPrice : Int} {thresholdBps : Nat}

theorem deviationExceeds_saturated (new : I128 newPrice) (prev : I128 prevPrice) (nonzero : prevPrice ≠ 0) :
    deviationExceeds newPrice prevPrice thresholdBps = true ↔
      thresholdBps < min (10000 * (newPrice - prevPrice).natAbs) (2^128 - 1) / prevPrice.natAbs := by
  obtain ⟨_,_⟩ := new
  obtain ⟨_,_⟩ := prev
  have diff : (if decide (0 ≤ newPrice) = decide (0 ≤ prevPrice) then
      if prevPrice.natAbs ≤ newPrice.natAbs then newPrice.natAbs - prevPrice.natAbs else prevPrice.natAbs - newPrice.natAbs
      else min (newPrice.natAbs + prevPrice.natAbs) u128Max) = (newPrice - prevPrice).natAbs := by
    unfold u128Max
    split
    · rename_i same
      rw [decide_eq_decide] at same
      split <;> omega
    · rename_i apart
      rw [decide_eq_decide] at apart
      omega
  simp only [deviationExceeds,if_neg nonzero,diff,decide_eq_true_eq]
  rw [Nat.mul_comm,u128Max]

theorem positive_natAbs (nonzero : prevPrice ≠ 0) : 0 < prevPrice.natAbs := Int.natAbs_pos.mpr nonzero

-- The test is the exact one, exactly as long as nothing is lost by saturation.
theorem deviation_exact (new : I128 newPrice) (prev : I128 prevPrice) (nonzero : prevPrice ≠ 0) :
    (deviationExceeds newPrice prevPrice thresholdBps = true ↔ thresholdBps < exactDeviationBps newPrice prevPrice) ↔
      Unsaturated newPrice prevPrice thresholdBps := by
  rw [deviationExceeds_saturated new prev nonzero,exactDeviationBps,Unsaturated]
  have positive := positive_natAbs nonzero
  have within : 10000 * (newPrice - prevPrice).natAbs < (thresholdBps + 1) * prevPrice.natAbs ↔
      10000 * (newPrice - prevPrice).natAbs / prevPrice.natAbs < thresholdBps + 1 := (Nat.div_lt_iff_lt_mul positive).symm
  rw [within]
  by_cases fits : 10000 * (newPrice - prevPrice).natAbs < 2^128
  · rw [Nat.min_eq_left (by omega)]
    exact iff_of_true Iff.rfl (.inl fits)
  · have least : (2^128 - 1) / prevPrice.natAbs ≤ 10000 * (newPrice - prevPrice).natAbs / prevPrice.natAbs := Nat.div_le_div_right (by omega)
    rw [Nat.min_eq_right (by omega)]
    omega

end

-- At the ends of the range the product saturates and the largest possible move goes by.
theorem extreme_move_overlooked : I128 (2^127 - 1) ∧ I128 (-2^127) ∧ deviationExceeds (2^127 - 1) (-2^127) 5000 = false ∧
    exactDeviationBps (2^127 - 1) (-2^127) = 19999 := by
  unfold I128
  decide +kernel

theorem usual_move_exact : Unsaturated 110 100 500 ∧ deviationExceeds 110 100 500 = true ∧ exactDeviationBps 110 100 = 1000 := by
  have typed (x : Int) (low : 0 ≤ x) (high : x ≤ 110) : I128 x := by
    unfold I128
    omega
  have plain : Unsaturated 110 100 500 := .inl (by decide)
  refine ⟨plain,?_,by decide⟩
  exact ((deviation_exact (typed 110 (by decide) (by decide)) (typed 100 (by decide) (by decide)) (by decide)).mpr plain).mpr (by decide)

inductive Input where
  | elsewhere (next : Storage)
  | update (newPrice : Int) (asset : Str) (timestamp : Nat)

inductive Invalid where
  | reputationChanged

def step (source : Address) (s : Storage) : Input → Except Invalid Storage
  | .elsewhere next => do
    require (getSourceReputation next source = getSourceReputation s source) .reputationChanged
    .ok next
  | .update newPrice asset timestamp => .ok (updateReputation s source newPrice asset timestamp)

def accurate (s : Storage) (newPrice : Int) (asset : Str) : Bool :=
  (getLatestPrice s asset).all (fun prev => decide (exactDeviationBps newPrice prev.price ≤ 2000))

abbrev Trace := List (Runs.Transition Storage Input)

def verdict (t : Runs.Transition Storage Input) : Option Bool :=
  match t.input with
  | .elsewhere _ => none
  | .update newPrice asset _ => some (accurate t.before newPrice asset)

def verdicts (ts : Trace) : List Bool := ts.filterMap verdict

def Measured (s : Storage) : Input → Prop
  | .elsewhere _ => True
  | .update newPrice asset _ => I128 newPrice ∧ ∀ prev ∈ getLatestPrice s asset, I128 prev.price ∧ Unsaturated newPrice prev.price 2000

structure Counted (total good : Nat) (found : Option SourceReputation) : Prop where
  fewer : good ≤ total
  absent : total = 0 → found = none
  stored : 0 < total → ∃ timestamp, found = some ⟨min (10000 * good) (2^32 - 1) / total,total,good,timestamp⟩

section
variable {source : Address} {s : Storage} {newPrice : Int} {asset : Str} {timestamp total good : Nat}

def countedAccurate (s : Storage) (newPrice : Int) (asset : Str) : Bool :=
  (getLatestPrice s asset).all (fun prev => !deviationExceeds newPrice prev.price reputationAccuracyThresholdBps)

def entryBefore (s : Storage) (source : Address) (timestamp : Nat) : SourceReputation :=
  (getSourceReputation s source).getD ⟨10000,0,0,timestamp⟩

def updated (rep : SourceReputation) (isAccurate : Bool) (timestamp : Nat) : SourceReputation :=
  let total := min (rep.totalSubmissions + 1) u32Max
  let good := if isAccurate then min (rep.accurateSubmissions + 1) u32Max else rep.accurateSubmissions
  ⟨if total = 0 then 10000 else min (good * 10000) u32Max / total,total,good,timestamp⟩

theorem updateReputation_updated : updateReputation s source newPrice asset timestamp =
    setSourceReputation s source (updated (entryBefore s source timestamp) (countedAccurate s newPrice asset) timestamp) := by
  unfold updateReputation countedAccurate
  cases getLatestPrice s asset <;> rfl

theorem updated_counts (small : rep.totalSubmissions + 1 < 2^32) (fewer : rep.accurateSubmissions ≤ rep.totalSubmissions) :
    updated rep isAccurate timestamp = ⟨min (10000 * (rep.accurateSubmissions + isAccurate.toNat)) (2^32 - 1) / (rep.totalSubmissions + 1),
      rep.totalSubmissions + 1,rep.accurateSubmissions + isAccurate.toNat,timestamp⟩ := by
  have total : min (rep.totalSubmissions + 1) u32Max = rep.totalSubmissions + 1 := Nat.min_eq_left (by unfold u32Max; omega)
  have good : min (rep.accurateSubmissions + 1) u32Max = rep.accurateSubmissions + 1 := Nat.min_eq_left (by unfold u32Max; omega)
  cases isAccurate
  · simp only [updated,total,if_neg (Nat.succ_ne_zero _),Bool.false_eq_true,if_false,Nat.mul_comm _ 10000]
    rfl
  · simp only [updated,total,good,if_neg (Nat.succ_ne_zero _),if_true,Nat.mul_comm _ 10000]
    rfl

theorem accurate_counted (typed : I128 newPrice) (measured : ∀ prev ∈ getLatestPrice s asset, I128 prev.price ∧ Unsaturated newPrice prev.price 2000) :
    countedAccurate s newPrice asset = accurate s newPrice asset := by
  unfold countedAccurate accurate
  cases found : getLatestPrice s asset with
  | none => rfl
  | some prev =>
    obtain ⟨within,plain⟩ := measured prev found
    by_cases zero : prev.price = 0
    · simp [deviationExceeds,exactDeviationBps,zero]
    · have exact := (deviation_exact typed within zero).mpr plain
      rw [Bool.eq_iff_iff,Option.all_some,Option.all_some,Bool.not_eq_true',Bool.eq_false_iff,reputationAccuracyThresholdBps,ne_eq,exact]
      simp

section
variable (counted : Counted total good (getSourceReputation s source))
include counted

theorem Counted.entry :
    (entryBefore s source timestamp).totalSubmissions = total ∧ (entryBefore s source timestamp).accurateSubmissions = good := by
  rcases Nat.eq_zero_or_pos total with zero | pos
  · have none : good = 0 := Nat.le_zero.mp (zero ▸ counted.fewer)
    simp [entryBefore,counted.absent zero,zero,none]
  · obtain ⟨_,found⟩ := counted.stored pos
    simp [entryBefore,found]

theorem updateReputation_counted (small : total + 1 < 2^32) (measured : Measured s (.update newPrice asset timestamp)) :
    Counted (total + 1) (good + (accurate s newPrice asset).toNat)
      (getSourceReputation (updateReputation s source newPrice asset timestamp) source) := by
  have ⟨all,right⟩ : (entryBefore s source timestamp).totalSubmissions = total ∧ (entryBefore s source timestamp).accurateSubmissions = good := counted.entry
  have fewer := counted.fewer
  refine ⟨?_,by simp,fun _ => ⟨timestamp,?_⟩⟩
  · have := Bool.toNat_le (accurate s newPrice asset)
    omega
  · rw [updateReputation_updated,updated_counts (by omega) (by omega),all,right,accurate_counted measured.1 measured.2]
    simp [getSourceReputation,setSourceReputation]

end

theorem runs_counted (fresh : getSourceReputation start source = none) (path : Run (step source) start ts s)
    (measured : ∀ t ∈ ts, Measured t.before t.input) (small : (verdicts ts).length < 2^32) :
    Counted (verdicts ts).length ((verdicts ts).count true) (getSourceReputation s source) := by
  induction path with
  | nil => exact ⟨Nat.le_refl _,fun _ => fresh,by simp [verdicts]⟩
  | @snoc ts s input next prior taken ih =>
    have parts : verdicts (ts ++ [⟨s,input,next⟩]) = verdicts ts ++ (verdict ⟨s,input,next⟩).toList := by
      simp [verdicts,filterMap_append,filterMap_cons]
      cases verdict ⟨s,input,next⟩ <;> rfl
    rw [parts,length_append] at small
    have before := ih (fun t mem => measured t (mem_append_left _ mem)) (by omega)
    have here := measured _ mem_concat_self
    rw [parts,length_append,count_append]
    cases input with
    | elsewhere =>
      obtain ⟨same,⟨⟩⟩ := guard_ok.mp taken
      rw [same]
      exact before
    | update newPrice asset timestamp =>
      cases taken
      have count : (verdict ⟨s,.update newPrice asset timestamp,updateReputation s source newPrice asset timestamp⟩).toList.count true =
          (accurate s newPrice asset).toNat := by
        simp only [verdict,Option.toList_some]
        cases accurate s newPrice asset <;> rfl
      rw [count]
      exact updateReputation_counted before small here

theorem share_full (pos : 0 < total) (fewer : good ≤ total) : 10000 * good / total ≤ 10000 ∧ (10000 * good / total = 10000 ↔ good = total) := by
  have most : 10000 * good / total ≤ 10000 := by
    rw [Nat.div_le_iff_le_mul_add_pred pos]
    have := Nat.mul_le_mul_right 10000 fewer
    omega
  refine ⟨most,?_,?_⟩
  · intro full
    have least : 10000 * total ≤ 10000 * good := (Nat.le_div_iff_mul_le pos).mp (Nat.le_of_eq full.symm)
    omega
  · rintro rfl
    exact Nat.mul_div_cancel _ pos

-- The score is exact iff the product fits into 32 bits or saturates to the same quotient.
theorem score_exact (fresh : getSourceReputation start source = none) (path : Run (step source) start ts s)
    (measured : ∀ t ∈ ts, Measured t.before t.input) (submitted : 1 ≤ (verdicts ts).length) (small : (verdicts ts).length < 2^32) :
    ∃ rep, getSourceReputation s source = some rep ∧
      ((rep.score = 10000 * (verdicts ts).count true / (verdicts ts).length ∧ rep.score ≤ 10000 ∧
          (rep.score = 10000 ↔ ∀ isAccurate ∈ verdicts ts, isAccurate = true)) ↔
        10000 * (verdicts ts).count true < 2^32 ∨
          (2^32 - 1) / (verdicts ts).length = 10000 * (verdicts ts).count true / (verdicts ts).length) := by
  have counted := runs_counted fresh path measured small
  obtain ⟨_,stored⟩ := counted.stored submitted
  obtain ⟨most,full⟩ := share_full submitted counted.fewer
  have all : (verdicts ts).count true = (verdicts ts).length ↔ ∀ isAccurate ∈ verdicts ts, isAccurate = true := by
    rw [count_eq_length]
    simp [eq_comm]
  rw [all] at full
  refine ⟨_,stored,?_⟩
  by_cases fits : 10000 * (verdicts ts).count true < 2^32
  · rw [Nat.min_eq_left (by omega)]
    exact iff_of_true ⟨rfl,most,full⟩ (.inl fits)
  · rw [Nat.min_eq_right (by omega),or_iff_right fits]
    constructor
    · exact fun share => share.1
    · intro share
      rw [share]
      exact ⟨rfl,most,full⟩

end

namespace Sample
def source : Address := .repeated 0x53
def asset : Str := [0x58]

theorem steady (n : Nat) : ∃ ts s, Run (step source) .empty ts s ∧ verdicts ts = replicate n true ∧
    (∀ t ∈ ts, Measured t.before t.input) ∧ getLatestPrice s asset = none := by
  induction n with
  | zero => exact ⟨[],.empty,.nil,rfl,by simp,rfl⟩
  | succ n ih =>
    obtain ⟨ts,s,path,all,measured,none⟩ := ih
    refine ⟨_,_,path.snoc (i := .update 100 asset 0) rfl,?_,?_,?_⟩
    · rw [verdicts,filterMap_append,← verdicts,all,replicate_succ']
      simp [verdict,accurate,none]
    · intro t mem
      rcases Runs.mem_snoc.mp mem with old | new
      · exact measured t old
      · rw [new]
        refine ⟨?_,by simp [none]⟩
        unfold I128
        decide
    · rw [getLatestPrice,updateReputation_get (by simp)]
      exact none
end Sample

open Sample

theorem three_of_three_scored : ∃ ts s rep, Run (step source) .empty ts s ∧ (verdicts ts).length = 3 ∧
    getSourceReputation s source = some rep ∧ rep.score = 10000 := by
  obtain ⟨ts,s,path,all,measured,_⟩ := steady 3
  have small : 10000 * (verdicts ts).count true < 2^32 := by simp [all]
  obtain ⟨rep,stored,exact⟩ := score_exact rfl path measured (by simp [all]) (by simp [all])
  obtain ⟨_,_,full⟩ := exact.mpr (.inl small)
  exact ⟨ts,s,rep,path,by simp [all],stored,full.mpr (by simp [all])⟩

-- From the 429497th accurate update on, the product does not fit and the score drops.
theorem flawless_source_loses_score : ∃ ts s rep, Run (step source) .empty ts s ∧ (verdicts ts).length = 429497 ∧
    (∀ isAccurate ∈ verdicts ts, isAccurate = true) ∧ getSourceReputation s source = some rep ∧ rep.score = 9999 := by
  obtain ⟨ts,s,path,all,measured,_⟩ := steady 429497
  have length : (verdicts ts).length = 429497 := by rw [all,length_replicate]
  have accurate : ∀ isAccurate ∈ verdicts ts, isAccurate = true := by
    rw [all]
    intro _ present
    exact eq_of_mem_replicate present
  have counted := runs_counted rfl path measured (length ▸ by decide)
  rw [all,count_replicate_self,length_replicate] at counted
  obtain ⟨_,stored⟩ := counted.stored (by decide)
  have score : min (10000 * 429497) (2^32 - 1) / 429497 = 9999 := by decide
  exact ⟨ts,s,_,path,length,accurate,stored,score⟩

end StellarPriceOracle.Reputation
