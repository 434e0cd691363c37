import StellarPriceOracle.Reputation
import StellarPriceOracle.OracleContract

namespace StellarPriceOracle.ReputationDecay
open Guarded Storage Utils Submission Reputation
open Runs (Run)
open Function (iterate_succ_apply)
open OracleContract.Sample (asset env host)
open Reputation.Sample (source)

def reputationDecayPeriodSecs : Nat := 604800
def reputationDecayNumerator : Nat := 95
def reputationDecayDenominator : Nat := 100

def decayOnce (score : Nat) : Nat := min (score * reputationDecayNumerator) u32Max / reputationDecayDenominator

def applyReputationDecay (env : Env) (rep : SourceReputation) : SourceReputation :=
  let elapsed := env.timestamp - rep.lastUpdated
  if elapsed < reputationDecayPeriodSecs then rep
  else {rep with score := decayOnce^[min (elapsed / reputationDecayPeriodSecs) 40] rep.score}

def getSourceReputation (env : Env) (s : Storage) (source : Address) : Option SourceReputation :=
  (Storage.getSourceReputation s source).map (applyReputationDecay env)

structure Submitted where
  env : Env
  source : Address
  asset : Str
  price : Int
  (decimals timestamp : Nat)

def step (host : Host) (s : Storage) (call : Submitted) : Outcome Storage := do
  let (_,next) ← submitPrice host call.env s call.source call.asset call.price call.decimals call.timestamp
  .ok next

abbrev Trace := List (Runs.Transition Storage Submitted)

structure MostRecent (source : Address) (ts : Trace) (call : Submitted) : Prop where
  by_source : call.source = source
  last : ∃ earlier later before after, ts = earlier ++ ⟨before,call,after⟩ :: later ∧ ∀ t ∈ later, t.input.source ≠ source

def decayed (score : Nat) : Nat := 95 * score / 100

section
variable {score : Nat} {rep : SourceReputation} {env : Env} {s next : Storage} {source : Address} {call : Submitted} {host : Host}

theorem decayed_le : decayed score ≤ score := by
  unfold decayed
  omega

theorem decayed_lt (pos : 0 < score) : decayed score < score := by
  unfold decayed
  omega

theorem decayOnce_exact (small : score ≤ 10000) : decayOnce score = decayed score := by
  unfold decayOnce reputationDecayNumerator reputationDecayDenominator u32Max decayed
  rw [Nat.min_eq_left (by omega),Nat.mul_comm]

theorem decay_loop (small : score ≤ 10000) : decayOnce^[n] score = decayed^[n] score := by
  induction n generalizing score with
  | zero => rfl
  | succ n ih =>
    rw [iterate_succ_apply,iterate_succ_apply,decayOnce_exact small]
    exact ih (Nat.le_trans (decayed_le) small)

theorem iterate_le : decayed^[n] score ≤ score := by
  induction n generalizing score with
  | zero => exact Nat.le_refl _
  | succ n ih =>
    rw [iterate_succ_apply]
    exact Nat.le_trans ih (decayed_le)

theorem iterate_unchanged (some_step : 0 < n) : decayed^[n] score = score ↔ score = 0 := by
  obtain ⟨n,rfl⟩ := Nat.exists_eq_add_one.mpr some_step
  constructor
  · intro unchanged
    by_contra pos
    rw [iterate_succ_apply] at unchanged
    have less := decayed_lt (Nat.pos_of_ne_zero pos)
    have least : decayed^[n] (decayed score) ≤ decayed score := iterate_le
    omega
  · rintro rfl
    exact Nat.le_zero.mp (iterate_le)

theorem applyReputationDecay_exact (small : rep.score ≤ 10000) :
    applyReputationDecay env rep = {rep with score := decayed^[min 40 ((env.timestamp - rep.lastUpdated) / 604800)] rep.score} := by
  unfold applyReputationDecay reputationDecayPeriodSecs
  dsimp only
  split
  · rename_i soon
    rw [Nat.div_eq_of_lt soon]
    rfl
  · rw [decay_loop small,Nat.min_comm]

-- Counted from two times, the scores agree iff the times do or nothing decays.
theorem decay_from_exact :
    (∀ now, since ≤ now → decayed^[min 40 ((now - lastUpdated) / 604800)] score = decayed^[min 40 ((now - since) / 604800)] score) ↔
      lastUpdated = since ∨ score = 0 := by
  constructor
  · intro always
    rcases Nat.lt_trichotomy lastUpdated since with earlier | same | later
    · refine .inr ?_
      by_cases near : since < lastUpdated + 604800
      · -- a week after the earlier time there is one step from it and none from the other
        have here := always (lastUpdated + 604800) (Nat.le_of_lt near)
        rw [Nat.add_sub_cancel_left,Nat.div_self (by decide),Nat.div_eq_of_lt (by omega)] at here
        exact (iterate_unchanged (by decide)).mp here
      · have here := always since (Nat.le_refl _)
        rw [Nat.sub_self,Nat.zero_div,Nat.min_zero] at here
        have steps : 0 < min 40 ((since - lastUpdated) / 604800) := by omega
        exact (iterate_unchanged steps).mp here
    · exact .inl same
    · have here := always (since + 604800) (Nat.le_add_right _ _)
      rw [Nat.add_sub_cancel_left,Nat.div_self (by decide),Nat.div_eq_of_lt (by omega)] at here
      exact .inr ((iterate_unchanged (by decide)).mp here.symm)
  · rintro (rfl | rfl) now _
    · rfl
    · rw [Nat.le_zero.mp (iterate_le),Nat.le_zero.mp (iterate_le)]

structure Sane (rep : SourceReputation) : Prop where
  fewer : rep.accurateSubmissions ≤ rep.totalSubmissions
  typed : rep.totalSubmissions ≤ u32Max

theorem updated_sane (isAccurate : Bool) (timestamp : Nat) (sane : Sane rep) : Sane (updated rep isAccurate timestamp) := by
  obtain ⟨fewer,typed⟩ := sane
  refine ⟨?_,Nat.min_le_right _ _⟩
  simp only [updated]
  split <;> omega

theorem updated_score (isAccurate : Bool) (timestamp : Nat) (sane : Sane rep) : (updated rep isAccurate timestamp).score ≤ 10000 := by
  have fewer := (updated_sane isAccurate timestamp sane).fewer
  have pos : 0 < (updated rep isAccurate timestamp).totalSubmissions := by
    simp only [updated,u32Max]
    omega
  have score : (updated rep isAccurate timestamp).score =
      min ((updated rep isAccurate timestamp).accurateSubmissions * 10000) u32Max / (updated rep isAccurate timestamp).totalSubmissions :=
    if_neg (Nat.ne_of_gt pos)
  rw [score]
  refine Nat.le_trans (Nat.div_le_div_right (Nat.min_le_left _ _)) ?_
  rw [Nat.mul_comm]
  exact (share_full pos fewer).1

theorem step_own (taken : step host s call = .ok next) : Storage.getSourceReputation next call.source =
    some (updated (entryBefore s call.source call.timestamp) (countedAccurate s call.price call.asset) call.timestamp) := by
  simp only [step,bind_ok,Except.ok.injEq,Prod.exists] at taken
  obtain ⟨_,_,ran,rfl⟩ := taken
  obtain ⟨_,_,_,_,_,written⟩ := submitPrice_parts ran
  rw [(Prod.mk.inj written).2,writePrice,updateReputation_updated]
  simp [Storage.getSourceReputation,setSourceReputation]

theorem step_other (taken : step host s call = .ok next) (other : call.source ≠ source) :
    Storage.getSourceReputation next source = Storage.getSourceReputation s source := by
  simp only [step,bind_ok,Except.ok.injEq,Prod.exists] at taken
  obtain ⟨_,_,ran,rfl⟩ := taken
  obtain ⟨_,_,_,_,_,written⟩ := submitPrice_parts ran
  rw [(Prod.mk.inj written).2]
  exact writePrice_get (by simp) (by simp) (by simp) (by simpa using fun same => other same.symm)

theorem entryBefore_sane (timestamp : Nat) (sane : ∀ rep ∈ Storage.getSourceReputation s source, Sane rep) : Sane (entryBefore s source timestamp) := by
  unfold entryBefore
  cases got : Storage.getSourceReputation s source with
  | none => exact ⟨Nat.le_refl _,Nat.zero_le _⟩
  | some rep => exact sane rep got

theorem step_sane (taken : step host s call = .ok next) (sane : ∀ rep ∈ Storage.getSourceReputation s source, Sane rep) :
    ∀ rep ∈ Storage.getSourceReputation next source, Sane rep := by
  by_cases own : call.source = source
  · subst own
    rw [step_own taken]
    intro _ got
    cases got
    exact updated_sane _ _ (entryBefore_sane _ sane)
  · rw [step_other taken own]
    exact sane

-- The decay counts from the most recent call iff that is the timestamp it gave.
theorem decay_exact (fresh : Storage.getSourceReputation start source = none) (path : Run (step host) start ts s) (recent : MostRecent source ts call) :
    ∃ rep, Storage.getSourceReputation s source = some rep ∧
      ((∀ env : Env, call.env.timestamp ≤ env.timestamp → getSourceReputation env s source =
          some {rep with score := decayed^[min 40 ((env.timestamp - call.env.timestamp) / 604800)] rep.score}) ↔
        call.timestamp = call.env.timestamp ∨ rep.score = 0) := by
  obtain ⟨rfl,earlier,later,before,after,rfl,others⟩ := recent
  have sane : ∀ rep ∈ Storage.getSourceReputation before call.source, Sane rep :=
    path.split.1.invariant_of (P := fun s => ∀ rep ∈ Storage.getSourceReputation s call.source, Sane rep) (fun _ _ => trivial) (by simp [fresh])
      (fun t _ taken => step_sane taken)
  have kept : Storage.getSourceReputation s call.source = Storage.getSourceReputation after call.source := by
    refine path.suffix.carries (R := fun a b => Storage.getSourceReputation b call.source = Storage.getSourceReputation a call.source) (fun _ => rfl) ?_ ?_
    · intro a b c first second
      exact second.trans first
    · intro t present
      exact step_other (path.suffix.accepted present) (others t present)
  have stored := kept.trans (step_own path.split.2)
  have small := updated_score (countedAccurate before call.price call.asset) call.timestamp (entryBefore_sane call.timestamp sane)
  refine ⟨_,stored,?_⟩
  rw [← decay_from_exact]
  constructor
  · intro always now later
    have here := always {call.env with timestamp := now} later
    rw [getSourceReputation,stored,Option.map_some,applyReputationDecay_exact small,Option.some.injEq] at here
    exact congrArg SourceReputation.score here
  · intro always env later
    rw [getSourceReputation,stored,Option.map_some,applyReputationDecay_exact small,← always env.timestamp later]
    rfl

end

namespace Sample
def name : Str := [0x4f]
def start : Storage :=
  ((KeyedStore.empty.set (.source source) true).set (.sourceName source) name).set .sourceCount 1

def call (timestamp : Nat) : Submitted :=
  ⟨{env with timestamp := 1000},source,asset,100,7,timestamp⟩

def later (now : Nat) : Env := {env with timestamp := now}

theorem submitted (timestamp : Nat) : ∃ s, Run (step host) start [⟨start,call timestamp,s⟩] s ∧
    Storage.getSourceReputation s source = some ⟨10000,1,1,timestamp⟩ := by
  have taken : step host start (call timestamp) =
      .ok (writePrice start ⟨asset,100,7,timestamp,source⟩) := rfl
  have first : entryBefore start source timestamp = ⟨10000,0,0,timestamp⟩ := rfl
  have accurate : countedAccurate start 100 asset = true := rfl
  refine ⟨_,Run.nil.snoc taken,(step_own taken).trans ?_⟩
  simp [call,first,accurate,updated,u32Max]

theorem most_recent : MostRecent source [⟨start,call timestamp,s⟩] (call timestamp) :=
  ⟨rfl,[],[],start,s,rfl,by simp⟩
end Sample

open Sample

theorem two_quiet_weeks_decay : addSource .empty Reputation.Sample.source name = .ok start ∧
    ∃ ts s rep, Run (step OracleContract.Sample.host) start ts s ∧ MostRecent Reputation.Sample.source ts (call 1000) ∧
      getSourceReputation (later (1000 + 2 * 604800)) s Reputation.Sample.source = some rep ∧ rep.score = 9025 := by
  obtain ⟨s,path,stored⟩ := submitted 1000
  obtain ⟨rep,found,exact⟩ := decay_exact rfl path (most_recent)
  have same : rep = ⟨10000,1,1,1000⟩ := Option.some.inj (found.symm.trans stored)
  have decays := exact.mpr (.inl rfl) (later (1000 + 2 * 604800)) (by decide)
  subst same
  exact ⟨rfl,_,s,_,path,most_recent,decays,by decide⟩

theorem future_timestamp_keeps_score : addSource .empty Reputation.Sample.source name = .ok start ∧
    ∃ ts s rep, Run (step OracleContract.Sample.host) start ts s ∧
      MostRecent Reputation.Sample.source ts (call 1000000000) ∧ (call 1000000000).env.timestamp = 1000 ∧
      getSourceReputation (later (1000 + 604800)) s Reputation.Sample.source = some rep ∧ rep.score = 10000 ∧
      decayed^[min 40 ((1000 + 604800 - 1000) / 604800)] rep.score = 9500 := by
  obtain ⟨s,path,stored⟩ := submitted 1000000000
  refine ⟨rfl,_,s,⟨10000,1,1,1000000000⟩,path,most_recent,rfl,?_,rfl,by decide⟩
  rw [getSourceReputation,stored]
  decide

end StellarPriceOracle.ReputationDecay
