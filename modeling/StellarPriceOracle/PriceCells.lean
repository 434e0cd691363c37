import StellarPriceOracle.OracleContract

namespace StellarPriceOracle.PriceCells
open Guarded Storage Submission MultiSigActions OracleContract BoundedLog
open Runs (Run states replay_observed replay_pair)
open KeyedStore (empty)
open Merkle.Sample (entry node12 root source)

def written : Call → Option PriceDataPoint
  | .submitPrice source asset price decimals timestamp => some ⟨asset,price,decimals,timestamp,source⟩
  | .applyBatchEntry _ entry _ => some (entryPoint entry)
  | _ => none

def rescaled (s : Storage) : Call → Option (Str × Nat)
  | .executeProposal _ id =>
    match (getMultisigProposal s id).map MultiSigProposal.action with
    | some (.updateAssetDecimals asset newDecimals) => some (asset,newDecimals)
    | _ => none
  | _ => none

inductive PriceChange (s : Storage) (call : Call) (next : Storage) : Prop where
  | write (point : PriceDataPoint) : written call = some point →
      (∀ asset, getLatestPrice next asset = if asset = point.asset then some point else getLatestPrice s asset) →
      (∀ asset, getPriceHistory next asset = if asset = point.asset then
        push maxHistoryLen (getPriceHistory s asset) point else getPriceHistory s asset) →
      PriceChange s call next
  | rescale (target : Str) (newDecimals : Nat) (prev : PriceDataPoint) : written call = none →
      rescaled s call = some (target,newDecimals) → getLatestPrice s target = some prev →
      (∀ asset, getLatestPrice next asset = if asset = target then some {prev with decimals := newDecimals}
        else getLatestPrice s asset) →
      (∀ asset, getPriceHistory next asset = getPriceHistory s asset) → PriceChange s call next
  | keep : written call = none → (∀ update ∈ rescaled s call, getLatestPrice s update.1 = none) →
      (∀ asset, getLatestPrice next asset = getLatestPrice s asset) →
      (∀ asset, getPriceHistory next asset = getPriceHistory s asset) → PriceChange s call next

theorem written_unscaled (stores : written call = some point) : rescaled s call = none := by
  cases call <;> first | rfl | cases stores

theorem quiet_step (ran : step host verify s (env,call) = .ok next) (silent : written call = none) (unscaled : rescaled s call = none)
    (latest : ∀ asset, ¬ OracleContract.Touches s call (.latestPrice asset))
    (history : ∀ asset, ¬ OracleContract.Touches s call (.priceHistory asset)) : PriceChange s call next := by
  refine .keep silent (by simp [unscaled]) ?_ ?_
  · intro asset
    exact step_frame ran (latest asset)
  · intro asset
    simp [getPriceHistory,step_frame ran (history asset)]

theorem execute_prices {id : Nat} (accepted : executeProposal env s signer id = .ok next) :
    PriceChange s (.executeProposal signer id) next := by
  obtain ⟨proposal,applied,got,ran,rfl⟩ := executeProposal_parts accepted
  have history : ∀ asset, applied.get (.priceHistory asset) = s.get (.priceHistory asset) := by
    intro asset
    refine applyProposalAction_get ran ?_
    cases proposal.action <;> simp [MultiSigActions.Touches]
  by_cases update : ∃ asset newDecimals, proposal.action = .updateAssetDecimals asset newDecimals
  · obtain ⟨target,newDecimals,action⟩ := update
    rw [action] at ran
    obtain ⟨absent,rfl⟩ | ⟨prev,has,rfl⟩ := updateAssetDecimals_parts ran
    · exact .keep rfl (by simp [rescaled,got,action,absent]) (by simp [getLatestPrice]) (by simp [getPriceHistory])
    · refine .rescale target newDecimals prev rfl (by simp [rescaled,got,action]) has ?_ ?_
      · intro asset
        rcases eq_or_ne asset target with rfl | same
        · simp [getLatestPrice]
        · simp [getLatestPrice,same]
      · simp [getPriceHistory]
  · have latest : ∀ asset, applied.get (.latestPrice asset) = s.get (.latestPrice asset) := by
      intro _
      refine applyProposalAction_get ran ?_
      intro touched
      apply update
      cases action : proposal.action <;> simp [action,MultiSigActions.Touches] at touched
      exact ⟨_,_,rfl⟩
    have other : rescaled s (.executeProposal signer id) = none := by
      cases action : proposal.action <;> simp [rescaled,got,action]
      exact update ⟨_,_,action⟩
    exact .keep rfl (by simp [other]) (by simp [getLatestPrice,latest]) (by simp [getPriceHistory,history])

theorem step_prices (ran : step host verify s (env,call) = .ok next) : PriceChange s call next := by
  cases call with
  | submitPrice =>
    obtain ⟨_,submitted,⟨⟩⟩ := bind_ok.mp ran
    obtain ⟨_,_,_,_,_,rfl⟩ := submitPrice_parts submitted
    exact .write _ rfl (writePrice_latest s _) (writePrice_history s _)
  | applyBatchEntry =>
    obtain ⟨_,applied,⟨⟩⟩ := bind_ok.mp ran
    obtain ⟨_,_,_,_,rfl⟩ := applyBatchEntry_parts applied
    refine .write _ rfl ?_ ?_
    · intro asset
      rw [writePrice_latest]
      simp [getLatestPrice]
    · intro _
      rw [writePrice_history]
      simp [getPriceHistory]
  | executeProposal => exact execute_prices ran
  | submitBatch =>
    exact quiet_step ran rfl rfl (by simp [OracleContract.Touches,DataKey.BatchSlot])
      (by simp [OracleContract.Touches,DataKey.BatchSlot])
  | _ => exact quiet_step ran rfl rfl (by simp [OracleContract.Touches]) (by simp [OracleContract.Touches])

@[simp] def feed (view : PriceDataPoint → β) (s : Storage) : Feed Str β :=
  ⟨fun asset => (getLatestPrice s asset).map view,fun asset => (getPriceHistory s asset).map view⟩

theorem feed_ext {f : Feed Str β} (latest : ∀ asset, (getLatestPrice s asset).map view = f.latest asset)
    (history : ∀ asset, (getPriceHistory s asset).map view = f.history asset) : feed view s = f := by
  obtain ⟨_,_⟩ := f
  simp only [feed,Feed.mk.injEq]
  exact ⟨funext latest,funext history⟩

section Simulation
variable {β τ : Type} [Preorder τ] {time : β → τ}

theorem PriceChange.simulates (change : PriceChange s call next)
    (fresh : ∀ point ∈ written call, ∀ prev ∈ getLatestPrice s point.asset, time (view prev) ≤ time (view point))
    (hidden : ∀ update ∈ rescaled s call, ∀ prev ∈ getLatestPrice s update.1,
      view {prev with decimals := update.2} = view prev) :
    Feed.Next maxHistoryLen time (feed view s) (feed view next) := by
  cases change with
  | write point stores latest history =>
    have moved : feed view next = (feed view s).submit maxHistoryLen point.asset (view point) := by
      refine feed_ext ?_ ?_
      · intro asset
        rw [latest asset]
        by_cases same : asset = point.asset <;> simp [Feed.submit,same]
      · intro asset
        rw [history asset]
        rcases eq_or_ne asset point.asset with rfl | same
        · simp [Feed.submit,push_map]
        · simp [Feed.submit,same]
    rw [moved]
    refine .submit ?_
    intro _ mem
    obtain ⟨prev,has,rfl⟩ := Option.map_eq_some_iff.mp mem
    exact fresh point stores prev has
  | rescale target _ prev _ update has latest history =>
    have still : feed view next = feed view s := by
      refine feed_ext ?_ ?_
      · intro asset
        rw [latest asset]
        rcases eq_or_ne asset target with rfl | same
        · simp [has,hidden _ update prev has]
        · simp [same]
      · intro asset
        rw [history asset]
        rfl
    rw [still]
    exact .noOp
  | keep _ _ latest history =>
    have still : feed view next = feed view s := by
      refine feed_ext ?_ ?_
      · intro asset
        rw [latest asset]
        rfl
      · intro asset
        rw [history asset]
        rfl
    rw [still]
    exact .noOp

theorem empty_consistent : Feed.Consistent time (feed view empty) := by
  refine ⟨?_,?_⟩
  · intro asset
    simp [getLatestPrice,getPriceHistory]
  · intro _
    simp [getPriceHistory,Chronological]

theorem runs_consistent (view : PriceDataPoint → β) (time : β → τ) (path : Run (step host verify) empty ts s)
    (good : ∀ t ∈ ts, (∀ point ∈ written t.input.2, ∀ prev ∈ getLatestPrice t.before point.asset,
        time (view prev) ≤ time (view point)) ∧
      ∀ update ∈ rescaled t.before t.input.2, ∀ prev ∈ getLatestPrice t.before update.1,
        view {prev with decimals := update.2} = view prev) :
    ∀ r ∈ states empty ts, Feed.Consistent time (feed view r) := by
  refine path.always good empty_consistent ?_
  intro t guarded ran valid
  exact ((step_prices ran).simulates guarded.1 guarded.2).keeps valid

end Simulation

def Fresh (s : Storage) (call : Call) : Prop :=
  ∀ point ∈ written call, ∀ prev ∈ getLatestPrice s point.asset, prev.timestamp ≤ point.timestamp

def Unscaled (s : Storage) (call : Call) : Prop :=
  ∀ update ∈ rescaled s call, ∀ prev ∈ getLatestPrice s update.1, prev.decimals = update.2

instance (s : Storage) (call : Call) : Decidable (Fresh s call) := by unfold Fresh; infer_instance
instance (s : Storage) (call : Call) : Decidable (Unscaled s call) := by unfold Unscaled; infer_instance

-- Histories are sorted and no step takes a latest price back in time.
structure ChronologicalRun (ts : List (Runs.Transition Storage (Env × Call))) : Prop where
  sorted : ∀ r ∈ states empty ts, ∀ asset,
    (getPriceHistory r asset).Pairwise (fun earlier later => earlier.timestamp ≤ later.timestamp)
  forward : ∀ t ∈ ts, ∀ asset, ∀ prev ∈ getLatestPrice t.before asset, ∀ now ∈ getLatestPrice t.after asset,
    prev.timestamp ≤ now.timestamp

theorem PriceChange.forward (change : PriceChange s call next) (fresh : Fresh s call)
    (has : getLatestPrice s asset = some prev) (after : getLatestPrice next asset = some now) :
    prev.timestamp ≤ now.timestamp := by
  cases change with
  | write _ stores latest =>
    rw [latest asset] at after
    split at after
    · rename_i same
      subst same
      cases after
      exact fresh now stores prev has
    · cases has.symm.trans after
      exact Nat.le_refl _
  | rescale _ _ _ _ _ got latest =>
    rw [latest asset] at after
    split at after
    · rename_i same
      subst same
      cases got.symm.trans has
      cases after
      exact Nat.le_refl _
    · cases has.symm.trans after
      exact Nat.le_refl _
  | keep _ _ latest =>
    rw [latest asset] at after
    cases has.symm.trans after
    exact Nat.le_refl _

theorem PriceChange.stores (change : PriceChange s call next) (has : written call = some point) :
    getLatestPrice next point.asset = some point := by
  cases change with
  | write _ same latest =>
    cases has.symm.trans same
    simp [latest]
  | rescale target newDecimals old silent update got latest history | keep silent absent latest history => cases has.symm.trans silent

theorem chronological_exact (path : Run (step host verify) empty ts s) :
    (∀ t ∈ ts, Fresh t.before t.input.2) ↔ ChronologicalRun ts := by
  constructor
  · intro fresh
    have consistent := runs_consistent PriceDataPoint.timestamp (id : Nat → Nat) path
      (fun t present => ⟨fresh t present,fun _ _ _ _ => rfl⟩)
    refine ⟨?_,?_⟩
    · intro r visited asset
      have ordered := (consistent r visited).ordered asset
      exact List.pairwise_map.mp ordered
    · intro t present _ prev stored _ after
      exact (step_prices (path.accepted present)).forward (fresh t present) stored after
  · intro valid t present point stores prev stored
    have latest := (step_prices (path.accepted present)).stores stores
    exact valid.forward t present point.asset prev stored point latest

namespace Sample
open OracleContract.Sample

def submissions (times : List Nat) : List Call :=
  [.initializeContract admin,.addOracleSource admin source [0x42]] ++
    times.map (fun time => .submitPrice source asset 100 7 time)
end Sample

theorem timestamps_in_order : ∃ ts s, Run (step Sample.host (merkleVerifier Sample.host)) empty ts s ∧
    ChronologicalRun ts ∧ (getPriceHistory s Sample.asset).map PriceDataPoint.timestamp = [1000,1000,2000] := by
  have replayed : (Sample.run (Sample.submissions [1000,1000,2000])).map (fun result =>
      (decide (∀ t ∈ result.1, Fresh t.before t.input.2),
        (getPriceHistory result.2 Sample.asset).map PriceDataPoint.timestamp)) = .ok (true,[1000,1000,2000]) := by rfl
  obtain ⟨ts,last,path,fresh,times⟩ := replay_pair replayed
  exact ⟨ts,last,path,(chronological_exact path).mp (of_decide_eq_true fresh),times⟩

theorem backdated_price_stored : ∃ ts s, Run (step Sample.host (merkleVerifier Sample.host)) empty ts s ∧
    ¬ ChronologicalRun ts := by
  have replayed : (Sample.run (Sample.submissions [1000,500])).map (fun result =>
      (getPriceHistory result.2 Sample.asset).map PriceDataPoint.timestamp) = .ok [1000,500] := by rfl
  obtain ⟨ts,last,path,observed⟩ := replay_observed replayed
  refine ⟨ts,last,path,?_⟩
  intro valid
  have times := List.pairwise_map.mpr (valid.sorted last path.last_visited Sample.asset)
  rw [observed] at times
  revert times
  decide

-- The latest price is the newest history entry, and neither is there without the other.
def LatestMatchesHistory (s : Storage) : Prop :=
  ∀ asset, (getLatestPrice s asset = none ↔ getPriceHistory s asset = []) ∧
    ∀ latest ∈ getLatestPrice s asset, (getPriceHistory s asset).getLast? = some latest

theorem matches_of_consistent (valid : Feed.Matched (feed id s)) : LatestMatchesHistory s := by
  intro asset
  have same : getLatestPrice s asset = (getPriceHistory s asset).getLast? := by simpa using valid asset
  rw [same]
  exact ⟨List.getLast?_eq_none_iff,fun _ last => last⟩

-- The cells stay in step exactly when no UpdateAssetDecimals rescales: it writes LatestPrice only.
theorem latest_matches_exact (path : Run (step host verify) empty ts s) :
    (∀ t ∈ ts, Unscaled t.before t.input.2) ↔ ∀ r ∈ states empty ts, LatestMatchesHistory r := by
  constructor
  · intro unscaled r visited
    refine matches_of_consistent (runs_consistent id (fun _ => 0 : PriceDataPoint → Nat) path ?_ r visited).matched
    intro t present
    refine ⟨fun _ _ _ _ => Nat.le_refl _,?_⟩
    intro update found prev stored
    rw [← unscaled t present update found prev stored]
  · intro valid t present update found prev stored
    have before := (valid t.before (path.before_visited present) update.1).2 prev stored
    cases step_prices (path.accepted present) with
    | write _ stores => cases found.symm.trans (written_unscaled stores)
    | rescale target newDecimals _ _ same stored' latest history =>
      cases found.symm.trans same
      cases stored.symm.trans stored'
      have after := (valid t.after (Runs.after_visited present) target).2 {prev with decimals := newDecimals} (by simp [latest])
      rw [history,before] at after
      exact congrArg PriceDataPoint.decimals (Option.some.inj after)
    | keep _ absent => cases stored.symm.trans (absent update found)

def Sample.rescaling (newDecimals : Nat) : List Call :=
  Sample.submissions [1000] ++
    [.initMultisig Sample.admin [.repeated 0x31,.repeated 0x32] 1,
      .createProposal (.repeated 0x31) (.updateAssetDecimals Sample.asset newDecimals),
      .executeProposal (.repeated 0x32) 0]

theorem same_decimals_match : ∃ ts s, Run (step Sample.host (merkleVerifier Sample.host)) empty ts s ∧
    (∀ r ∈ states empty ts, LatestMatchesHistory r) ∧
    (getLatestPrice s Sample.asset).map PriceDataPoint.decimals = some 7 := by
  have replayed : (Sample.run (Sample.rescaling 7)).map (fun result =>
      (decide (∀ t ∈ result.1, Unscaled t.before t.input.2),
        (getLatestPrice result.2 Sample.asset).map PriceDataPoint.decimals)) = .ok (true,some 7) := by rfl
  obtain ⟨ts,last,path,unscaled,decimals⟩ := replay_pair replayed
  exact ⟨ts,last,path,(latest_matches_exact path).mp (of_decide_eq_true unscaled),decimals⟩

theorem other_decimals_differ : ∃ ts s, Run (step Sample.host (merkleVerifier Sample.host)) empty ts s ∧
    ¬ LatestMatchesHistory s := by
  have replayed : (Sample.run (Sample.rescaling 8)).map (fun result =>
      ((getLatestPrice result.2 Sample.asset).map PriceDataPoint.decimals,
        (getPriceHistory result.2 Sample.asset).getLast?.map PriceDataPoint.decimals)) = .ok (some 8,some 7) := by rfl
  obtain ⟨ts,last,path,latest,newest⟩ := replay_pair replayed
  refine ⟨ts,last,path,?_⟩
  intro valid
  obtain ⟨point,stored,rescaled⟩ := Option.map_eq_some_iff.mp latest
  rw [(valid Sample.asset).2 point stored,Option.map_some,rescaled] at newest
  cases newest

def WithinBound (s : Storage) (point : PriceDataPoint) : Prop :=
  ∀ thresholdBps ∈ getDeviationThreshold s, ∀ prev ∈ getLatestPrice s point.asset,
    Utils.deviationExceeds point.price prev.price thresholdBps = false

instance (s : Storage) (point : PriceDataPoint) : Decidable (WithinBound s point) := by
  unfold WithinBound; infer_instance

def batched : Call → Option PriceDataPoint
  | .applyBatchEntry _ entry _ => some (entryPoint entry)
  | _ => none

-- Every write respects the bound exactly when the batch entries do: only `submit_price` checks it.
theorem deviation_guard_exact (path : Run (step host verify) empty ts s) :
    (∀ t ∈ ts, ∀ point ∈ batched t.input.2, WithinBound t.before point) ↔
      ∀ t ∈ ts, ∀ point ∈ written t.input.2, WithinBound t.before point := by
  constructor
  · rintro bounded ⟨before,⟨env,call⟩,after⟩ present point stores
    cases call with
    | applyBatchEntry => exact bounded _ present point stores
    | submitPrice =>
      have accepted := path.accepted present
      simp only [step,bind_ok,Except.ok.injEq] at accepted
      obtain ⟨_,submitted,_⟩ := accepted
      obtain ⟨_,_,_,_,guarded,_⟩ := submitPrice_parts submitted
      cases stores
      intro thresholdBps set prev stored
      exact checkDeviation_ok.mp guarded thresholdBps prev set stored
    | _ => cases stores
  · rintro bounded ⟨before,⟨env,call⟩,after⟩ present point stores
    cases call with
    | applyBatchEntry => exact bounded _ present point stores
    | _ => cases stores

def Sample.batchWrite (price : Int) : List Call :=
  [.initializeContract Sample.admin,.addOracleSource Sample.admin source [0x42],
    .setDeviationThreshold Sample.admin 1000,.submitPrice source Sample.asset price 7 1000,
    .submitBatch source 0 root 3,
    .applyBatchEntry 0 (entry 3) ⟨2,[node12]⟩]

theorem near_entry_bounded : ∃ ts s, Run (step Sample.host (merkleVerifier Sample.host)) empty ts s ∧
    (∀ t ∈ ts, ∀ point ∈ written t.input.2, WithinBound t.before point) ∧
    (getPriceHistory s Sample.asset).map PriceDataPoint.price = [3,3] := by
  have replayed : (Sample.run (Sample.batchWrite 3)).map (fun result =>
      (decide (∀ t ∈ result.1, ∀ point ∈ batched t.input.2, WithinBound t.before point),
        (getPriceHistory result.2 Sample.asset).map PriceDataPoint.price)) = .ok (true,[3,3]) := by rfl
  obtain ⟨ts,last,path,bounded,prices⟩ := replay_pair replayed
  exact ⟨ts,last,path,(deviation_guard_exact path).mp (of_decide_eq_true bounded),prices⟩

theorem far_entry_stored : ∃ ts s, Run (step Sample.host (merkleVerifier Sample.host)) empty ts s ∧
    ¬ ∀ t ∈ ts, ∀ point ∈ written t.input.2, WithinBound t.before point := by
  have replayed : (Sample.run (Sample.batchWrite 1)).map (fun result =>
      decide (∀ t ∈ result.1, ∀ point ∈ written t.input.2, WithinBound t.before point)) = .ok false := by rfl
  obtain ⟨ts,last,path,observed⟩ := replay_observed replayed
  exact ⟨ts,last,path,of_decide_eq_false observed⟩

end StellarPriceOracle.PriceCells
