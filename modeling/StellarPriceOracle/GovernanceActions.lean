import StellarPriceOracle.GovernanceLifecycle
import StellarPriceOracle.MultiSigActions

namespace StellarPriceOracle.GovernanceActions
open Guarded Storage Governance GovernanceLifecycle
open MultiSigActions
open Runs (Run replay_observed states replay_pair)
open KeyedStore (AgreeOn get_set_ne get_set empty)
open Option (map_eq_some_iff mem_def some)
open Except (ok)

variable {id : Nat}

theorem application_parts (ran : step s (env,call) = .ok next) (about : id ∈ applies call)
    (has : getGovProposal s id = some p) : ∃ q, applyAction (setGovProposal s q) p.action = .ok next := by
  cases call with
  | execute =>
    cases about
    obtain ⟨_,_,_,_,got,resolved,_,_,applied⟩ := execute_parts ran
    cases got.symm.trans has
    rw [(resolution_same resolved).2.1] at applied
    exact ⟨_,applied⟩
  | emergencyExecute =>
    cases about
    obtain ⟨_,got,_,_,applied⟩ := emergencyExecute_parts ran
    cases got.symm.trans has
    exact ⟨_,applied⟩
  | _ => cases about

@[simp] def Compared (k : DataKey) : Prop := ∀ n, k ≠ .governanceProposal n

-- The multi-sig executor's effect; UpdateGovernanceConfig, which it never carries, installs the configuration.
def expected (env : Env) (s : Storage) (signer : Address) : ProposalAction → Outcome Storage
  | .updateGovernanceConfig newConfig => .ok (setGovConfig s newConfig)
  | action => applyProposalAction env s signer action

def TakesEffect (env : Env) (s : Storage) (signer : Address) (action : ProposalAction) (next : Storage) : Prop :=
  ∃ reference, expected env s signer action = .ok reference ∧ AgreeOn Compared next reference

theorem recorded_agree : AgreeOn Compared (setGovProposal s q) s :=
  KeyedStore.agreeOn_set_unseen (fun compared => compared q.id rfl)

theorem addSource_agree (agree : AgreeOn Compared s t) (added : addSource s source name = .ok next) :
    ∃ reference, addSource t source name = .ok reference ∧ AgreeOn Compared next reference := by
  have known : isAuthorizedSource t source = isAuthorizedSource s source := by
    simp only [isAuthorizedSource,agree (.source source) (by simp)]
  have count : t.get .sourceCount = s.get .sourceCount := (agree .sourceCount (by simp)).symm
  simp only [addSource,known] at added ⊢
  split at added
  · rename_i mem
    cases added
    exact ⟨_,by rw [if_pos mem],agree.set⟩
  · rename_i absent
    simp only [bind_ok,addBelow_ok,ok.injEq,getSourceCount] at added
    obtain ⟨total,⟨below,counted⟩,rfl⟩ := added
    refine ⟨_,?_,agree.set.set.set⟩
    rw [if_neg absent]
    simp only [bind_ok,addBelow_ok,ok.injEq,getSourceCount]
    refine ⟨total,?_,rfl⟩
    simpa [count] using And.intro below counted

theorem removeSource_agree (agree : AgreeOn Compared s t) : AgreeOn Compared (removeSource s source) (removeSource t source) := by
  have known : isAuthorizedSource t source = isAuthorizedSource s source := by
    simp only [isAuthorizedSource,agree (.source source) (by simp)]
  have count : t.get .sourceCount = s.get .sourceCount := (agree .sourceCount (by simp)).symm
  simp only [removeSource,known]
  split
  · have same : getSourceCount ((t.remove (.source source)).remove (.sourceName source)) =
        getSourceCount ((s.remove (.source source)).remove (.sourceName source)) := by
      simp [getSourceCount,count]
    rw [same]
    split
    · exact agree.remove.remove.set
    · exact agree.remove.remove
  · exact agree

-- `apply_action` skips ten of the actions, and SetAdmin and TransferAdmin replace Admin instead of staging it.
@[simp] def Faithful (env : Env) (s : Storage) : ProposalAction → Prop
  | .setAdmin newAdmin | .transferAdmin newAdmin =>
    s.get .admin = some newAdmin ∧ env.timestamp + adminTransferWindowSeconds < 2^64 ∧
      s.get .pendingAdmin = some (newAdmin,env.timestamp + adminTransferWindowSeconds)
  | .setDeviationThreshold thresholdBps => s.get .deviationThreshold = some thresholdBps
  | .resetReputation source => s.get (.sourceReputation source) = none
  | .addSigner _ => getMultisigConfig s = none
  | .removeSigner signer => ∀ config ∈ getMultisigConfig s, signer ∉ config.signers
  | .setThreshold newThreshold => ∀ config ∈ getMultisigConfig s, config.threshold = newThreshold
  | .pause => s.get .paused = some true
  | .unpause => s.get .paused = some false
  | .setStakeTreasury treasury => s.get .stakeTreasury = some treasury
  | .updateAssetDecimals asset newDecimals =>
    newDecimals ≤ Submission.maxDecimals ∧ ∀ prev ∈ getLatestPrice s asset, prev.decimals = newDecimals
  | .commitFeedCatalog _ _ => False
  | .addSource _ _ | .addOracleSource _ _ | .removeSource _ | .removeOracleSource _ | .setTrustedAsset _ _
  | .updateGovernanceConfig _ => True

theorem effect_of (ran : expected env s signer action = .ok reference) :
    TakesEffect env s signer action next ↔ AgreeOn Compared next reference := by
  constructor
  · rintro ⟨_,same,agree⟩
    cases ran.symm.trans same
    exact agree
  · intro agree
    exact ⟨reference,ran,agree⟩

theorem stage_exact (agree : AgreeOn Compared base s) :
    (s.get .admin = some newAdmin ∧ env.timestamp + adminTransferWindowSeconds < 2^64 ∧
        s.get .pendingAdmin = some (newAdmin,env.timestamp + adminTransferWindowSeconds)) ↔
      ∃ reference, stageAdmin env s newAdmin = .ok reference ∧
        AgreeOn Compared (base.set .admin newAdmin) reference := by
  constructor
  · rintro ⟨admin,below,pending⟩
    refine ⟨setPendingAdmin s newAdmin (env.timestamp + adminTransferWindowSeconds),?_,?_⟩
    · simp only [stageAdmin,getAdmin,admin,bind_ok,addBelow_ok,someOr_ok,ok.injEq]
      exact ⟨_,⟨below,rfl⟩,newAdmin,rfl,rfl⟩
    · intro k compared
      rcases eq_or_ne k .admin with rfl | here
      · simp [setPendingAdmin,admin]
      · rw [get_set_ne here]
        exact (agree.set_iff (by simp)).mpr pending k compared
  · rintro ⟨_,staged,same⟩
    simp only [stageAdmin,bind_ok,addBelow_ok,ok.injEq] at staged
    obtain ⟨_,⟨below,rfl⟩,_,_,rfl⟩ := staged
    have admin := same .admin (by simp)
    have pending := same .pendingAdmin (by simp)
    simp only [setPendingAdmin,get_set,get_set_ne,ne_eq,reduceCtorEq,not_false_eq_true] at admin pending
    rw [agree .pendingAdmin (by simp)] at pending
    exact ⟨admin.symm,below,pending⟩

theorem signer_exact (agree : AgreeOn Compared base s) :
    (∃ reference, applyToConfig s action = .ok reference ∧ AgreeOn Compared base reference) ↔
      ∀ config ∈ getMultisigConfig s, applySignerAction config action = .ok config := by
  unfold applyToConfig
  cases conf : getMultisigConfig s with
  | none => simpa using agree
  | some config =>
    simp only [bind_ok,ok.injEq,mem_def,some.injEq]
    constructor
    · rintro ⟨_,⟨_,ran,rfl⟩,same⟩ _ rfl
      have held := (agree.set_iff (by simp)).mp same
      cases conf.symm.trans held
      exact ran
    · intro unchanged
      refine ⟨_,⟨config,unchanged config rfl,rfl⟩,?_⟩
      exact (agree.set_iff (by simp)).mpr conf

theorem addSigner_changes : applySignerAction config (.addSigner newSigner) ≠ .ok config := by
  intro same
  simp only [applySignerAction,bind_ok,ok.injEq] at same
  obtain ⟨_,_,same⟩ := same
  have size := congrArg (fun config => config.signers.length) same
  simp only [List.length_append,List.length_singleton] at size
  split at size
  · omega
  · simp only [List.length_append,List.length_singleton] at size
    omega

theorem removeSigner_unchanged : applySignerAction config (.removeSigner signer) = .ok config ↔ signer ∉ config.signers := by
  cases config
  simp only [applySignerAction,ok.injEq,MultiSigConfig.mk.injEq,and_true,List.filter_eq_self,decide_eq_true_eq]
  constructor
  · intro others member
    exact others signer member rfl
  · rintro absent _ member rfl
    exact absent member

theorem setThreshold_unchanged :
    applySignerAction config (.setThreshold newThreshold) = .ok config ↔ config.threshold = newThreshold := by
  cases config
  simp [applySignerAction,eq_comm]

theorem decimals_exact (agree : AgreeOn Compared base s) :
    (newDecimals ≤ Submission.maxDecimals ∧ ∀ prev ∈ getLatestPrice s asset, prev.decimals = newDecimals) ↔
      ∃ reference, updateAssetDecimals s asset newDecimals = .ok reference ∧
        AgreeOn Compared base reference := by
  have rewritten : ∀ prev : PriceDataPoint, getLatestPrice s asset = some prev → ∀ reference : Storage,
      reference = s.set (.latestPrice asset) {prev with decimals := newDecimals} →
        (AgreeOn Compared base reference ↔ prev.decimals = newDecimals) := by
    rintro prev has _ rfl
    rw [agree.set_iff (by simp)]
    change getLatestPrice s asset = _ ↔ _
    rw [has]
    cases prev
    simp
  constructor
  · rintro ⟨bounded,same⟩
    cases has : getLatestPrice s asset with
    | none => exact ⟨s,by simp [updateAssetDecimals,bounded,has],agree⟩
    | some prev =>
      refine ⟨_,by simp [updateAssetDecimals,bounded,has]; rfl,?_⟩
      exact (rewritten prev has _ (by simp [setLatestPrice,has])).mpr (same prev has)
  · rintro ⟨reference,ran,same⟩
    have parts := updateAssetDecimals_parts ran
    obtain ⟨bounded,_⟩ := guard_ok.mp ran
    refine ⟨bounded,?_⟩
    intro prev has
    obtain ⟨absent,_⟩ | ⟨_,got,eq⟩ := parts
    · cases absent.symm.trans has
    · cases got.symm.trans has
      exact (rewritten prev has reference eq).mp same

theorem commit_changes (agree : AgreeOn Compared base s) :
    ¬ ∃ reference, commitFeedCatalog env s signer version catalogHash = .ok reference ∧
      AgreeOn Compared base reference := by
  rintro ⟨_,committed,same⟩
  simp only [commitFeedCatalog,bind_ok,require_ok,ok.injEq] at committed
  obtain ⟨_,_,_,newer,rfl⟩ := committed
  have held := (agree.set_iff (by simp)).mp same
  exact Nat.lt_irrefl _ (newer _ held)

theorem action_exact (agree : AgreeOn Compared base s) (ran : applyAction base action = .ok next) :
    Faithful env s action ↔ TakesEffect env s signer action next := by
  cases action with
  | addSource source name | addOracleSource source name => exact ⟨fun _ => addSource_agree agree ran,fun _ => trivial⟩
  | removeSource source | removeOracleSource source =>
    cases ran
    exact ⟨fun _ => ⟨_,rfl,removeSource_agree agree⟩,fun _ => trivial⟩
  | setTrustedAsset asset trusted | updateGovernanceConfig newConfig =>
    cases ran
    exact ⟨fun _ => ⟨_,rfl,agree.set⟩,fun _ => trivial⟩
  | setAdmin newAdmin | transferAdmin newAdmin =>
    cases ran
    exact stage_exact agree
  | setDeviationThreshold thresholdBps | pause | unpause | setStakeTreasury treasury =>
    cases ran
    exact (agree.set_iff (by simp)).symm.trans (effect_of rfl).symm
  | resetReputation =>
    cases ran
    exact (agree.remove_iff (by simp)).symm.trans (effect_of rfl).symm
  | addSigner =>
    cases ran
    apply Iff.symm
    apply (signer_exact agree).trans
    simp [addSigner_changes,Option.eq_none_iff_forall_ne_some]
  | removeSigner =>
    cases ran
    apply Iff.symm
    apply (signer_exact agree).trans
    simp [removeSigner_unchanged]
  | setThreshold =>
    cases ran
    apply Iff.symm
    apply (signer_exact agree).trans
    simp [setThreshold_unchanged]
  | updateAssetDecimals =>
    cases ran
    exact decimals_exact agree
  | commitFeedCatalog =>
    cases ran
    exact ⟨False.elim,commit_changes agree⟩

-- An executed proposal has the effect of its action exactly in these states.
theorem governance_effect_exact (accepted : step s (env,call) = .ok next) (about : id ∈ applies call)
    (stored : getGovProposal s id = some p) : Faithful env s p.action ↔ TakesEffect env s signer p.action next := by
  obtain ⟨q,applied⟩ := application_parts accepted about stored
  exact action_exact (recorded_agree) applied

namespace Sample
open GovernanceLifecycle.Sample

def voted (action : ProposalAction) : List (Nat × Call) :=
  [(0,.initializeGovernance alice (config 100)),(0,.propose alice action []),(10,.vote alice 1 true),(20,.vote bob 1 false)]

def executed (s : Storage) : Option Storage := (step s (env 150,.execute 1)).toOption
end Sample

theorem trusted_asset_takes_effect : ∃ ts s next p, Run step empty ts s ∧
    step s (Sample.env 150,.execute 1) = .ok next ∧ getGovProposal s 1 = some p ∧
    TakesEffect (Sample.env 150) s Sample.alice p.action next ∧ next.get (.trustedAsset [0x58]) = some true := by
  have replayed : (Sample.run (Sample.voted (.setTrustedAsset [0x58] true))).map (fun result =>
      ((getGovProposal result.2 1).map GovernanceProposal.action,
        (Sample.executed result.2).map (fun next => next.get (.trustedAsset [0x58])))) =
        .ok (some (.setTrustedAsset [0x58] true),some (some true)) := by rfl
  obtain ⟨ts,s,path,proposal,result⟩ := replay_pair replayed
  obtain ⟨p,stored,action⟩ := map_eq_some_iff.mp proposal
  obtain ⟨next,ran,trusted⟩ := map_eq_some_iff.mp result
  refine ⟨ts,s,next,p,path,ok_of_toOption ran,stored,?_,trusted⟩
  apply (governance_effect_exact (ok_of_toOption ran) rfl stored).mp
  rw [action]
  trivial

-- A passed Pause is reported as executed and pauses nothing.
theorem pause_without_effect : ∃ ts s next p, Run step empty ts s ∧
    step s (Sample.env 150,.execute 1) = .ok next ∧ getGovProposal s 1 = some p ∧ p.action = .pause ∧
    (getGovProposal next 1).map GovernanceProposal.status = some .executed ∧ isPaused next = false ∧
    ∀ signer, ¬ TakesEffect (Sample.env 150) s signer p.action next := by
  have replayed : (Sample.run (Sample.voted .pause)).map (fun result =>
      ((getGovProposal result.2 1).map GovernanceProposal.action,
        (Sample.executed result.2).map (fun next => (next.get .paused,
          (getGovProposal next 1).map GovernanceProposal.status)))) =
        .ok (some .pause,some (none,some .executed)) := by rfl
  obtain ⟨ts,s,path,proposal,result⟩ := replay_pair replayed
  obtain ⟨p,stored,action⟩ := map_eq_some_iff.mp proposal
  obtain ⟨next,ran,seen⟩ := map_eq_some_iff.mp result
  obtain ⟨running,done⟩ := Prod.mk.inj seen
  refine ⟨ts,s,next,p,path,ok_of_toOption ran,stored,action,done,by simp [isPaused,running],?_⟩
  rw [action]
  rintro signer ⟨_,applied,agree⟩
  cases applied
  have paused := agree .paused (by simp)
  simp [setPaused,running] at paused

def Positive (config : GovernanceConfig) : Prop :=
  0 < config.votingPeriod ∧ 0 < config.quorum ∧ 0 < config.proposalThreshold

instance (config : GovernanceConfig) : Decidable (Positive config) := by
  unfold Positive; infer_instance

theorem validateConfig_ok : validateConfig config = .ok u ↔ Positive config := by
  simp only [validateConfig,require_ok,not_or,Positive]
  omega

def installed (s : Storage) (call : Call) : Option GovernanceConfig :=
  (applies call).bind (fun id => (getGovProposal s id).bind (fun p => installs p.action))

theorem application_config (ran : step s (env,call) = .ok next) (about : id ∈ applies call)
    (has : getGovProposal s id = some p) : getGovConfig next = (installed s call).or (getGovConfig s) := by
  obtain ⟨q,applied⟩ := application_parts ran about has
  have kept : getGovConfig (setGovProposal s q) = getGovConfig s := get_set_ne (by simp)
  have got : installed s call = installs p.action := by simp [installed,mem_def.mp about,has]
  rw [applyAction_config applied,kept,got]

theorem replaced_exact {new : Option GovernanceConfig} (usable : ∀ config ∈ getGovConfig s, validateConfig config = .ok ()) :
    (∀ newConfig ∈ new, Positive newConfig) ↔ ∀ config ∈ new.or (getGovConfig s), validateConfig config = .ok () := by
  cases new with
  | none => exact ⟨fun _ => usable,fun _ _ none => by cases none⟩
  | some => simp [validateConfig_ok]

theorem step_validated (valid : WellFormed s) (ran : step s (env,call) = .ok next)
    (usable : ∀ config ∈ getGovConfig s, validateConfig config = .ok ()) :
    (∀ newConfig ∈ installed s call, Positive newConfig) ↔
      ∀ config ∈ getGovConfig next, validateConfig config = .ok () := by
  cases call with
  | initializeGovernance admin first =>
    simp only [step,initializeGovernance,bind_ok,ok.injEq] at ran
    obtain ⟨_,_,_,_,_,checked,rfl⟩ := ran
    have has : getGovConfig (setGovConfig (setAdmin s admin) first) = some first := get_set
    simp [has,checked,installed,applies]
  | execute =>
    obtain ⟨_,p,_,_,has,_⟩ := execute_parts ran
    rw [application_config ran rfl has]
    exact replaced_exact usable
  | emergencyExecute =>
    obtain ⟨p,has,_⟩ := emergencyExecute_parts ran
    rw [application_config ran rfl has]
    exact replaced_exact usable
  | _ =>
    have same : getGovConfig next = getGovConfig s := step_frame valid.keyed ran (by simp [Writes])
    rw [same]
    exact ⟨fun _ => usable,fun _ _ none => by cases none⟩

-- The configuration passes its own check exactly when every executed update would have passed it.
theorem governance_config_exact (path : Run step empty ts s) :
    (∀ t ∈ ts, ∀ newConfig ∈ installed t.before t.input.2, Positive newConfig) ↔
      ∀ r ∈ states empty ts, ∀ config ∈ getGovConfig r, validateConfig config = .ok () := by
  apply path.always_exact
  · intro _ configured
    cases configured
  · intro t present usable
    obtain ⟨_,_,_,prior,accepted⟩ := path.member present
    exact step_validated (runs_kept prior).wellFormed accepted usable

def Sample.requorum (quorum : Int) : List (Nat × Call) :=
  Sample.voted (.updateGovernanceConfig (Sample.config quorum)) ++ [(150,.execute 1)]

theorem halved_quorum_valid : ∃ ts s, Run step empty ts s ∧
    (∀ r ∈ states empty ts, ∀ config ∈ getGovConfig r, validateConfig config = .ok ()) ∧
    (getGovConfig s).map GovernanceConfig.quorum = some 50 := by
  have replayed : (Sample.run (Sample.requorum 50)).map (fun result =>
      (decide (∀ t ∈ result.1, ∀ newConfig ∈ installed t.before t.input.2, Positive newConfig),
        (getGovConfig result.2).map GovernanceConfig.quorum)) = .ok (true,some 50) := by rfl
  obtain ⟨ts,last,path,positive,quorum⟩ := replay_pair replayed
  exact ⟨ts,last,path,(governance_config_exact path).mp (of_decide_eq_true positive),quorum⟩

theorem zero_quorum_installed : ∃ ts s config, Run step empty ts s ∧
    getGovConfig s = some config ∧ validateConfig config ≠ .ok () := by
  have replayed : (Sample.run (Sample.requorum 0)).map (fun result => getGovConfig result.2) =
      .ok (some (Sample.config 0)) := by rfl
  obtain ⟨ts,last,path,configured⟩ := replay_observed replayed
  refine ⟨ts,last,Sample.config 0,path,configured,?_⟩
  rw [ne_eq,validateConfig_ok]
  decide

end StellarPriceOracle.GovernanceActions
