import StellarPriceOracle.CatalogDiscipline
import StellarPriceOracle.MultiSigActions

namespace StellarPriceOracle.CatalogChain
open FeedCatalog Guarded JsArray Storage
open CatalogGovernance (Governance CatalogPolicy Request Catalogued Authored create genesisFeeds Effect Governance epoch genesis_created next next_effect)
open MultiSigActions (applyProposalAction applyProposalAction_get)
open Runs (Run total states)
open InsertionMap
open List hiding after
open Option (bind_eq_some_iff ite_none_right_eq_some some)

def onChainText (text : String) : Str := text.toUTF8.data.toList

theorem onChainText_inj (same : onChainText a = onChainText b) : a = b :=
  String.toByteArray_inj.mp (ByteArray.ext (Array.toList_inj.mp same))

def parseAddress (text : String) : Option Address :=
  if size : (onChainText text).length = 56 then some ⟨onChainText text,size⟩ else none

def toU32 : JsNumber → Option Nat
  | .finite q => if q.den = 1 ∧ 0 ≤ q.num ∧ q.num < 2^32 then some q.num.toNat else none
  | _ => none

-- catalog-governance-routes.ts. No proposal can carry a malformed address or threshold.
def toProposalAction : OnChainAction → Outcome ProposalAction
  | .setTrustedAsset asset trusted => .ok (.setTrustedAsset (onChainText asset) trusted)
  | .addSource source name => (someOr (parseAddress source) .trap).map (.addSource · (onChainText name))
  | .removeSource source => (someOr (parseAddress source) .trap).map .removeSource
  | .setDeviationThreshold thresholdBps => (someOr (toU32 thresholdBps) .trap).map .setDeviationThreshold

abbrev Context := OnChainAction → Env × Address

def execute (context : Context) (chain : Storage) (action : OnChainAction) : Outcome Storage := do
  let proposal ← toProposalAction action
  applyProposalAction (context action).1 chain (context action).2 proposal

def applyPlan (context : Context) (chain : Storage) (actions : List OnChainAction) : Outcome Storage := inTurn (execute context) chain actions

structure World where
  catalog : Governance
  chain : Storage

structure Input where
  request : Request
  context : Context

def activatedPlan (before after : Governance) : List OnChainAction :=
  if after.versions.length = before.versions.length then []
  else ((after.latest.proposalId.bind before.proposals.get).map (fun p => p.onChainPlan.actions)).getD []

def step (host : FeedCatalog.Host) (w : World) (input : Input) : Outcome World := do
  let catalog := next host w.catalog input.request
  let chain ← applyPlan input.context w.chain (activatedPlan w.catalog catalog)
  .ok ⟨catalog,chain⟩

-- The chain trusts the assets of the enabled feeds, has their sources and their common bound, if any.
structure InStep (listed : String → Prop) (address : String → Option Address) (feeds : List FeedPolicy) (chain : Storage) : Prop where
  trusted : ∀ feed ∈ feeds, isTrustedAsset chain (onChainText feed.asset) = feed.enabled
  untrusted : ∀ asset, listed asset → asset ∉ feeds.map FeedPolicy.asset → isTrustedAsset chain (onChainText asset) = false
  registered : ∀ a, isAuthorizedSource chain a = true ↔ ∃ feed ∈ feeds, feed.enabled = true ∧ ∃ source ∈ feed.sources, address source = some a
  threshold : ∀ t, (∃ feed ∈ feeds, feed.enabled = true) → (∀ feed ∈ feeds, feed.enabled = true → feed.maxDeviationBps = t) →
    ∃ thresholdBps, toU32 t = some thresholdBps ∧ getDeviationThreshold chain = some thresholdBps

-- A source name has one address, whatever the proposal.
def Agrees (address : String → Option Address) (sourceAddresses : InsertionMap String String) : Prop :=
  ∀ source text a, sourceAddresses.get source = some text → parseAddress text = some a → address source = some a

@[simp] def trustOf (asset : String) : OnChainAction → Option Bool
  | .setTrustedAsset other trusted => if other = asset then some trusted else none
  | _ => none

@[simp] def registrationOf (a : Address) : OnChainAction → Option Bool
  | .addSource source _ => if parseAddress source = some a then some true else none
  | .removeSource source => if parseAddress source = some a then some false else none
  | _ => none

@[simp] def thresholdOf : OnChainAction → Option (Option Nat)
  | .setDeviationThreshold thresholdBps => some (toU32 thresholdBps)
  | _ => none

theorem translated_map (done : (someOr value Failure.trap).map f = .ok proposal) : ∃ a, value = some a ∧ proposal = f a := by
  cases value with
  | none => cases done
  | some a => exact ⟨a,rfl,(Except.ok.inj done).symm⟩

theorem addSource_registers (added : addSource chain source name = .ok chain') : isAuthorizedSource chain' source = true := by
  simp only [addSource] at added
  split at added
  · cases added
    simp [isAuthorizedSource]
  · obtain ⟨_,_,⟨⟩⟩ := bind_ok.mp added
    simp [isAuthorizedSource]

theorem removeSource_clears : isAuthorizedSource (removeSource chain source) source = false := by
  simp only [removeSource]
  split
  · split <;> simp [isAuthorizedSource]
  · rename_i absent
    simpa using absent

section
variable (done : execute context chain action = .ok chain')
include done

theorem execute_parts :
    ∃ proposal, toProposalAction action = .ok proposal ∧ applyProposalAction (context action).1 chain (context action).2 proposal = .ok chain' := by
  simpa only [execute,bind_ok] using done

@[simp] def Writes : OnChainAction → DataKey → Prop
  | .setTrustedAsset asset _,k => k = .trustedAsset (onChainText asset)
  | .addSource source _,k | .removeSource source,k =>
    ∃ a, parseAddress source = some a ∧ (k = .source a ∨ k = .sourceName a ∨ k = .sourceCount)
  | .setDeviationThreshold _,k => k = .deviationThreshold

theorem execute_get (out : ¬ Writes action k) : chain'.get k = chain.get k := by
  obtain ⟨_,translated,ran⟩ := execute_parts done
  apply applyProposalAction_get ran
  cases action with
  | setTrustedAsset =>
    cases translated
    exact out
  | addSource source name | removeSource source =>
    obtain ⟨a,parsed,rfl⟩ := translated_map translated
    exact fun touches => out ⟨a,parsed,touches⟩
  | setDeviationThreshold =>
    obtain ⟨_,_,rfl⟩ := translated_map translated
    exact out

theorem execute_trust :
    isTrustedAsset chain' (onChainText asset) = (trustOf asset action).getD (isTrustedAsset chain (onChainText asset)) := by
  unfold isTrustedAsset
  cases action with
  | setTrustedAsset other trusted =>
    rcases eq_or_ne other asset with rfl | here
    · cases done
      simp [setTrustedAsset]
    · have apart : ¬ Writes (.setTrustedAsset other trusted) (.trustedAsset (onChainText asset)) :=
        fun same => here (onChainText_inj (DataKey.trustedAsset.inj same)).symm
      simp [here,execute_get done apart]
  | addSource => simp [execute_get done (k := .trustedAsset _) (by simp)]
  | removeSource source | setDeviationThreshold thresholdBps => simp [execute_get done (k := .trustedAsset _) (by simp)]

theorem execute_registration : isAuthorizedSource chain' a = (registrationOf a action).getD (isAuthorizedSource chain a) := by
  have kept (out : ¬ Writes action (.source a)) : isAuthorizedSource chain' a = isAuthorizedSource chain a := by
    rw [isAuthorizedSource,isAuthorizedSource,execute_get done out]
  cases action with
  | setTrustedAsset => exact kept (by simp)
  | addSource =>
    obtain ⟨proposal,translated,ran⟩ := execute_parts done
    obtain ⟨b,parsed,rfl⟩ := translated_map translated
    rcases eq_or_ne b a with rfl | here
    · simpa [parsed] using addSource_registers ran
    · simpa [parsed,here] using kept (by simpa [parsed] using Ne.symm here)
  | removeSource =>
    obtain ⟨proposal,translated,ran⟩ := execute_parts done
    obtain ⟨b,parsed,rfl⟩ := translated_map translated
    rcases eq_or_ne b a with rfl | here
    · cases ran
      simpa [parsed] using removeSource_clears
    · simpa [parsed,here] using kept (by simpa [parsed] using Ne.symm here)
  | setDeviationThreshold => exact kept (by simp)

theorem execute_threshold : getDeviationThreshold chain' = (thresholdOf action).getD (getDeviationThreshold chain) := by
  unfold getDeviationThreshold
  cases action with
  | setTrustedAsset other trusted | addSource source name | removeSource source => exact execute_get done (by simp)
  | setDeviationThreshold =>
    obtain ⟨_,translated,ran⟩ := execute_parts done
    obtain ⟨_,whole,rfl⟩ := translated_map translated
    cases ran
    simp [whole,setDeviationThreshold]

end

section
variable {address : String → Option Address}

theorem mem_plan : action ∈ (buildOnChainPlan host before after addresses).actions ↔ action ∈ trustActions before after ∨
    (∃ source ∈ enabledSources after, source ∉ enabledSources before ∧ ∃ text, addressOf addresses source = some text ∧ .addSource text source = action) ∨
    (∃ source ∈ enabledSources before, source ∉ enabledSources after ∧ ∃ text, addressOf addresses source = some text ∧ .removeSource text = action) ∨
    action ∈ thresholdActions before after := by
  simp only [buildOnChainPlan,mem_sortBy,mem_append,mem_filterMap,mem_filter,mem_sort,decide_eq_true_eq,Option.map_eq_some_iff,
    or_assoc,and_assoc]

theorem addressOf_get (got : addressOf addresses source = some text) : addresses.get source = some text := by
  unfold addressOf at got
  exact (Option.filter_eq_some_iff.mp got).1

theorem plan_addressed (complete : (buildOnChainPlan host before after addresses).missingSourceAddresses = [])
    (changed : (source ∈ enabledSources after ∧ source ∉ enabledSources before) ∨ (source ∈ enabledSources before ∧ source ∉ enabledSources after)) :
    ∃ text, addressOf addresses source = some text := by
  cases got : addressOf addresses source with
  | some text => exact ⟨text,rfl⟩
  | none =>
    have missing : source ∈ (buildOnChainPlan host before after addresses).missingSourceAddresses := by
      simpa [buildOnChainPlan,got] using changed
    rw [complete] at missing
    cases missing

def trustedIn (feeds : List FeedPolicy) (asset : String) : Bool := ((byAsset feeds).get asset).any FeedPolicy.enabled

theorem trustActions_right (planned : action ∈ trustActions before after) : ∃ asset, action = .setTrustedAsset asset (trustedIn after asset) := by
  simp only [trustActions,mem_append,mem_filterMap,Prod.exists,← get_exact] at planned
  rcases planned with ⟨asset,feed,got,made⟩ | ⟨asset,feed,got,made⟩
  · refine ⟨asset,?_⟩
    split at made <;> rw [ite_none_right_eq_some,some.injEq] at made <;> obtain ⟨_,rfl⟩ := made <;> simp_all [trustedIn]
  · rw [ite_none_right_eq_some,some.injEq] at made
    obtain ⟨⟨gone,_⟩,rfl⟩ := made
    exact ⟨asset,by simp [trustedIn,gone]⟩

theorem trustActions_reach (changed : trustedIn before asset ≠ trustedIn after asset) :
    .setTrustedAsset asset (trustedIn after asset) ∈ trustActions before after := by
  simp only [trustActions,mem_append,mem_filterMap,Prod.exists,← get_exact]
  unfold trustedIn at *
  cases new : (byAsset after).get asset with
  | some feed =>
    refine .inl ⟨asset,feed,new,?_⟩
    cases old : (byAsset before).get asset with
    | none =>
      have enabled : feed.enabled = true := by
        simp only [old,new,Option.any_none,Option.any_some] at changed
        exact (Bool.eq_false_or_eq_true _).resolve_right (Ne.symm changed)
      simp [enabled]
    | some => simpa [old,new] using changed
  | none =>
    cases old : (byAsset before).get asset with
    | none => simp [old,new] at changed
    | some previous =>
      refine .inr ⟨asset,previous,old,?_⟩
      simpa [old,new] using changed

theorem thresholdActions_only (planned : action ∈ thresholdActions before after) :
    ∃ t, enabledThresholds after = [t] ∧ enabledThresholds before ≠ [t] ∧ action = .setDeviationThreshold t := by
  unfold thresholdActions at planned
  split at planned
  · rename_i t single
    split at planned
    · rename_i differs
      exact ⟨t,single,differs,mem_singleton.mp planned⟩
    · cases planned
  · cases planned

theorem thresholdActions_reach (single : enabledThresholds after = [t]) (differs : enabledThresholds before ≠ [t]) :
    .setDeviationThreshold t ∈ thresholdActions before after := by
  simp [thresholdActions,single,differs]

theorem mem_enabledSources : source ∈ enabledSources feeds ↔ ∃ feed ∈ feeds, feed.enabled = true ∧ source ∈ feed.sources := by
  simp [enabledSources,and_assoc]

theorem registered_iff : (∃ feed ∈ feeds, feed.enabled = true ∧ ∃ source ∈ feed.sources, address source = some a) ↔
    ∃ source ∈ enabledSources feeds, address source = some a := by
  simp only [mem_enabledSources]
  constructor
  · rintro ⟨feed,among,enabled,source,uses,got⟩
    exact ⟨source,⟨feed,among,enabled,uses⟩,got⟩
  · rintro ⟨source,⟨feed,among,enabled,uses⟩,got⟩
    exact ⟨feed,among,enabled,source,uses,got⟩

theorem single_threshold : enabledThresholds feeds = [t] ↔
    (∃ feed ∈ feeds, feed.enabled = true) ∧ ∀ feed ∈ feeds, feed.enabled = true → feed.maxDeviationBps = t := by
  rw [enabledThresholds,distinct_single]
  simp only [mem_map,mem_filter]
  constructor
  · intro members
    obtain ⟨feed,⟨among,enabled⟩,_⟩ := (members t).mpr rfl
    exact ⟨⟨feed,among,enabled⟩,fun feed among enabled => (members _).mp ⟨feed,⟨among,enabled⟩,rfl⟩⟩
  · rintro ⟨⟨feed,among,enabled⟩,same⟩ x
    constructor
    · rintro ⟨other,⟨mem,on⟩,rfl⟩
      exact same other mem on
    · rintro rfl
      exact ⟨feed,⟨among,enabled⟩,same feed among enabled⟩

theorem InStep.trustedIn (held : InStep listed address before chain) (known : listed asset) :
    isTrustedAsset chain (onChainText asset) = trustedIn before asset := by
  unfold CatalogChain.trustedIn
  cases got : (byAsset before).get asset with
  | some =>
    obtain ⟨_,among,rfl,rfl⟩ := collect_mem got
    exact held.trusted _ among
  | none =>
    apply held.untrusted asset known
    intro among
    obtain ⟨feed,mem,same⟩ := mem_map.mp among
    exact collect_none.mp got feed mem same

section
variable (held : InStep listed address before chain) (done : applyPlan context chain (buildOnChainPlan host before after addresses).actions = .ok chain')
include held done

theorem plan_trust (known : listed asset) : isTrustedAsset chain' (onChainText asset) = CatalogChain.trustedIn after asset := by
  refine inTurn_settles (isTrustedAsset · (onChainText asset)) (trustOf asset) (fun _ _ _ done => execute_trust done) ?_ ?_ done
  · intro _ planned _ written
    rcases mem_plan.mp planned with trust | ⟨_,_,_,_,_,rfl⟩ | ⟨_,_,_,_,_,rfl⟩ | bound
    · obtain ⟨_,rfl⟩ := trustActions_right trust
      simp only [trustOf,ite_none_right_eq_some,some.injEq] at written
      obtain ⟨rfl,rfl⟩ := written
      rfl
    · cases written
    · cases written
    · obtain ⟨_,_,_,rfl⟩ := thresholdActions_only bound
      cases written
  · by_cases same : CatalogChain.trustedIn before asset = CatalogChain.trustedIn after asset
    · exact .inl ((held.trustedIn known).trans same)
    · exact .inr ⟨_,mem_plan.mpr (.inl (trustActions_reach same)),by simp⟩

theorem plan_threshold (single : enabledThresholds after = [t]) : ∃ thresholdBps, toU32 t = some thresholdBps ∧ getDeviationThreshold chain' = some thresholdBps := by
  have settled : getDeviationThreshold chain' = toU32 t := by
    refine inTurn_settles getDeviationThreshold thresholdOf (fun _ _ _ => execute_threshold) ?_ ?_ done
    · intro _ planned _ written
      rcases mem_plan.mp planned with trust | ⟨_,_,_,_,_,rfl⟩ | ⟨_,_,_,_,_,rfl⟩ | bounds
      · obtain ⟨_,rfl⟩ := trustActions_right trust
        cases written
      · cases written
      · cases written
      · obtain ⟨_,also,_,rfl⟩ := thresholdActions_only bounds
        cases singleton_inj.mp (single.symm.trans also)
        exact (some.inj written).symm
    · by_cases same : enabledThresholds before = [t]
      · obtain ⟨some_there,shared⟩ := single_threshold.mp same
        obtain ⟨bps,whole,set⟩ := held.threshold t some_there shared
        exact .inl (set.trans whole.symm)
      · exact .inr ⟨_,mem_plan.mpr (.inr (.inr (.inr (thresholdActions_reach single same)))),by simp⟩
  have whole : ∃ thresholdBps, toU32 t = some thresholdBps := by
    by_cases same : enabledThresholds before = [t]
    · obtain ⟨some_there,shared⟩ := single_threshold.mp same
      obtain ⟨bps,whole,_⟩ := held.threshold t some_there shared
      exact ⟨bps,whole⟩
    · obtain ⟨_,_,executed⟩ := inTurn_each done (mem_plan.mpr (.inr (.inr (.inr (thresholdActions_reach single same)))))
      obtain ⟨_,translated,_⟩ := execute_parts executed
      obtain ⟨bps,whole,_⟩ := translated_map translated
      exact ⟨bps,whole⟩
  obtain ⟨bps,whole⟩ := whole
  exact ⟨bps,whole,settled.trans whole⟩

section
variable (injective : ∀ x y a, address x = some a → address y = some a → x = y) (agrees : Agrees address addresses)
  (complete : (buildOnChainPlan host before after addresses).missingSourceAddresses = [])
include injective agrees complete

theorem plan_registered (a : Address) :
    isAuthorizedSource chain' a = true ↔ ∃ source ∈ enabledSources after, address source = some a := by
  have reads {source text : String} {a : Address} (got : addressOf addresses source = some text) (parsed : parseAddress text = some a) :
      address source = some a := agrees source text a (addressOf_get got) parsed
  have settled : isAuthorizedSource chain' a = (enabledSources after).any (fun source => decide (address source = some a)) := by
    refine inTurn_settles (isAuthorizedSource · a) (registrationOf a) (fun _ _ _ done => execute_registration done) ?_ ?_ done
    · intro action planned registered written
      rcases mem_plan.mp planned with trust | ⟨source,new,_,text,got,rfl⟩ | ⟨source,_,gone,text,got,rfl⟩ | bounds
      · obtain ⟨_,rfl⟩ := trustActions_right trust
        cases written
      · simp only [registrationOf,ite_none_right_eq_some,some.injEq] at written
        obtain ⟨parsed,rfl⟩ := written
        exact (any_eq_true.mpr ⟨source,new,decide_eq_true (reads got parsed)⟩).symm
      · simp only [registrationOf,ite_none_right_eq_some,some.injEq] at written
        obtain ⟨parsed,rfl⟩ := written
        refine (any_eq_false.mpr ?_).symm
        intro other new same
        cases injective source other a (reads got parsed) (of_decide_eq_true same)
        exact gone new
      · obtain ⟨_,_,_,rfl⟩ := thresholdActions_only bounds
        cases written
    · -- an address that changes is that of a source which comes or goes
      have planned {source : String} (known : address source = some a)
          (changed : (source ∈ enabledSources after ∧ source ∉ enabledSources before) ∨ (source ∈ enabledSources before ∧ source ∉ enabledSources after)) :
          ∃ action ∈ (buildOnChainPlan host before after addresses).actions, registrationOf a action ≠ none := by
        obtain ⟨text,got⟩ := plan_addressed complete changed
        have mem : ∃ action ∈ (buildOnChainPlan host before after addresses).actions, (action = .addSource text source ∨ action = .removeSource text) := by
          rcases changed with ⟨new,fresh⟩ | ⟨old,gone⟩
          · exact ⟨_,mem_plan.mpr (.inr (.inl ⟨source,new,fresh,text,got,rfl⟩)),.inl rfl⟩
          · exact ⟨_,mem_plan.mpr (.inr (.inr (.inl ⟨source,old,gone,text,got,rfl⟩))),.inr rfl⟩
        obtain ⟨action,among,shape⟩ := mem
        refine ⟨action,among,?_⟩
        obtain ⟨_,_,executed⟩ := inTurn_each done among
        obtain ⟨_,translated,_⟩ := execute_parts executed
        have parsed : parseAddress text = some a := by
          obtain ⟨b,parsed⟩ : ∃ b, parseAddress text = some b := by
            rcases shape with rfl | rfl
            all_goals
              obtain ⟨b,parsed,_⟩ := translated_map translated
              exact ⟨b,parsed⟩
          exact parsed.trans ((reads got parsed).symm.trans known)
        rcases shape with rfl | rfl <;> simp [parsed]
      have before_iff := (held.registered a).trans registered_iff
      by_cases now : ∃ source ∈ enabledSources after, address source = some a
      · obtain ⟨source,new,known⟩ := now
        by_cases old : source ∈ enabledSources before
        · refine .inl ((before_iff.mpr ⟨source,old,known⟩).trans (any_eq_true.mpr ⟨source,new,decide_eq_true known⟩).symm)
        · exact .inr (planned known (.inl ⟨new,old⟩))
      · have none_after : (enabledSources after).any (fun source => decide (address source = some a)) = false := by
          refine any_eq_false.mpr ?_
          intro source new same
          exact now ⟨source,new,of_decide_eq_true same⟩
        cases registered : isAuthorizedSource chain a with
        | false => exact .inl none_after.symm
        | true =>
          obtain ⟨source,old,known⟩ := before_iff.mp registered
          exact .inr (planned known (.inr ⟨old,fun new => now ⟨source,new,known⟩⟩))
  rw [settled,any_eq_true]
  simp [decide_eq_true_eq]

theorem plan_in_step (distinct : (after.map FeedPolicy.asset).Nodup)
    (known : ∀ feed ∈ after, listed feed.asset) : InStep listed address after chain' where
  trusted := by
    intro feed mem
    have got : (byAsset after).get feed.asset = some feed := (collect_exact distinct).mpr ⟨mem,rfl⟩
    rw [plan_trust held done (known feed mem),CatalogChain.trustedIn,got]
    rfl
  untrusted := by
    intro asset listed absent
    have none : (byAsset after).get asset = none :=
      collect_none.mpr (fun feed mem same => absent (mem_map.mpr ⟨feed,mem,same⟩))
    rw [plan_trust held done listed,CatalogChain.trustedIn,none]
    rfl
  registered := fun a => (plan_registered held done injective agrees complete a).trans registered_iff.symm
  threshold := fun t some_there shared => plan_threshold held done (single_threshold.mpr ⟨some_there,shared⟩)

end

end

end

section
variable {host : FeedCatalog.Host} {address : String → Option Address} {listed : String → Prop} {input : Input} {w w' : World}

theorem step_parts (taken : step host w input = .ok w') : w'.catalog = next host w.catalog input.request ∧
    applyPlan input.context w.chain (activatedPlan w.catalog w'.catalog) = .ok w'.chain := by
  obtain ⟨_,ran,⟨⟩⟩ := bind_ok.mp taken
  exact ⟨rfl,ran⟩

theorem step_in_step (injective : ∀ x y a, address x = some a → address y = some a → x = y) (taken : step host w input = .ok w')
    (catalogued : Catalogued host w.catalog) (proposed : ∀ id p, w.catalog.proposals.get id = some p → ∃ policy ∈ w.catalog.versions, Authored host policy p)
    (agree : ∀ id p, w.catalog.proposals.get id = some p → Agrees address p.sourceAddresses)
    (known : ∀ policy ∈ w'.catalog.versions, ∀ feed ∈ policy.feeds, listed feed.asset) (held : InStep listed address w.catalog.latest.feeds w.chain) :
    InStep listed address w'.catalog.latest.feeds w'.chain := by
  obtain ⟨called,ran⟩ := step_parts taken
  have effect : Effect host input.request.now w.catalog w'.catalog := called ▸ next_effect
  rcases effect.activation catalogued proposed with same | ⟨id,policy,p,added,named,_,activation,q,got,_,change,authored⟩
  · rw [activatedPlan,if_pos (by rw [same])] at ran
    have unchanged : w.chain = w'.chain := Except.ok.inj ran
    have latest : w'.catalog.latest = w.catalog.latest := by simp only [Governance.latest,same]
    rwa [latest,← unchanged]
  · have latest : w'.catalog.latest = policy := by simp only [Governance.latest,added,getLast_concat]
    have planned : activatedPlan w.catalog w'.catalog = q.onChainPlan.actions := by
      rw [activatedPlan,if_neg (by simp [added]),latest,named]
      simp [got]
    have feeds : policy.feeds = projectFeeds host w.catalog.latest.feeds q.change := by rw [activation.feeds,change]
    have complete := authored.addressed
    rw [planned,authored.plan,← feeds] at ran
    rw [authored.plan,← feeds] at complete
    rw [latest]
    apply plan_in_step held ran injective (agree id q got) complete
    · rw [feeds]
      exact projectFeeds_distinct
    · exact known policy (by simp [added])

theorem catalog_run (path : Run (step host) w ts w') : Run (total (next host)) w.catalog
    (ts.map (fun t => ⟨t.before.catalog,t.input.request,t.after.catalog⟩)) w'.catalog := by
  apply path.viewed World.catalog Input.request
  intro s i _ taken
  rw [total,(step_parts taken).1]

def Listed (s : Governance) (asset : String) : Prop := ∃ policy ∈ s.versions, ∃ feed ∈ policy.feeds, feed.asset = asset

theorem versions_kept (path : Run (step host) w ts w') (visited : r ∈ states w ts) : r.catalog.versions <+: w'.catalog.versions := by
  refine path.carries_on (R := fun a b => a.catalog.versions <+: b.catalog.versions) (fun _ => prefix_refl _) ?_ ?_ visited
  · intro a b c first second
    exact first.trans second
  · intro t mem
    rw [(step_parts (path.accepted mem)).1]
    exact next_effect.appends

-- A chain that matches the first policy matches every policy that comes to be.
theorem chain_in_step {catalog : Governance} {chain : Storage} (created : create host genesis = .ok catalog)
    (injective : ∀ x y a, address x = some a → address y = some a → x = y) (path : Run (step host) ⟨catalog,chain⟩ ts w)
    (agree : ∀ r ∈ states ⟨catalog,chain⟩ ts, ∀ id p, r.catalog.proposals.get id = some p → Agrees address p.sourceAddresses)
    (matched : InStep (Listed w.catalog) address catalog.latest.feeds chain) :
    ∀ r ∈ states ⟨catalog,chain⟩ ts, InStep (Listed w.catalog) address r.catalog.latest.feeds r.chain := by
  refine path.always (P := fun r => InStep (Listed w.catalog) address r.catalog.latest.feeds r.chain) (fun t => id) matched ?_
  intro t present taken held
  obtain ⟨_,_,_,reached,_⟩ := path.member present
  have prior := catalog_run reached
  refine step_in_step injective taken (CatalogGovernance.runs_catalogued created prior) (CatalogGovernance.runs_authored created prior)
    (agree _ (path.before_visited present)) ?_ held
  intro policy among feed listed
  exact ⟨policy,(versions_kept path (Runs.after_visited present)).subset among,feed,listed,rfl⟩

end

namespace Sample
open CatalogGovernance.Sample (start feeds approves instant)

def actionText : OnChainAction → String
  | .setTrustedAsset _ _ => "SetTrustedAsset"
  | .addSource _ _ => "AddSource"
  | .removeSource _ => "RemoveSource"
  | .setDeviationThreshold _ => "SetDeviationThreshold"

def host : FeedCatalog.Host := ⟨JsText.plain,fun _ => "",actionText,fun _ _ => ""⟩

def addresses : InsertionMap String String := .collect Prod.fst (fun entry => String.ofList (replicate 56 entry.2))
  [("band",'B'),("chainlink",'C'),("redstone",'D'),("reflector",'R')]

def address (source : String) : Option Address := (addresses.get source).bind parseAddress

def context : Context := fun _ => (⟨5000,fun _ => true,.repeated 0x43,fun _ _ => 0,fun _ _ _ _ => true⟩,.repeated 0x41)

theorem two_days : -8640000000000000 ≤ (172800000 : Int) ∧ (172800000 : Int) ≤ 8640000000000000 := by decide

def chain : Storage := (applyPlan context .empty (buildOnChainPlan host [] feeds addresses).actions).toOption.getD .empty

def inputs : List Input := [
  ⟨epoch,.createProposal "alice" "remove USDC" ⟨1,.standard,[],["USDC"]⟩ addresses⟩,
  ⟨epoch,.attachImpact 1 ⟨.low,false⟩⟩,
  approves epoch "bob",approves epoch "carol",approves epoch "dave",
  ⟨instant 172800000 two_days,.activate (fun _ => false) 1 "erin" [⟨0,7⟩,⟨1,8⟩,⟨2,9⟩]⟩].map (fun request => ⟨request,context⟩)

theorem start_created : create host genesisFeeds = .ok start := genesis_created (by decide +kernel)

theorem address_inj (x y : String) (a : Address) (first : address x = some a) (second : address y = some a) : x = y := by
  have apart : ∀ e ∈ addresses.entries, ∀ f ∈ addresses.entries, parseAddress e.2 = parseAddress f.2 → e.1 = f.1 := by decide +kernel
  obtain ⟨_,got,parsed⟩ := bind_eq_some_iff.mp first
  obtain ⟨_,also,same⟩ := bind_eq_some_iff.mp second
  exact apart _ (get_exact.mp got) _ (get_exact.mp also) (parsed.trans same.symm)

theorem addresses_agree (same : known.entries = addresses.entries) : Agrees address known := by
  intro _ text a got parsed
  rw [InsertionMap.get,same] at got
  exact bind_eq_some_iff.mpr ⟨text,got,parsed⟩

theorem chain_set_up : applyPlan context .empty (buildOnChainPlan host [] feeds addresses).actions = .ok chain := by
  have done : (applyPlan context .empty (buildOnChainPlan host [] feeds addresses).actions).toBool = true := by decide +kernel
  obtain ⟨_,ran⟩ := ok_of_toBool done
  rw [chain,ran]
  rfl

theorem empty_in_step (listed : String → Prop) : InStep listed address [] .empty where
  trusted := by simp
  untrusted := by simp [isTrustedAsset]
  registered := by simp [isAuthorizedSource]
  threshold := by simp

theorem chain_matched (known : ∀ feed ∈ feeds, listed feed.asset) : InStep listed address feeds chain :=
  plan_in_step (empty_in_step listed) chain_set_up address_inj (addresses_agree rfl) (by decide +kernel) (by decide +kernel) known
end Sample

open Sample

-- A removed feed takes its asset and the source only it used, and leaves the other's bound.
theorem removed_feed_in_step : ∃ ts w, create host genesisFeeds = .ok CatalogGovernance.Sample.start ∧
    Run (step host) ⟨CatalogGovernance.Sample.start,chain⟩ ts w ∧
    InStep (Listed w.catalog) address CatalogGovernance.Sample.feeds chain ∧ w.catalog.versions.map CatalogPolicy.version = [1,2] ∧
    (∀ r ∈ states ⟨CatalogGovernance.Sample.start,chain⟩ ts, InStep (Listed w.catalog) address r.catalog.latest.feeds r.chain) ∧
    (isTrustedAsset w.chain (onChainText "USDC"),(address "reflector").map (isAuthorizedSource w.chain),getDeviationThreshold w.chain) =
      (false,some false,some 150) := by
  have observed : (Runs.replay (step host) ⟨CatalogGovernance.Sample.start,chain⟩ inputs).map (fun result =>
      (result.2.catalog.versions.map CatalogPolicy.version,
        (isTrustedAsset result.2.chain (onChainText "USDC"),(address "reflector").map (isAuthorizedSource result.2.chain),
          getDeviationThreshold result.2.chain),
        result.1.all (fun t => t.after.catalog.proposals.values.all (fun p => decide (p.sourceAddresses.entries = addresses.entries))))) =
      .ok ([1,2],(false,some false,some 150),true) := ok_of_toOption (by decide +kernel)
  obtain ⟨ts,w,path,versions,parts,same⟩ := Runs.replay_triple observed
  have agree : ∀ r ∈ states ⟨CatalogGovernance.Sample.start,chain⟩ ts, ∀ id p, r.catalog.proposals.get id = some p →
      Agrees address p.sourceAddresses := by
    intro r visited id p found
    rcases mem_cons.mp visited with rfl | later
    · cases found
    · obtain ⟨t,present,rfl⟩ := mem_map.mp later
      have each := all_eq_true.mp (all_eq_true.mp same t present) p (mem_values.mpr ⟨id,found⟩)
      exact addresses_agree (of_decide_eq_true each)
  have matched : InStep (Listed w.catalog) address CatalogGovernance.Sample.feeds chain := by
    apply chain_matched
    intro feed present
    exact ⟨_,(versions_kept path mem_cons_self).subset CatalogGovernance.latest_mem,feed,present,rfl⟩
  exact ⟨ts,w,start_created,path,matched,versions,chain_in_step start_created address_inj path agree matched,parts⟩

end StellarPriceOracle.CatalogChain
