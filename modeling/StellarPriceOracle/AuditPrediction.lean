import StellarPriceOracle.ExecutionAudit
import StellarPriceOracle.CatalogChain

namespace StellarPriceOracle.AuditPrediction
open ExecutionAudit Guarded JsArray Storage
open CatalogChain (onChainText onChainText_inj parseAddress toU32)
open MultiSigActions (applyProposalAction applyProposalAction_get Touches applySignerAction applyToConfig)
open List (foldl_cons foldl_nil mem_append mem_cons mem_singleton)
open InsertionMap
open JsNumber (same)
open Option (getD_some ne_none_iff_exists' some)
open Except (ok)
open Audit (effect judge)
open GovernanceState
open AuditableProposal (orderedAt)

-- The contract's action behind an audited one.
def onChain : ExecutionAudit.ProposalAction → Option StellarPriceOracle.ProposalAction
  | .addSigner signer => (parseAddress signer).map .addSigner
  | .removeSigner signer => (parseAddress signer).map .removeSigner
  | .setThreshold threshold => (toU32 threshold).map .setThreshold
  | .setAdmin newAdmin => (parseAddress newAdmin).map .setAdmin
  | .transferAdmin newAdmin => (parseAddress newAdmin).map .transferAdmin
  | .addSource source name => (parseAddress source).map (.addSource · (onChainText name))
  | .removeSource source => (parseAddress source).map .removeSource
  | .setTrustedAsset asset trusted => some (.setTrustedAsset (onChainText asset) (!same trusted 0))
  | .setDeviationThreshold thresholdBps => (toU32 thresholdBps).map .setDeviationThreshold
  | _ => none

abbrev Context := AuditableProposal → Env × Address

def execute (context : Context) (chain : Storage) (proposal : AuditableProposal) : Outcome Storage := do
  let action ← someOr (onChain proposal.action) .trap
  applyProposalAction (context proposal).1 chain (context proposal).2 action

def Names (value : Option StateValue) : Option Address → Prop
  | none => value = none
  | some a => ∃ text, value = some (.text text) ∧ parseAddress text = some a

def listed (a : Address) (texts : List String) : Nat := texts.countP (fun text => parseAddress text = some a)

def signerTexts (state : GovernanceState) : List String := listOf (state.onchain.get "multisig.signers")

def signers (chain : Storage) : List Address := ((getMultisigConfig chain).map MultiSigConfig.signers).getD []

def Signers (state : GovernanceState) (chain : Storage) : Prop := ∀ a, listed a (signerTexts state) = (signers chain).count a

structure Multisig (state : GovernanceState) (chain : Storage) : Prop where
  written : ∃ texts, state.onchain.get "multisig.signers" = some (.list texts) ∧ ∀ text ∈ texts, parseAddress text ≠ none
  threshold : ∃ config, getMultisigConfig chain = some config ∧ state.onchain.get "multisig.threshold" = some (.number (.finite config.threshold))

section
variable (state : GovernanceState)

def Sources (chain : Storage) : Prop :=
  ∃ texts, state.onchain.get "oracle.sources" = some (.list texts) ∧ texts.Nodup ∧ (∀ text ∈ texts, parseAddress text ≠ none) ∧
    ∀ a, isAuthorizedSource chain a = true ↔ ∃ text ∈ texts, parseAddress text = some a

def Trusted (chain : Storage) : Prop :=
  ∃ texts, state.onchain.get "assets.trusted" = some (.list texts) ∧ texts.Nodup ∧
    ∀ asset, isTrustedAsset chain asset = true ↔ ∃ text ∈ texts, onChainText text = asset

def Deviation (chain : Storage) : Prop :=
  match getDeviationThreshold chain,state.onchain.get "oracle.deviationThresholdBps" with
  | some bps,value => value = some (.number (.finite bps))
  | none,value => value = none ∨ value = some .null

end

-- The keys on which every action does the same on both sides.
structure Shared (state : GovernanceState) (chain : Storage) : Prop where
  multisig : Multisig state chain
  sources : Sources state chain
  trusted : Trusted state chain
  deviation : Deviation state chain

structure Reflects (state : GovernanceState) (chain : Storage) : Prop where
  admin : Names (state.onchain.get "admin.address") (chain.get .admin)
  signers : Signers state chain
  shared : Shared state chain

def predict (state : GovernanceState) (action : ExecutionAudit.ProposalAction) : GovernanceState :=
  ((effectsFor action).getD []).foldl applyEffect state

section
variable {state : GovernanceState}
  {texts : List String}

theorem text_named (first : parseAddress text = some a) (second : parseAddress other = some a) : text = other := by
  simp only [parseAddress,Option.dite_none_right_eq_some,some.injEq] at first second
  obtain ⟨_,first⟩ := first
  obtain ⟨_,second⟩ := second
  have same := first.trans second.symm
  simp only [Address.mk.injEq] at same
  exact onChainText_inj same

theorem listed_pos (parsed : parseAddress text = some a) : 0 < listed a texts ↔ text ∈ texts := by
  rw [listed,List.countP_pos_iff]
  constructor
  · rintro ⟨_,mem,named⟩
    rw [text_named parsed (by simpa using named)]
    exact mem
  · intro mem
    exact ⟨text,mem,by simpa using parsed⟩

theorem listed_zero (parsed : parseAddress text = some a) (absent : text ∉ texts) : listed a texts = 0 :=
  Nat.eq_zero_of_not_pos (mt (listed_pos parsed).mp absent)

theorem listed_add (parsed : parseAddress text = some b) :
    listed a (if text ∈ texts then texts else texts ++ [text]) = if a = b then max (listed a texts) 1 else listed a texts := by
  by_cases mem : text ∈ texts
  · rw [if_pos mem]
    split
    · rename_i same
      exact (Nat.max_eq_left ((listed_pos (same ▸ parsed)).mpr mem)).symm
    · rfl
  · rw [if_neg mem,listed,List.countP_append,List.countP_singleton,parsed,← listed]
    by_cases same : a = b
    · simp [same,listed_zero parsed mem]
    · simp [same,Ne.symm same]

theorem listed_erase (parsed : parseAddress text = some b) :
    listed a (texts.erase text) = if a = b then listed a texts - 1 else listed a texts := by
  by_cases mem : text ∈ texts
  · have counted : listed a texts = listed a (text :: texts.erase text) := (List.perm_cons_erase mem).countP_eq _
    rw [counted,listed,listed,List.countP_cons,parsed]
    by_cases same : a = b
    · simp [same]
    · simp [same,Ne.symm same]
  · rw [List.erase_of_not_mem mem]
    by_cases same : a = b
    · simp [same,listed_zero parsed mem]
    · simp [same]

-- Adding and erasing a text, seen through what the texts denote.
theorem texts_add (reads : String → Option β) (text : String) (parsed : reads text = some x) (nodup : texts.Nodup) :
    (if text ∈ texts then texts else texts ++ [text]).Nodup ∧
      ∀ y, (∃ held ∈ if text ∈ texts then texts else texts ++ [text], reads held = some y) ↔ y = x ∨ ∃ held ∈ texts, reads held = some y := by
  by_cases mem : text ∈ texts
  · rw [if_pos mem]
    refine ⟨nodup,fun y => ⟨.inr,?_⟩⟩
    rintro (rfl | old)
    · exact ⟨text,mem,parsed⟩
    · exact old
  · rw [if_neg mem]
    refine ⟨List.nodup_append.mpr ⟨nodup,List.nodup_singleton _,?_⟩,fun y => ?_⟩
    · intro _ old _ new same
      exact mem (mem_singleton.mp new ▸ same ▸ old)
    · simp only [mem_append,mem_singleton,or_and_right,exists_or,exists_eq_left,parsed,some.injEq]
      rw [or_comm,eq_comm]

theorem parsed_add (parsed : parseAddress text = some a) (named : ∀ held ∈ texts, parseAddress held ≠ none) :
    ∀ held ∈ if text ∈ texts then texts else texts ++ [text], parseAddress held ≠ none := by
  intro held mem
  split at mem
  · exact named held mem
  · rcases Runs.mem_snoc.mp mem with old | new
    · exact named held old
    · rw [new,parsed]
      exact Option.some_ne_none a

theorem texts_erase (reads : String → Option β) (text : String) (parsed : reads text = some x)
    (inj : ∀ held y, reads held = some y → reads text = some y → held = text) (nodup : texts.Nodup) :
    (texts.erase text).Nodup ∧ ∀ y, (∃ held ∈ texts.erase text, reads held = some y) ↔ y ≠ x ∧ ∃ held ∈ texts, reads held = some y := by
  refine ⟨nodup.erase text,fun y => ?_⟩
  simp only [nodup.mem_erase_iff]
  constructor
  · rintro ⟨held,⟨apart,old⟩,read⟩
    refine ⟨?_,held,old,read⟩
    rintro rfl
    exact apart (inj held _ read parsed)
  · rintro ⟨apart,held,old,read⟩
    refine ⟨held,⟨?_,old⟩,read⟩
    rintro rfl
    exact apart (some.inj (read.symm.trans parsed))

end

-- The effect of signer actions on the count of one address: true stands for an addition.
@[simp] def auditOp (n : Nat) (adds : Bool) : Nat := if adds then max n 1 else n - 1
@[simp] def chainOp (n : Nat) (adds : Bool) : Nat := if adds then (if n = 0 then 2 else n + 1) else 0

def trailing (ops : List Bool) : Nat := (ops.reverse.takeWhile id).length

-- The contract appends once in each half of its arm, so a last addition parts the counts.
def Kept (n : Nat) (ops : List Bool) : Prop :=
  (trailing ops = 0 ∧ (ops.count false = 0 ∨ n ≤ ops.count false)) ∨
    (0 < trailing ops ∧ 0 < ops.count false ∧ n = ops.count false + trailing ops + 1)

theorem trailing_snoc : trailing (ops ++ [adds]) = if adds then trailing ops + 1 else 0 := by
  cases adds <;> simp [trailing]

theorem audit_count : ops.foldl auditOp n = if trailing ops = 0 then n - ops.count false else max (n - ops.count false) 1 := by
  induction ops using List.reverseRecOn with
  | nil => simp [trailing]
  | append_singleton _ adds ih =>
    rw [List.foldl_append,foldl_cons,foldl_nil,ih,trailing_snoc,List.count_append]
    cases adds
    · simp only [auditOp,Bool.false_eq_true,if_false,List.count_cons_self,List.count_nil,if_true]
      split <;> omega
    · simp
      split <;> omega

theorem chain_count : ops.foldl chainOp n = if ops.count false = 0 then (if trailing ops = 0 then n else if n = 0 then trailing ops + 1 else n + trailing ops)
    else if trailing ops = 0 then 0 else trailing ops + 1 := by
  induction ops using List.reverseRecOn with
  | nil => simp [trailing]
  | append_singleton ops adds ih =>
    rw [List.foldl_append,foldl_cons,foldl_nil,ih,trailing_snoc,List.count_append]
    cases adds
    · simp
    · by_cases kept : ops.count false = 0
      · by_cases last : trailing ops = 0 <;> by_cases fresh : n = 0 <;> simp [kept,last,fresh]
        omega
      · by_cases last : trailing ops = 0 <;> simp [kept,last]

theorem counts_kept : ops.foldl auditOp n = ops.foldl chainOp n ↔ Kept n ops := by
  rw [audit_count,chain_count,Kept]
  by_cases kept : ops.count false = 0
  · by_cases last : trailing ops = 0
    · simp [kept,last]
    · rw [if_neg last,if_pos kept,if_neg last]
      split <;> omega
  · rw [if_neg kept]
    split <;> omega

@[simp] def signerOp (a : Address) : ExecutionAudit.ProposalAction → Option Bool
  | .addSigner signer => if parseAddress signer = some a then some true else none
  | .removeSigner signer => if parseAddress signer = some a then some false else none
  | _ => none

def signerOps (a : Address) (proposals : List AuditableProposal) : List Bool := proposals.filterMap (fun p => signerOp a p.action)

def adminOf : ExecutionAudit.ProposalAction → Option String
  | .setAdmin newAdmin | .transferAdmin newAdmin => some newAdmin
  | _ => none

inductive Translates : ExecutionAudit.ProposalAction → StellarPriceOracle.ProposalAction → Prop where
  | addSigner (parsed : parseAddress signer = some a) : Translates (.addSigner signer) (.addSigner a)
  | removeSigner (parsed : parseAddress signer = some a) : Translates (.removeSigner signer) (.removeSigner a)
  | setThreshold (whole : toU32 threshold = some n) : Translates (.setThreshold threshold) (.setThreshold n)
  | setAdmin (parsed : parseAddress newAdmin = some a) : Translates (.setAdmin newAdmin) (.setAdmin a)
  | transferAdmin (parsed : parseAddress newAdmin = some a) : Translates (.transferAdmin newAdmin) (.transferAdmin a)
  | addSource (parsed : parseAddress source = some a) : Translates (.addSource source name) (.addSource a (onChainText name))
  | removeSource (parsed : parseAddress source = some a) : Translates (.removeSource source) (.removeSource a)
  | setTrustedAsset : Translates (.setTrustedAsset asset trusted) (.setTrustedAsset (onChainText asset) (!same trusted 0))
  | setDeviationThreshold (whole : toU32 thresholdBps = some n) : Translates (.setDeviationThreshold thresholdBps) (.setDeviationThreshold n)

theorem onChain_translates (translated : onChain action = some act) : Translates action act := by
  cases action with
  | setTrustedAsset =>
    cases translated
    exact .setTrustedAsset
  | resetReputation source | addOracleSource source name | removeOracleSource source | updateGovernanceConfig config | other variant => cases translated
  | _ =>
    obtain ⟨_,got,rfl⟩ := Option.map_eq_some_iff.mp translated
    constructor
    exact got

theorem execute_parts (done : execute context chain proposal = .ok next) :
    ∃ act, Translates proposal.action act ∧ applyProposalAction (context proposal).1 chain (context proposal).2 act = .ok next := by
  obtain ⟨act,translated,ran⟩ := lookup_ok.mp done
  exact ⟨act,onChain_translates translated,ran⟩

def auditedKeys : List String :=
  ["admin.address","multisig.signers","multisig.threshold","oracle.sources","assets.trusted","oracle.deviationThresholdBps"]

theorem translated_effect (translated : Translates action act) : ∃ key ∈ auditedKeys, ∃ op, effectsFor action = some [⟨.onchain,key,op⟩] := by
  cases translated <;> exact ⟨_,by decide,_,rfl⟩

-- A translated action has one effect, on one key.
theorem predict_get (written : effectsFor action = some [⟨.onchain,key,op⟩]) (other : String) :
    (predict state action).onchain.get other = if other = key then some (op.apply (state.onchain.get key)) else state.onchain.get other := by
  simp only [predict,written,getD_some,foldl_cons,foldl_nil,applyEffect,write,bucket]
  split
  · rename_i same
    rw [same,get_set]
  · rename_i apart
    exact get_set_ne apart

section
variable (translated : Translates action act)
include translated

theorem predict_admin :
    (predict state action).onchain.get "admin.address" = ((adminOf action).map .text).or (state.onchain.get "admin.address") := by
  cases translated <;> (rw [predict_get rfl]; rfl)

theorem predict_listed : listed a (signerTexts (predict state action)) =
    ((signerOp a action).map (auditOp (listed a (signerTexts state)))).getD (listed a (signerTexts state)) := by
  cases translated with
  | @addSigner signer b parsed =>
    have texts : signerTexts (predict state (.addSigner signer)) = if signer ∈ signerTexts state then signerTexts state else signerTexts state ++ [signer] := by
      rw [signerTexts,predict_get rfl]
      rfl
    rw [texts,listed_add parsed]
    by_cases same : a = b
    · simp [parsed,same]
    · simp [parsed,same,Ne.symm same]
  | @removeSigner signer b parsed =>
    have texts : signerTexts (predict state (.removeSigner signer)) = (signerTexts state).erase signer := by
      rw [signerTexts,predict_get rfl]
      rfl
    rw [texts,listed_erase parsed]
    by_cases same : a = b
    · simp [parsed,same]
    · simp [parsed,same,Ne.symm same]
  | _ =>
    rw [signerTexts,predict_get rfl]
    rfl

theorem applied_admin (ran : applyProposalAction env chain signer act = .ok next) : next.get .admin = chain.get .admin := by
  refine applyProposalAction_get ran ?_
  cases translated <;> simp [Touches]

end

def thresholdOf : ExecutionAudit.ProposalAction → Option Nat
  | .setThreshold threshold => toU32 threshold
  | _ => none

theorem toU32_exact (whole : toU32 x = some n) : x = .finite n := by
  cases x with
  | finite q =>
    simp only [toU32,Option.ite_none_right_eq_some,some.injEq] at whole
    obtain ⟨⟨integral,nonneg,_⟩,rfl⟩ := whole
    have value : (q.num : ℚ) = q := (Rat.den_eq_one_iff q).mp integral
    have natural : ((q.num.toNat : ℕ) : ℚ) = (q.num : ℚ) := by exact_mod_cast Int.toNat_of_nonneg nonneg
    rw [natural,value]
  | nan | infinite negative => cases whole

section
variable (translated : Translates action act) (ran : applyProposalAction env chain signer act = .ok next)
include translated ran

theorem applied_config (conf : getMultisigConfig chain = some config) :
    ∃ config', getMultisigConfig next = some config' ∧ config'.threshold = (thresholdOf action).getD config.threshold ∧
      ∀ a, config'.signers.count a = ((signerOp a action).map (chainOp (config.signers.count a))).getD (config.signers.count a) := by
  cases translated with
  | @addSigner signer b parsed =>
    simp only [applyProposalAction,applyToConfig,conf,applySignerAction,bind_ok,require_ok,ok.injEq] at ran
    obtain ⟨_,⟨_,_,rfl⟩,rfl⟩ := ran
    refine ⟨_,KeyedStore.get_set,by split <;> rfl,fun a => ?_⟩
    rcases eq_or_ne a b with rfl | same
    · by_cases held : a ∈ config.signers
      · have pos : config.signers.count a ≠ 0 := Nat.ne_of_gt (List.count_pos_iff.mpr held)
        simp [parsed,held,pos]
      · simp [parsed,held,List.count_eq_zero_of_not_mem held]
    · by_cases held : b ∈ config.signers <;> simp [parsed,held,Ne.symm same]
  | @removeSigner signer b parsed =>
    simp only [applyProposalAction,applyToConfig,conf,applySignerAction,bind_ok,ok.injEq] at ran
    obtain ⟨_,rfl,rfl⟩ := ran
    refine ⟨_,KeyedStore.get_set,rfl,fun a => ?_⟩
    rcases eq_or_ne a b with rfl | same
    · have gone : a ∉ config.signers.filter (· ≠ a) := by simp
      simpa [parsed] using List.count_eq_zero_of_not_mem gone
    · have kept := List.count_filter (p := (· ≠ b)) (a := a) (l := config.signers) (by simpa using same)
      simpa [parsed,Ne.symm same] using kept
  | setThreshold whole =>
    simp only [applyProposalAction,applyToConfig,conf,applySignerAction,bind_ok,ok.injEq] at ran
    obtain ⟨_,rfl,rfl⟩ := ran
    exact ⟨_,KeyedStore.get_set,by simp [thresholdOf,whole],fun _ => rfl⟩
  | _ =>
    have kept : next.get .multiSigConfig = chain.get .multiSigConfig := applyProposalAction_get ran (by simp [Touches])
    exact ⟨config,kept.trans conf,rfl,fun _ => rfl⟩

theorem multisig_step (multisig : Multisig state chain) : Multisig (predict state action) next := by
  obtain ⟨⟨texts,written,named⟩,_,conf,threshold⟩ := multisig
  obtain ⟨config',configured',threshold',_⟩ := applied_config translated ran conf
  cases translated with
  | addSigner parsed =>
    refine ⟨⟨_,by rw [predict_get rfl,if_pos rfl,written]; rfl,parsed_add parsed named⟩,config',configured',?_⟩
    rw [predict_get rfl,if_neg (by decide),threshold,threshold']
    rfl
  | removeSigner  =>
    refine ⟨⟨_,by rw [predict_get rfl,if_pos rfl,written]; rfl,fun text mem => named text (List.mem_of_mem_erase mem)⟩,config',configured',?_⟩
    rw [predict_get rfl,if_neg (by decide),threshold,threshold']
    rfl
  | setThreshold whole =>
    refine ⟨⟨texts,by rw [predict_get rfl,if_neg (by decide),written],named⟩,config',configured',?_⟩
    rw [predict_get rfl,if_pos rfl,threshold',thresholdOf,whole,getD_some,Op.apply,toU32_exact whole]
  | _ =>
    refine ⟨⟨texts,by rw [predict_get rfl,if_neg (by decide),written],named⟩,config',configured',?_⟩
    rw [predict_get rfl,if_neg (by decide),threshold,threshold']
    rfl

theorem sources_step (sources : Sources state chain) : Sources (predict state action) next := by
  obtain ⟨texts,written,nodup,named,authorized⟩ := sources
  have kept (a : Address) (out : ¬ Touches act (.source a)) : isAuthorizedSource next a = isAuthorizedSource chain a := by
    rw [isAuthorizedSource,isAuthorizedSource,applyProposalAction_get ran out]
  cases translated with
  | @addSource source b name parsed =>
    obtain ⟨distinct,members⟩ := texts_add parseAddress source parsed nodup
    refine ⟨_,by rw [predict_get rfl,if_pos rfl,written]; rfl,distinct,parsed_add parsed named,fun a => ?_⟩
    rw [members]
    by_cases same : a = b
    · simp [same,CatalogChain.addSource_registers ran]
    · rw [kept a (by simpa [Touches] using same),authorized a]
      simp [same]
  | @removeSource source b parsed =>
    obtain ⟨distinct,members⟩ := texts_erase parseAddress source parsed (fun _ _ => text_named) nodup
    refine ⟨_,by rw [predict_get rfl,if_pos rfl,written]; rfl,distinct,fun text mem => named text (List.mem_of_mem_erase mem),fun a => ?_⟩
    rw [members]
    by_cases same : a = b
    · cases ran
      simp [same,CatalogChain.removeSource_clears]
    · rw [kept a (by simpa [Touches] using same),authorized a]
      simp [same]
  | _ =>
    refine ⟨texts,by rw [predict_get rfl,if_neg (by decide),written],nodup,named,fun a => ?_⟩
    rw [kept a (by simp [Touches])]
    exact authorized a

theorem trusted_step (trusted : Trusted state chain) : Trusted (predict state action) next := by
  obtain ⟨texts,written,nodup,shown⟩ := trusted
  have kept (asset : Str) (out : ¬ Touches act (.trustedAsset asset)) : isTrustedAsset next asset = isTrustedAsset chain asset := by
    rw [isTrustedAsset,isTrustedAsset,applyProposalAction_get ran out]
  cases translated with
  | @setTrustedAsset asset trust =>
    have written' : isTrustedAsset next (onChainText asset) = !same trust 0 := by
      cases ran
      simp [isTrustedAsset,setTrustedAsset]
    cases off : same trust 0
    case' true =>
      obtain ⟨distinct,members⟩ := texts_erase (fun text => some (onChainText text)) asset rfl
        (fun _ _ first second => onChainText_inj (some.inj (first.trans second.symm))) nodup
    case' false => obtain ⟨distinct,members⟩ := texts_add (fun text => some (onChainText text)) asset rfl nodup
    all_goals
      refine ⟨_,by rw [predict_get rfl,if_pos rfl,written,off]; rfl,distinct,fun name => ?_⟩
      simp only [some.injEq] at members
      rw [members,← shown name]
      by_cases same : name = onChainText asset
      · simp [same,written',off]
      · simp [same,kept name (by simpa [Touches] using same)]
  | _ =>
    refine ⟨texts,by rw [predict_get rfl,if_neg (by decide),written],nodup,fun asset => ?_⟩
    rw [kept asset (by simp [Touches])]
    exact shown asset

theorem deviation_step (deviation : Deviation state chain) : Deviation (predict state action) next := by
  cases translated with
  | @setDeviationThreshold bps n whole =>
    have entry : (predict state (.setDeviationThreshold bps)).onchain.get "oracle.deviationThresholdBps" = some (.number (.finite n)) := by
      rw [predict_get rfl,if_pos rfl,Op.apply,toU32_exact whole]
    cases ran
    simp [Deviation,getDeviationThreshold,setDeviationThreshold,entry]
  | _ =>
    have kept : next.get .deviationThreshold = chain.get .deviationThreshold := applyProposalAction_get ran (by simp [Touches])
    rw [Deviation,getDeviationThreshold,kept,predict_get rfl,if_neg (by decide)]
    exact deviation

end

theorem shared_step (shared : Shared state chain) (done : execute context chain proposal = .ok next) :
    Shared (predict state proposal.action) next := by
  obtain ⟨_,translated,ran⟩ := execute_parts done
  exact ⟨multisig_step translated ran shared.multisig,sources_step translated ran shared.sources,
    trusted_step translated ran shared.trusted,deviation_step translated ran shared.deviation⟩

theorem signers_step (conf : getMultisigConfig chain = some config) (done : execute context chain proposal = .ok next) :
    (∃ config', getMultisigConfig next = some config') ∧
      ∀ a, (signers next).count a = ((signerOp a proposal.action).map (chainOp ((signers chain).count a))).getD ((signers chain).count a) := by
  obtain ⟨_,translated,ran⟩ := execute_parts done
  obtain ⟨config',configured',_,counts⟩ := applied_config translated ran conf
  refine ⟨⟨config',configured'⟩,fun a => ?_⟩
  rw [signers,signers,conf,configured']
  exact counts a

def predicted (baseline : GovernanceState) (proposals : List AuditableProposal) : GovernanceState :=
  proposals.foldl (fun state p => predict state p.action) baseline

def lastAdmin (proposals : List AuditableProposal) : Option String := (proposals.filterMap (fun p => adminOf p.action)).getLast?

theorem lastAdmin_cons : lastAdmin (proposal :: rest) = (lastAdmin rest).or (adminOf proposal.action) := by
  unfold lastAdmin
  cases admin : adminOf proposal.action with
  | none => simp [admin]
  | some =>
    simp only [List.filterMap_cons,admin,List.getLast?_cons]
    cases (rest.filterMap (fun p => adminOf p.action)).getLast? <;> rfl

theorem signerOps_cons :
    (signerOps a (proposal :: rest)).foldl step n = (signerOps a rest).foldl step (((signerOp a proposal.action).map (step n)).getD n) := by
  simp only [signerOps,List.filterMap_cons]
  cases signerOp a proposal.action <;> rfl

section
variable (done : inTurn (execute context) chain proposals = .ok next)
include done

theorem run_shared (shared : Shared state chain) : Shared (predicted state proposals) next := by
  induction proposals generalizing state chain with
  | nil =>
    cases done
    exact shared
  | cons _ _ ih =>
    obtain ⟨_,here,later⟩ := bind_ok.mp done
    exact ih later (shared_step shared here)

-- The audit replaces the admin at once; the contract only stages the new one.
theorem run_admin (state : GovernanceState) :
    (predicted state proposals).onchain.get "admin.address" = ((lastAdmin proposals).map .text).or (state.onchain.get "admin.address") ∧
      next.get .admin = chain.get .admin := by
  induction proposals generalizing state chain with
  | nil =>
    cases done
    exact ⟨rfl,rfl⟩
  | cons proposal rest ih =>
    obtain ⟨_,here,later⟩ := bind_ok.mp done
    obtain ⟨_,translated,ran⟩ := execute_parts here
    obtain ⟨expected,kept⟩ := ih later (predict state proposal.action)
    refine ⟨?_,kept.trans (applied_admin translated ran)⟩
    rw [predicted,foldl_cons,← predicted,expected,predict_admin translated,lastAdmin_cons]
    cases lastAdmin rest <;> rfl

theorem run_listed :
    listed a (signerTexts (predicted state proposals)) = (signerOps a proposals).foldl auditOp (listed a (signerTexts state)) := by
  induction proposals generalizing state chain with
  | nil => rfl
  | cons _ _ ih =>
    obtain ⟨_,here,later⟩ := bind_ok.mp done
    obtain ⟨_,translated,_⟩ := execute_parts here
    rw [predicted,foldl_cons,← predicted,ih later,predict_listed translated,signerOps_cons]

theorem run_count (conf : getMultisigConfig chain = some config) :
    (signers next).count a = (signerOps a proposals).foldl chainOp ((signers chain).count a) := by
  induction proposals generalizing chain config with
  | nil =>
    cases done
    rfl
  | cons _ _ ih =>
    obtain ⟨_,here,later⟩ := bind_ok.mp done
    obtain ⟨⟨_,configured'⟩,counts⟩ := signers_step conf here
    rw [ih later configured',counts,signerOps_cons]

theorem run_other (key : String) (state : GovernanceState) (other : key ∉ auditedKeys) :
    (predicted state proposals).onchain.get key = state.onchain.get key ∧ (predicted state proposals).offchain = state.offchain := by
  induction proposals generalizing state chain with
  | nil => exact ⟨rfl,rfl⟩
  | cons proposal _ ih =>
    obtain ⟨_,here,later⟩ := bind_ok.mp done
    obtain ⟨_,translated,_⟩ := execute_parts here
    obtain ⟨written,audited,_,effects⟩ := translated_effect translated
    obtain ⟨kept,apart⟩ := ih later (predict state proposal.action)
    have elsewhere : key ≠ written := fun same => other (same ▸ audited)
    rw [predicted,foldl_cons,← predicted,kept,apart,predict_get effects,if_neg elsewhere]
    refine ⟨rfl,?_⟩
    simp [predict,effects,applyEffect,write]

-- The last new admin is the old one, and every address is listed as often by both.
structure Predictable (baseline : GovernanceState) (chain : Storage) (proposals : List AuditableProposal) : Prop where
  admin : ∀ text, lastAdmin proposals = some text → baseline.onchain.get "admin.address" = some (.text text)
  signers : ∀ a, Kept ((signers chain).count a) (signerOps a proposals)

theorem names_exact (named : Names (state.onchain.get "admin.address") (chain.get .admin)) :
    Names ((predicted state proposals).onchain.get "admin.address") (next.get .admin) ↔
      ∀ text, lastAdmin proposals = some text → state.onchain.get "admin.address" = some (.text text) := by
  obtain ⟨expected,kept⟩ := run_admin done state
  rw [expected,kept]
  cases lastAdmin proposals with
  | none => simpa using named
  | some =>
    cases admin : chain.get .admin with
    | none =>
      rw [admin] at named
      simp [Names,show state.onchain.get "admin.address" = none from named]
    | some =>
      rw [admin] at named
      obtain ⟨_,entry,parsed⟩ := named
      simp only [Names,entry,Option.map_some,Option.some_or,some.injEq,StateValue.text.injEq,exists_eq_left',forall_eq']
      constructor
      · intro same
        exact text_named parsed same
      · rintro rfl
        exact parsed

theorem signers_exact (counted : Signers state chain) (conf : getMultisigConfig chain = some config) :
    Signers (predicted state proposals) next ↔ ∀ a, Kept ((signers chain).count a) (signerOps a proposals) := by
  refine forall_congr' (fun a => ?_)
  rw [run_listed done,run_count done conf,counted a,counts_kept]

theorem reflects_exact (reflects : Reflects state chain) :
    Reflects (predicted state proposals) next ↔ Predictable state chain proposals := by
  obtain ⟨admin,counted,shared⟩ := reflects
  obtain ⟨_,conf,_⟩ := shared.multisig.threshold
  have names := names_exact done admin
  have counts := signers_exact done counted conf
  constructor
  · rintro ⟨admin',counted',_⟩
    exact ⟨names.mp admin',counts.mp counted'⟩
  · rintro ⟨admin',counted'⟩
    exact ⟨names.mpr admin',counts.mpr counted',run_shared done shared⟩

end

section
variable {audit : Audit}

theorem effects_expected (audit : Audit) (id : Int) (effects : List Effect) :
    (effects.foldl (effect id) audit).expected = effects.foldl applyEffect audit.expected ∧
      (effects.foldl (effect id) audit).discrepancies = audit.discrepancies := by
  induction effects generalizing audit with
  | nil => exact ⟨rfl,rfl⟩
  | cons effect _ ih => exact ih (audit.effect id effect)

theorem loop_expected (audit : Audit) (known : ∀ p ∈ proposals, p.status = .executed ∧ p.executedAt ≠ none ∧ effectsFor p.action ≠ none) :
    (proposals.foldl (Audit.proposal host now maxDelay) audit).expected = predicted audit.expected proposals ∧
      (proposals.foldl (Audit.proposal host now maxDelay) audit).discrepancies = audit.discrepancies := by
  induction proposals generalizing audit with
  | nil => exact ⟨rfl,rfl⟩
  | cons proposal _ ih =>
    obtain ⟨status,timed,mapped⟩ := known proposal List.mem_cons_self
    obtain ⟨_,timed⟩ := ne_none_iff_exists'.mp timed
    obtain ⟨effects,mapped⟩ := ne_none_iff_exists'.mp mapped
    have one : audit.proposal host now maxDelay proposal = effects.foldl (effect proposal.id) {audit with applied := audit.applied ++ [proposal]} := by
      simp [Audit.proposal,status,Audit.executed,timed,mapped]
    obtain ⟨expected,clean⟩ := effects_expected {audit with applied := audit.applied ++ [proposal]} proposal.id effects
    obtain ⟨expected',clean'⟩ := ih (audit.proposal host now maxDelay proposal) (fun p mem => known p (List.mem_cons_of_mem _ mem))
    rw [foldl_cons,expected',clean',one,expected,clean,predicted,predicted,foldl_cons,predict,mapped]
    exact ⟨rfl,rfl⟩

theorem duplicateId_none (seen : List Int) (fresh : ∀ p ∈ proposals, p.id ∉ seen) (ids : (proposals.map AuditableProposal.id).Nodup) :
    duplicateId seen proposals = none := by
  induction proposals generalizing seen with
  | nil => rfl
  | cons proposal _ ih =>
    rw [List.map_cons,List.nodup_cons] at ids
    rw [duplicateId,if_neg (fresh proposal List.mem_cons_self)]
    refine ih (proposal.id :: seen) ?_ ids.2
    intro p mem held
    rcases mem_cons.mp held with same | old
    · exact ids.1 (same ▸ List.mem_map_of_mem mem)
    · exact fresh p (List.mem_cons_of_mem _ mem) old

structure Executed (proposals executed : List AuditableProposal) : Prop where
  given : proposals.Perm executed
  ids : (executed.map AuditableProposal.id).Nodup
  done : ∀ p ∈ executed, p.status = .executed ∧ p.executedAt ≠ none
  times : executed.Pairwise (fun p q => ∀ s t, p.executedAt = some s → q.executedAt = some t → s < t)

theorem earlier_total (p q : AuditableProposal) : earlier p q = true ∨ earlier q p = true := by
  unfold earlier
  split <;> split <;> simp <;> omega

theorem earlier_trans (p q r : AuditableProposal) (first : earlier p q = true) (second : earlier q r = true) : earlier p r = true := by
  unfold earlier at *
  split at first <;> split at second <;> split <;> simp at * <;> omega

-- Execution times are distinct, so there is one order to sort into.
theorem Executed.ordered (ran : Executed proposals executed) : sortBy earlier proposals = executed := by
  have total : Std.Total (fun p q => earlier p q = true) := ⟨earlier_total⟩
  have trans : IsTrans AuditableProposal (fun p q => earlier p q = true) := ⟨earlier_trans⟩
  have increasing : executed.Pairwise (fun p q => p.orderedAt < q.orderedAt) := by
    refine ran.times.imp_of_mem ?_
    intro p q left right before
    obtain ⟨s,first⟩ := ne_none_iff_exists'.mp (ran.done p left).2
    obtain ⟨t,second⟩ := ne_none_iff_exists'.mp (ran.done q right).2
    simpa [orderedAt,first,second] using before s t first second
  have sorted : executed.Pairwise (fun p q => earlier p q = true) := by
    refine increasing.imp ?_
    intro p q less
    rw [earlier,if_neg (Int.ne_of_lt less)]
    simpa using Int.le_of_lt less
  have distinct : (executed.map orderedAt).Nodup :=
    List.pairwise_map.mpr (increasing.imp Int.ne_of_lt)
  have perm : (sortBy earlier proposals).Perm executed := sortBy_perm.trans ran.given
  refine perm.eq_of_pairwise ?_ (List.pairwise_insertionSort _ proposals) sorted
  intro p q left right first second
  refine List.inj_on_of_nodup_map distinct (perm.mem_iff.mp left) right ?_
  simp only [earlier] at first second
  split at first <;> split at second <;> simp at first second <;> omega

def Agrees (expected observed : GovernanceState) : Prop :=
  ∀ surface key e o, (expected.bucket surface).get key = some e → (observed.bucket surface).get key = some o → valuesEqual e o = true

theorem mem_compared (entry : (audit.expected.bucket surface).get key = some e) : (surface,key) ∈ audit.compared observed := by
  have mem : key ∈ keysOf (audit.expected.bucket surface) (observed.bucket surface) := by
    rw [keysOf,mem_distinct,mem_append]
    exact .inl (List.mem_map_of_mem (get_exact.mp entry))
  cases surface <;> simp [Audit.compared,mem]

theorem judge_mismatch : (∃ d, audit.judge host observed surface key = some d ∧ d.kind = .mismatch) ↔
      ∃ e o, (audit.expected.bucket surface).get key = some e ∧ (observed.bucket surface).get key = some o ∧ valuesEqual e o = false := by
  cases entry : (audit.expected.bucket surface).get key with
  | none => cases seen : (observed.bucket surface).get key <;> simp [judge,entry,seen,discrepancy]
  | some e =>
    cases seen : (observed.bucket surface).get key with
    | none => simp [judge,entry,seen,discrepancy]
    | some o => cases equal : valuesEqual e o <;> simp [judge,entry,seen,equal,discrepancy]

theorem report_mismatch (single : duplicateId [] input.proposals = none) (clean : (replayProposals host input).discrepancies = []) :
    ∃ report, reconcileGovernanceExecution host input = .ok report ∧
      ((∀ d ∈ report.discrepancies, d.kind ≠ .mismatch) ↔ Agrees (replayProposals host input).expected input.observed) := by
  rw [reconcileGovernanceExecution,single]
  refine ⟨_,rfl,?_⟩
  simp only [clean,List.nil_append,mem_sortBy,List.mem_filterMap,Prod.exists]
  constructor
  · intro none surface key e o entry seen
    by_contra differs
    obtain ⟨d,judged,kind⟩ := judge_mismatch.mpr ⟨e,o,entry,seen,by simpa using differs⟩
    exact none d ⟨surface,key,mem_compared entry,judged⟩ kind
  · rintro agrees d ⟨surface,key,_,judged⟩ kind
    obtain ⟨e,o,entry,seen,differs⟩ := judge_mismatch.mp ⟨d,judged,kind⟩
    rw [agrees surface key e o entry seen] at differs
    cases differs

end

section
variable {expected observed state : GovernanceState}

theorem count_listed (parsed : parseAddress text = some a) : texts.count text = listed a texts := by
  refine List.countP_congr ?_
  intro _ _
  simp only [beq_iff_eq,decide_eq_true_eq]
  constructor
  · rintro rfl
    exact parsed
  · intro named
    exact text_named named parsed

theorem perm_listed (named : ∀ text ∈ left, parseAddress text ≠ none) (named' : ∀ text ∈ right, parseAddress text ≠ none) :
    left.Perm right ↔ ∀ a, listed a left = listed a right := by
  constructor
  · intro perm a
    exact perm.countP_eq _
  · intro same
    rw [List.perm_iff_count]
    intro text
    cases parsed : parseAddress text with
    | none =>
      rw [List.count_eq_zero_of_not_mem (fun mem => named text mem parsed),
        List.count_eq_zero_of_not_mem (fun mem => named' text mem parsed)]
    | some a => rw [count_listed parsed,count_listed parsed,same a]

theorem valuesEqual_list : valuesEqual (.list left) (.list right) = true ↔ left.Perm right := by
  simp only [valuesEqual,Bool.and_eq_true,decide_eq_true_eq,sort_eq_iff,and_iff_right_iff_imp]
  exact List.Perm.length_eq

theorem valuesEqual_text : valuesEqual (.text text) (.text other) = true ↔ text = other := by
  simp [valuesEqual]

theorem signers_agree (first : Multisig expected next) (second : Multisig observed next) (counted : Signers observed next) :
    (∀ e o, expected.onchain.get "multisig.signers" = some e → observed.onchain.get "multisig.signers" = some o → valuesEqual e o = true) ↔
      Signers expected next := by
  obtain ⟨⟨left,entry,named⟩,_⟩ := first
  obtain ⟨⟨right,seen,named'⟩,_⟩ := second
  have same : Signers expected next ↔ left.Perm right := by
    rw [perm_listed named named']
    refine forall_congr' (fun a => ?_)
    have shown := counted a
    rw [signerTexts,seen,listOf] at shown
    rw [signerTexts,entry,listOf,shown]
  rw [same,entry,seen]
  constructor
  · intro equal
    exact valuesEqual_list.mp (equal _ _ rfl rfl)
  · rintro perm _ _ ⟨⟩ ⟨⟩
    exact valuesEqual_list.mpr perm

-- Under these keys both states say what the chain says.
theorem shared_agree (first : Shared expected next) (second : Shared observed next)
    (shared : key ∈ ["multisig.threshold","oracle.sources","assets.trusted","oracle.deviationThresholdBps"])
    (entry : expected.onchain.get key = some e) (seen : observed.onchain.get key = some o) : valuesEqual e o = true := by
  simp only [mem_cons,List.not_mem_nil,or_false] at shared
  rcases shared with rfl | rfl | rfl | rfl
  · obtain ⟨_,conf,written⟩ := first.multisig.threshold
    obtain ⟨_,configured',written'⟩ := second.multisig.threshold
    cases some.inj (conf.symm.trans configured')
    cases some.inj (entry.symm.trans written)
    cases some.inj (seen.symm.trans written')
    simp [valuesEqual,same]
  · obtain ⟨left,written,distinct,named,shown⟩ := first.sources
    obtain ⟨right,written',distinct',named',shown'⟩ := second.sources
    cases some.inj (entry.symm.trans written)
    cases some.inj (seen.symm.trans written')
    rw [valuesEqual_list,List.perm_ext_iff_of_nodup distinct distinct']
    intro text
    cases parsed : parseAddress text with
    | none => exact ⟨fun mem => absurd parsed (named text mem),fun mem => absurd parsed (named' text mem)⟩
    | some a =>
      have members {texts : List String} : (∃ held ∈ texts, parseAddress held = some a) ↔ text ∈ texts := by
        refine ⟨?_,fun mem => ⟨text,mem,parsed⟩⟩
        rintro ⟨held,mem,read⟩
        exact text_named parsed read ▸ mem
      rw [← members,← members,← shown a,← shown' a]
  · obtain ⟨left,written,distinct,shown⟩ := first.trusted
    obtain ⟨right,written',distinct',shown'⟩ := second.trusted
    cases some.inj (entry.symm.trans written)
    cases some.inj (seen.symm.trans written')
    rw [valuesEqual_list,List.perm_ext_iff_of_nodup distinct distinct']
    intro text
    have members {texts : List String} : (∃ held ∈ texts, onChainText held = onChainText text) ↔ text ∈ texts := by
      refine ⟨?_,fun mem => ⟨text,mem,rfl⟩⟩
      rintro ⟨held,mem,read⟩
      exact onChainText_inj read ▸ mem
    rw [← members,← members,← shown,← shown']
  · have one := first.deviation
    have two := second.deviation
    unfold Deviation at one two
    rw [entry] at one
    rw [seen] at two
    cases bound : getDeviationThreshold next with
    | none =>
      simp only [bound,reduceCtorEq,false_or,some.injEq] at one two
      rw [one,two]
      rfl
    | some =>
      simp only [bound,some.injEq] at one two
      rw [one,two]
      simp [valuesEqual,same]

theorem applied_admin_held (translated : Translates action act) (ran : applyProposalAction env chain signer act = .ok next)
    (asked : adminOf action = some text) : chain.get .admin ≠ none := by
  cases translated with
  | setAdmin parsed | transferAdmin parsed =>
    simp only [applyProposalAction,MultiSigActions.stageAdmin,getAdmin,bind_ok,someOr_ok] at ran
    obtain ⟨_,_,_,held,_⟩ := ran
    simp [held]
  | _ => cases asked

-- Staging a new admin fails where there is none.
theorem run_admin_held (done : inTurn (execute context) chain proposals = .ok next) (asked : lastAdmin proposals ≠ none) : chain.get .admin ≠ none := by
  induction proposals generalizing chain with
  | nil => exact absurd rfl asked
  | cons proposal _ ih =>
    obtain ⟨_,here,later⟩ := bind_ok.mp done
    obtain ⟨_,translated,ran⟩ := execute_parts here
    rw [lastAdmin_cons] at asked
    cases admin : adminOf proposal.action with
    | none =>
      rw [admin,Option.or_none] at asked
      rw [← applied_admin translated ran]
      exact ih later asked
    | some => exact applied_admin_held translated ran admin

theorem admin_agree (named : Names (state.onchain.get "admin.address") (chain.get .admin)) (seen : Names (observed.onchain.get "admin.address") (next.get .admin))
    (done : inTurn (execute context) chain proposals = .ok next) :
    (∀ e o, (predicted state proposals).onchain.get "admin.address" = some e → observed.onchain.get "admin.address" = some o → valuesEqual e o = true) ↔
      ∀ text, lastAdmin proposals = some text → state.onchain.get "admin.address" = some (.text text) := by
  obtain ⟨expected,kept⟩ := run_admin done state
  rw [kept] at seen
  cases admin : chain.get .admin with
  | none =>
    have unasked : lastAdmin proposals = none := Classical.byContradiction (fun asked => run_admin_held done asked admin)
    rw [admin] at named
    simp [expected,unasked,show state.onchain.get "admin.address" = none from named]
  | some =>
    rw [admin] at named seen
    obtain ⟨held,entry,parsed⟩ := named
    obtain ⟨_,entry',parsed'⟩ := seen
    cases text_named parsed parsed'
    cases last : lastAdmin proposals with
    | none => simp [expected,last,entry,entry',valuesEqual]
    | some text =>
      rw [expected,last,entry,entry']
      constructor
      · rintro equal _ ⟨⟩
        rw [valuesEqual_text.mp (equal (.text text) (.text held) rfl rfl)]
      · rintro same _ _ ⟨⟩ ⟨⟩
        cases same text rfl
        exact valuesEqual_text.mpr rfl

end

-- An observed state that says what the contract says, and elsewhere what the baseline said.
structure Honest (input : ExecutionAuditInput) (next : Storage) : Prop where
  reflects : Reflects input.observed next
  others : ∀ surface key e o, (surface = .onchain → key ∉ auditedKeys) → (input.baseline.bucket surface).get key = some e →
    (input.observed.bucket surface).get key = some o → valuesEqual e o = true

section
variable {input : ExecutionAuditInput} {executed : List AuditableProposal} {context : Context} {chain next : Storage}

theorem agrees_exact (reflects : Reflects input.baseline chain) (done : inTurn (execute context) chain executed = .ok next) (honest : Honest input next) :
    Agrees (predicted input.baseline executed) input.observed ↔ Predictable input.baseline chain executed := by
  obtain ⟨_,conf,_⟩ := reflects.shared.multisig.threshold
  have shared := run_shared done reflects.shared
  have admins := admin_agree reflects.admin honest.reflects.admin done
  have counts := signers_agree shared.multisig honest.reflects.shared.multisig honest.reflects.signers
  rw [signers_exact done reflects.signers conf] at counts
  constructor
  · intro agrees
    exact ⟨admins.mp (fun e o => agrees .onchain "admin.address" e o),counts.mp (fun e o => agrees .onchain "multisig.signers" e o)⟩
  · rintro ⟨admin,signers⟩ surface key e o entry seen
    cases surface with
    | offchain =>
      have apart := (run_other done "" input.baseline (by decide)).2
      refine honest.others .offchain key e o (by simp) ?_ seen
      rw [bucket] at entry ⊢
      rwa [apart] at entry
    | onchain =>
      by_cases audited : key ∈ auditedKeys
      · simp only [auditedKeys,mem_cons,List.not_mem_nil,or_false] at audited
        rcases audited with rfl | rfl | key
        · exact admins.mpr admin e o entry seen
        · exact counts.mpr signers e o entry seen
        · exact shared_agree shared honest.reflects.shared (by simpa using key) entry seen
      · refine honest.others .onchain key e o (fun _ => audited) ?_ seen
        rw [bucket] at entry ⊢
        rwa [(run_other done key input.baseline audited).1] at entry

theorem executed_known (ran : Executed input.proposals executed) (done : inTurn (execute context) chain executed = .ok next) :
    ∀ p ∈ executed, p.status = .executed ∧ p.executedAt ≠ none ∧ effectsFor p.action ≠ none := by
  intro p mem
  obtain ⟨_,_,here⟩ := inTurn_each done mem
  obtain ⟨_,translated,_⟩ := execute_parts here
  obtain ⟨_,_,_,effects⟩ := translated_effect translated
  exact ⟨(ran.done p mem).1,(ran.done p mem).2,by simp [effects]⟩

-- The audit reports an honest deployment without a mismatch exactly if the actions are predictable.
theorem audit_predicts_exact (host : Host) (reflects : Reflects input.baseline chain) (ran : Executed input.proposals executed)
    (done : inTurn (execute context) chain executed = .ok next) (honest : Honest input next) :
    (Reflects (replayProposals host input).expected next ↔ Predictable input.baseline chain executed) ∧
      ∃ report, reconcileGovernanceExecution host input = .ok report ∧
        ((∀ d ∈ report.discrepancies, d.kind ≠ .mismatch) ↔ Predictable input.baseline chain executed) := by
  have single : duplicateId [] input.proposals = none := duplicateId_none [] (by simp) ((ran.given.map _).nodup_iff.mpr ran.ids)
  have known := executed_known ran done
  have replayed : (replayProposals host input).expected = predicted input.baseline executed ∧ (replayProposals host input).discrepancies = [] := by
    rw [replayProposals,ran.ordered]
    exact loop_expected _ known
  obtain ⟨report,reconciled,mismatches⟩ := report_mismatch single replayed.2
  rw [replayed.1] at mismatches ⊢
  exact ⟨reflects_exact done reflects,report,reconciled,mismatches.trans (agrees_exact reflects done honest)⟩

end

namespace Sample
def name (letter : Char) : String := String.ofList (List.replicate 56 letter)
def alice : Address := .repeated 0x41
def bob : Address := .repeated 0x42

theorem alice_named : parseAddress (name 'A') = some alice := by decide +kernel
theorem bob_named : parseAddress (name 'B') = some bob := by decide +kernel

def chain : Storage := (KeyedStore.empty.set .admin alice).set .multiSigConfig ⟨[alice,bob],1⟩

def baseline : GovernanceState := ⟨.collect Prod.fst Prod.snd [("admin.address",.text (name 'A')),("multisig.signers",.list [name 'A',name 'B']),
  ("multisig.threshold",.number 1),("oracle.sources",.list []),("assets.trusted",.list [])],.empty⟩

theorem no_others (observed : GovernanceState) : ∀ surface key e o, (surface = .onchain → key ∉ auditedKeys) → (baseline.bucket surface).get key = some e →
    (observed.bucket surface).get key = some o → valuesEqual e o = true := by
  intro surface _ e o other entry
  have all : ∀ entry ∈ baseline.onchain.entries, entry.1 ∈ auditedKeys := by decide +kernel
  cases surface with
  | onchain => exact absurd (all _ (get_exact.mp entry)) (other rfl)
  | offchain => cases entry

theorem baseline_reflects (same : ∀ k, k ≠ .pendingAdmin → s.get k = chain.get k) : Reflects baseline s := by
  have config : getMultisigConfig s = some ⟨[alice,bob],1⟩ := same .multiSigConfig (by simp)
  refine ⟨?_,fun a => ?_,⟨⟨⟨[name 'A',name 'B'],rfl,?_⟩,_,config,rfl⟩,⟨[],rfl,List.nodup_nil,by simp,fun a => ?_⟩,⟨[],rfl,List.nodup_nil,fun asset => ?_⟩,?_⟩⟩
  · rw [same .admin (by simp)]
    exact ⟨name 'A',rfl,alice_named⟩
  · have texts : signerTexts baseline = [name 'A',name 'B'] := rfl
    simp [texts,listed,alice_named,bob_named,signers,config,List.count_cons,List.countP_cons]
  · simp [alice_named,bob_named]
  · simp [isAuthorizedSource,same (.source a) (by simp),chain]
  · simp [isTrustedAsset,same (.trustedAsset asset) (by simp),chain]
  · have none : getDeviationThreshold s = none := by simp [getDeviationThreshold,same .deviationThreshold (by simp),chain]
    rw [Deviation,none]
    exact .inl rfl

def context : Context := fun _ => CatalogChain.Sample.context (.removeSource "")
def host : Host := ⟨JsText.plain,5000,fun kind => kind,fun _ => none⟩

@[simp] def executedAt (id time : Int) (action : ExecutionAudit.ProposalAction) : AuditableProposal := ⟨id,.executed,action,0,some time,none⟩

@[simp] def reduced : List AuditableProposal := [executedAt 1 10 (.setThreshold 2),executedAt 2 20 (.removeSigner (name 'B'))]
def reduction : ExecutionAuditInput := ⟨baseline,reduced.reverse,predicted baseline reduced,none,none⟩

def moved : List AuditableProposal := [executedAt 1 10 (.transferAdmin (name 'B'))]
def transfer : ExecutionAuditInput := ⟨baseline,moved,baseline,none,none⟩

theorem moved_pending (done : inTurn (execute context) chain moved = .ok next) : ∀ k, k ≠ .pendingAdmin → next.get k = chain.get k := by
  obtain ⟨_,here,⟨⟩⟩ := bind_ok.mp done
  obtain ⟨_,translated,ran⟩ := execute_parts here
  intro k other
  refine applyProposalAction_get ran ?_
  cases translated
  exact other
end Sample

open Sample

theorem reduction_predicted : Reflects baseline chain ∧ ∃ next report, inTurn (execute context) chain reduced = .ok next ∧
    Reflects (replayProposals host reduction).expected next ∧ reconcileGovernanceExecution host reduction = .ok report ∧
    ∀ d ∈ report.discrepancies, d.kind ≠ .mismatch := by
  have reflects : Reflects baseline chain := baseline_reflects (fun _ _ => rfl)
  have succeeds : (inTurn (execute context) chain reduced).toBool = true := by decide +kernel
  obtain ⟨next,done⟩ := ok_of_toBool succeeds
  have predictable : Predictable baseline chain reduced := by
    refine ⟨by simp [lastAdmin,adminOf],fun a => ?_⟩
    have ops : signerOps a reduced = if bob = a then [false] else [] := by
      by_cases same : bob = a <;> simp [signerOps,bob_named,same]
    rw [ops]
    split
    · rename_i same
      subst same
      exact .inl ⟨rfl,.inr (by decide)⟩
    · exact .inl ⟨rfl,.inl rfl⟩
  have ran : Executed reduction.proposals reduced :=
    ⟨List.reverse_perm _,by decide,by simp,by simp⟩
  have honest : Honest reduction next := ⟨(reflects_exact done reflects).mpr predictable,no_others _⟩
  obtain ⟨expected,report,reconciled,mismatches⟩ := audit_predicts_exact host reflects ran done honest
  exact ⟨reflects,next,report,done,expected.mpr predictable,reconciled,mismatches.mpr predictable⟩

theorem staged_transfer_reported : Reflects baseline chain ∧ Executed transfer.proposals moved ∧
    (∃ next, inTurn (execute context) chain moved = .ok next ∧ Honest transfer next) ∧
    (reconcileGovernanceExecution host transfer).toOption.map (fun report => report.discrepancies.map (fun d => (d.key,d.kind))) =
      some [("admin.address",.mismatch)] := by
  have succeeds : (inTurn (execute context) chain moved).toBool = true := by decide +kernel
  obtain ⟨next,done⟩ := ok_of_toBool succeeds
  have honest : Honest transfer next := ⟨baseline_reflects (moved_pending done),no_others _⟩
  refine ⟨baseline_reflects (fun _ _ => rfl),⟨.refl _,by decide,?_,?_⟩,⟨next,done,honest⟩,by decide +kernel⟩
  · simp [moved]
  · simp [moved]

end StellarPriceOracle.AuditPrediction
