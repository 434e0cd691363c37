import Mathlib.Data.List.Nodup
import StellarPriceOracle.MultiSigActions
import StellarPriceOracle.Library.Runs

namespace StellarPriceOracle.MultiSigAdmin
open Guarded Storage Utils
open MultiSigActions (requireSigner)
open KeyedStore (empty)
open Runs (Run Transition)
open Except (ok)

variable {id : Nat}

-- `initialize` in the source. It asks for no authorization and may be called again.
def initializeMultisig (s : Storage) (signers : List Address) (threshold : Nat) : Outcome Storage := do
  ensure (¬ (threshold = 0 ∨ signers.length < threshold)) .invalidThreshold
  .ok (setMsigProposalCount (setMultisigConfig s ⟨signers,threshold⟩) 0)

def createProposal (env : Env) (s : Storage) (proposer : Address) (action : ProposalAction) : Outcome (Nat × Storage) := do
  let _ ← requireSigner env s proposer
  let id := getMsigProposalCount s
  let s := setMultisigProposal s ⟨id,action,[proposer],0,0,env.timestamp,proposer⟩
  let count ← addU32 id 1
  .ok (id,setMsigProposalCount s count)

def approveProposal (env : Env) (s : Storage) (signer : Address) (id : Nat) : Outcome Storage := do
  let _ ← requireSigner env s signer
  let proposal ← okOr (getMultisigProposal s id) .proposalNotFound
  ensure (proposal.executed ≠ 1) .proposalAlreadyExecuted
  ensure (vecContainsAddress proposal.approvals signer = false) .alreadyApproved
  .ok (setMultisigProposal s {proposal with approvals := proposal.approvals ++ [signer]})

def applyLocalMultisigAction (s : Storage) : ProposalAction → Storage
  | .addSigner newSigner =>
    match getMultisigConfig s with
    | some config =>
      if vecContainsAddress config.signers newSigner then s
      else setMultisigConfig s {config with signers := config.signers ++ [newSigner]}
    | none => s
  | .removeSigner signer =>
    match getMultisigConfig s with
    | some config => setMultisigConfig s {config with signers := config.signers.filter (· ≠ signer)}
    | none => s
  | .setThreshold newThreshold =>
    match getMultisigConfig s with
    | some config => setMultisigConfig s {config with threshold := newThreshold}
    | none => s
  | _ => s

def executeProposal (env : Env) (s : Storage) (signer : Address) (id : Nat) : Outcome (ProposalAction × Storage) := do
  let config ← requireSigner env s signer
  let proposal ← okOr (getMultisigProposal s id) .proposalNotFound
  ensure (proposal.executed ≠ 1) .proposalAlreadyExecuted
  ensure (config.threshold ≤ proposal.approvals.length) .thresholdNotMet
  let s := applyLocalMultisigAction s proposal.action
  .ok (proposal.action,setMultisigProposal s {proposal with executed := 1})

inductive Call where
  | initializeMultisig (signers : List Address) (threshold : Nat)
  | createProposal (proposer : Address) (action : ProposalAction)
  | approveProposal (signer : Address) (id : Nat)
  | executeProposal (signer : Address) (id : Nat)
  deriving DecidableEq

def step (s : Storage) : Env × Call → Outcome Storage
  | (_,.initializeMultisig signers threshold) => initializeMultisig s signers threshold
  | (env,.createProposal proposer action) => do
    let (_,next) ← createProposal env s proposer action
    .ok next
  | (env,.approveProposal signer id) => approveProposal env s signer id
  | (env,.executeProposal signer id) => do
    let (_,next) ← executeProposal env s signer id
    .ok next

abbrev Trace := List (Transition Storage (Env × Call))

def Signer (s : Storage) (a : Address) : Prop := ∃ config, getMultisigConfig s = some config ∧ a ∈ config.signers

theorem requireSigner_parts (checked : requireSigner env s signer = .ok config) :
    env.authorized signer = true ∧ getMultisigConfig s = some config ∧ signer ∈ config.signers := by
  simp only [requireSigner,bind_ok,requireAuth_ok,someOr_ok,require_ok,vecContainsAddress_iff,ok.injEq] at checked
  obtain ⟨_,authorized,_,conf,_,member,rfl⟩ := checked
  exact ⟨authorized,conf,member⟩

theorem create_parts (ran : step s (env,.createProposal proposer action) = .ok next) :
    env.authorized proposer = true ∧ Signer s proposer ∧ ∃ id count,
      next = setMsigProposalCount (setMultisigProposal s ⟨id,action,[proposer],0,0,env.timestamp,proposer⟩) count := by
  simp only [step,createProposal,bind_ok,ok.injEq] at ran
  obtain ⟨_,⟨config,checked,count,_,rfl⟩,rfl⟩ := ran
  obtain ⟨authorized,conf,member⟩ := requireSigner_parts checked
  exact ⟨authorized,⟨config,conf,member⟩,_,count,rfl⟩

theorem approve_parts (ran : step s (env,.approveProposal signer id) = .ok next) :
    env.authorized signer = true ∧ Signer s signer ∧ ∃ p, getMultisigProposal s id = some p ∧ signer ∉ p.approvals ∧
      next = setMultisigProposal s {p with approvals := p.approvals ++ [signer]} := by
  simp only [step,approveProposal,bind_ok,someOr_ok,require_ok,ok.injEq] at ran
  obtain ⟨config,checked,p,has,_,_,_,fresh,rfl⟩ := ran
  obtain ⟨authorized,conf,member⟩ := requireSigner_parts checked
  refine ⟨authorized,⟨config,conf,member⟩,p,has,?_,rfl⟩
  intro again
  simp [vecContainsAddress_iff.mpr again] at fresh

theorem execute_parts (ran : step s (env,.executeProposal signer id) = .ok next) : ∃ config p,
    getMultisigConfig s = some config ∧ getMultisigProposal s id = some p ∧ signer ∈ config.signers ∧
    config.threshold ≤ p.approvals.length ∧
    next = setMultisigProposal (applyLocalMultisigAction s p.action) {p with executed := 1} := by
  simp only [step,executeProposal,bind_ok,someOr_ok,require_ok,ok.injEq] at ran
  obtain ⟨_,⟨config,checked,p,has,_,_,_,met,rfl⟩,rfl⟩ := ran
  obtain ⟨_,conf,member⟩ := requireSigner_parts checked
  exact ⟨config,p,conf,has,member,met,rfl⟩

theorem applyLocal_read (s : Storage) (action : ProposalAction) (id : Nat) :
    getMultisigProposal (applyLocalMultisigAction s action) id = getMultisigProposal s id := by
  unfold applyLocalMultisigAction
  split
  · split
    · split <;> simp [getMultisigProposal,setMultisigConfig]
    · rfl
  · split <;> simp [getMultisigProposal,setMultisigConfig]
  · split <;> simp [getMultisigProposal,setMultisigConfig]
  · rfl

theorem signer_set (member : a ∈ config.signers) : Signer (setMultisigConfig s config) a :=
  ⟨config,by simp [getMultisigConfig,setMultisigConfig],member⟩

theorem applyLocal_signer (signer : Signer s a) (kept : action ≠ .removeSigner a) : Signer (applyLocalMultisigAction s action) a := by
  obtain ⟨config,conf,member⟩ := signer
  cases action with
  | addSigner =>
    simp only [applyLocalMultisigAction,conf]
    split
    · exact ⟨config,conf,member⟩
    · exact signer_set (List.mem_append_left _ member)
  | removeSigner signer =>
    have other : a ≠ signer := fun same => kept (by rw [same])
    simp only [applyLocalMultisigAction,conf]
    exact signer_set (List.mem_filter.mpr ⟨member,by simpa using other⟩)
  | setThreshold =>
    simp only [applyLocalMultisigAction,conf]
    exact signer_set member
  | _ => exact ⟨config,conf,member⟩

-- A signer loses the role only by these calls.
def Removes (t : Transition Storage (Env × Call)) (a : Address) : Prop :=
  (∃ signer id p, t.input.2 = .executeProposal signer id ∧ getMultisigProposal t.before id = some p ∧
    p.action = .removeSigner a) ∨ ∃ signers threshold, t.input.2 = .initializeMultisig signers threshold

theorem step_signer (ran : step s (env,call) = .ok next) (signer : Signer s a) : Signer next a ∨ Removes ⟨s,(env,call),next⟩ a := by
  cases call with
  | initializeMultisig signers threshold => exact Or.inr (Or.inr ⟨signers,threshold,rfl⟩)
  | createProposal =>
    obtain ⟨_,_,_,_,rfl⟩ := create_parts ran
    exact Or.inl (by simpa [Signer,getMultisigConfig,setMsigProposalCount,setMultisigProposal] using signer)
  | approveProposal =>
    obtain ⟨_,_,_,_,_,rfl⟩ := approve_parts ran
    exact Or.inl (by simpa [Signer,getMultisigConfig,setMultisigProposal] using signer)
  | executeProposal executor id =>
    obtain ⟨_,p,_,has,_,_,rfl⟩ := execute_parts ran
    by_cases removed : p.action = .removeSigner a
    · exact Or.inr (Or.inl ⟨executor,id,p,rfl,has,removed⟩)
    · exact Or.inl (by simpa [Signer,getMultisigConfig,setMultisigProposal] using applyLocal_signer signer removed)

-- Nothing but the approvals and the executed mark ever changes.
def Same (q p : MultiSigProposal) : Prop := {q with approvals := p.approvals, executed := p.executed} = p

theorem same_refl : Same p p := rfl

theorem same_trans (first : Same q p) (second : Same p r) : Same q r := by
  cases q
  cases p
  cases r
  simp_all [Same]

inductive Origin (env : Env) (s : Storage) (id : Nat) (call : Call) (p : MultiSigProposal) : Prop where
  | kept : getMultisigProposal s id = some q → Same q p → p.approvals = q.approvals → Origin env s id call p
  | approved : getMultisigProposal s id = some q → Same q p → call = .approveProposal a id → env.authorized a = true →
      Signer s a → a ∉ q.approvals → p.approvals = q.approvals ++ [a] → Origin env s id call p
  | created : call = .createProposal a p.action → env.authorized a = true → Signer s a → p.id = id →
      p.approvals = [a] → Origin env s id call p

theorem write_origin (keyed : ∀ id p, getMultisigProposal s id = some p → p.id = id)
    (before : getMultisigProposal s target = some q) (same : Same q r)
    (reads : ∀ n, getMultisigProposal base n = getMultisigProposal s n)
    (has : getMultisigProposal (setMultisigProposal base r) id = some p) (here : Origin env s target call r) :
    Origin env s id call p := by
  have own : r.id = target := by
    rw [← keyed target q before,← same]
  rw [setMultisigProposal_read,own,reads] at has
  split at has
  · rename_i equal
    cases has
    exact equal ▸ here
  · exact .kept has (same_refl) rfl

theorem step_origin (ran : step s (env,call) = .ok next)
    (keyed : ∀ id p, getMultisigProposal s id = some p → p.id = id) (has : getMultisigProposal next id = some p) :
    Origin env s id call p := by
  cases call with
  | initializeMultisig =>
    obtain ⟨_,_,⟨⟩⟩ := bind_ok.mp ran
    refine .kept ?_ (same_refl) rfl
    simpa [getMultisigProposal,setMsigProposalCount,setMultisigConfig] using has
  | createProposal =>
    obtain ⟨authorized,signer,fresh,count,rfl⟩ := create_parts ran
    have counted : ∀ base : Storage, getMultisigProposal (setMsigProposalCount base count) id = getMultisigProposal base id := by
      intro _
      simp [getMultisigProposal,setMsigProposalCount]
    rw [counted,setMultisigProposal_read] at has
    split at has
    · rename_i equal
      cases has
      exact .created rfl authorized signer equal.symm rfl
    · exact .kept has (same_refl) rfl
  | approveProposal signer =>
    obtain ⟨authorized,member,q,before,fresh,rfl⟩ := approve_parts ran
    have same : Same q {q with approvals := q.approvals ++ [signer]} := rfl
    exact write_origin keyed before same (fun _ => rfl) has (.approved before same rfl authorized member fresh rfl)
  | executeProposal =>
    obtain ⟨_,q,_,before,_,_,rfl⟩ := execute_parts ran
    have same : Same q {q with executed := 1} := rfl
    exact write_origin keyed before same (applyLocal_read s q.action) has (.kept before same rfl)

structure Approves (t : Transition Storage (Env × Call)) (p : MultiSigProposal) (a : Address) : Prop where
  called : t.input.2 = .createProposal a p.action ∨ t.input.2 = .approveProposal a p.id
  authorized : t.input.1.authorized a = true
  signer : Signer t.before a
  recorded : ∃ q, getMultisigProposal t.after p.id = some q ∧ Same q p ∧ a ∈ q.approvals

theorem Approves.onward (approves : Approves t q a) (same : Same q p) : Approves t p a := by
  have parts : q.action = p.action ∧ q.id = p.id := by
    constructor <;> rw [← same]
  obtain ⟨called,authorized,signer,r,recorded,first,member⟩ := approves
  rw [parts.1,parts.2] at called
  rw [parts.2] at recorded
  exact ⟨called,authorized,signer,r,recorded,same_trans first same,member⟩

-- Approved by a signer, who is one still or was removed afterwards.
def Backed (ts : Trace) (s : Storage) (p : MultiSigProposal) (a : Address) : Prop :=
  ∃ earlier t later, ts = earlier ++ t :: later ∧ Approves t p a ∧ (Signer s a ∨ ∃ u ∈ later, Removes u a)

theorem Backed.onward (backed : Backed ts s q a) (same : Same q p) (ran : step s (env,call) = .ok next) :
    Backed (ts ++ [⟨s,(env,call),next⟩]) next p a := by
  obtain ⟨earlier,t,later,rfl,approves,role⟩ := backed
  refine ⟨earlier,t,later ++ [⟨s,(env,call),next⟩],by simp,approves.onward same,?_⟩
  rcases role with signer | ⟨u,mem,removed⟩
  · rcases step_signer ran signer with still | removed
    · exact Or.inl still
    · exact Or.inr ⟨_,List.mem_concat_self,removed⟩
  · exact Or.inr ⟨u,List.mem_append_left _ mem,removed⟩

theorem backed_now (approves : Approves ⟨s,(env,call),next⟩ p a) (ran : step s (env,call) = .ok next)
    (unremoved : ¬ Removes ⟨s,(env,call),next⟩ a) : Backed (ts ++ [⟨s,(env,call),next⟩]) next p a := by
  refine ⟨ts,_,[],rfl,approves,Or.inl ?_⟩
  exact (step_signer ran approves.signer).resolve_right unremoved

structure Kept (ts : Trace) (s : Storage) : Prop where
  keyed : ∀ id p, getMultisigProposal s id = some p → p.id = id
  distinct : ∀ id p, getMultisigProposal s id = some p → p.approvals.Nodup
  backed : ∀ id p, getMultisigProposal s id = some p → ∀ a ∈ p.approvals, Backed ts s p a

theorem step_kept (ran : step s (env,call) = .ok next) (kept : Kept ts s) : Kept (ts ++ [⟨s,(env,call),next⟩]) next := by
  have origin : ∀ id p, getMultisigProposal next id = some p → Origin env s id call p :=
    fun id p has => step_origin ran kept.keyed has
  refine ⟨?_,?_,?_⟩
  · intro id p has
    cases origin id p has with
    | kept before same | approved before same =>
      rw [← kept.keyed id _ before,← same]
    | created _ _ _ own => exact own
  · intro id p has
    cases origin id p has with
    | kept before _ approvals =>
      rw [approvals]
      exact kept.distinct id _ before
    | approved before _ _ _ _ fresh approvals =>
      rw [approvals]
      simpa using (kept.distinct id _ before).concat fresh
    | created _ _ _ _ approvals => simp [approvals]
  · intro id p has a approved
    cases origin id p has with
    | kept before same approvals =>
      rw [approvals] at approved
      exact (kept.backed id _ before a approved).onward same ran
    | @approved q signer before same called authorized member fresh approvals =>
      have own : p.id = id := by rw [← kept.keyed id q before,← same]
      have all := approved
      rw [approvals] at approved
      rcases Runs.mem_snoc.mp approved with old | rfl
      · exact (kept.backed id q before a old).onward same ran
      · subst called
        refine backed_now ⟨Or.inr (by rw [own]),authorized,member,p,by rw [own]; exact has,same_refl,all⟩ ran ?_
        simp [Removes]
    | created called authorized member own approvals =>
      have all := approved
      rw [approvals] at approved
      cases List.mem_singleton.mp approved
      subst called
      refine backed_now ⟨Or.inl rfl,authorized,member,p,by rw [own]; exact has,same_refl,all⟩ ran ?_
      simp [Removes]

theorem runs_kept (path : Run step empty ts s) : Kept ts s := by
  induction path with
  | nil => refine ⟨?_,?_,?_⟩ <;> simp [getMultisigProposal]
  | snoc _ ran ih => exact step_kept ran ih

theorem execution_approved (path : Run step empty ts s)
    (executed : step s (env,.executeProposal signer id) = .ok next) : ∃ config p,
      getMultisigConfig s = some config ∧ getMultisigProposal s id = some p ∧ signer ∈ config.signers ∧
      p.approvals.Nodup ∧ config.threshold ≤ p.approvals.length ∧ ∀ a ∈ p.approvals, Backed ts s p a := by
  have kept := runs_kept path
  obtain ⟨config,p,configured,stored,member,met,_⟩ := execute_parts executed
  exact ⟨config,p,configured,stored,member,kept.distinct id p stored,met,kept.backed id p stored⟩

namespace Sample
def alice : Address := .repeated 0x41
def bob : Address := .repeated 0x42
def carol : Address := .repeated 0x44
def env : Env := ⟨5000,fun _ => true,.repeated 0x43,fun _ _ => 0,fun _ _ _ _ => true⟩

def run (calls : List Call) : Outcome (Trace × Storage) :=
  Runs.replay step empty (calls.map (fun call => (env,call)))

def proposed : List Call :=
  [.initializeMultisig [alice,bob,carol] 2,.createProposal alice (.setTrustedAsset [0x58] true),.approveProposal bob 0]

-- Bob is voted out while the first proposal waits.
def bobRemoved : List Call :=
  [.createProposal alice (.removeSigner bob),.approveProposal carol 1,.executeProposal carol 1]

def executes (s : Storage) : Bool := (step s (env,.executeProposal alice 0)).toBool
end Sample

open Sample

theorem both_signers_approved : ∃ ts s next config p, Run step empty ts s ∧
    step s (env,.executeProposal alice 0) = .ok next ∧ getMultisigConfig s = some config ∧
      getMultisigProposal s 0 = some p ∧ p.approvals.Nodup ∧ config.threshold ≤ p.approvals.length ∧
      ∀ a ∈ p.approvals, Backed ts s p a := by
  have replayed : (run proposed).map (fun result => executes result.2) = .ok true := by rfl
  obtain ⟨ts,s,path,seen⟩ := Runs.replay_observed replayed
  obtain ⟨next,ran⟩ := ok_of_toBool seen
  obtain ⟨config,p,configured,stored,_,distinct,met,backed⟩ := execution_approved path ran
  exact ⟨ts,s,next,config,p,path,ran,configured,stored,distinct,met,backed⟩

theorem removed_signer_counts : ∃ ts s next config p, Run step empty ts s ∧
    step s (env,.executeProposal alice 0) = .ok next ∧ getMultisigConfig s = some config ∧
      getMultisigProposal s 0 = some p ∧ ∀ approvers : List Address, approvers.Nodup →
        (∀ a ∈ approvers, a ∈ p.approvals ∧ a ∈ config.signers) → approvers.length < config.threshold := by
  have replayed : (run (proposed ++ bobRemoved)).map (fun result => (executes result.2,
      getMultisigConfig result.2,(getMultisigProposal result.2 0).map MultiSigProposal.approvals)) =
        .ok (true,some ⟨[alice,carol],2⟩,some [alice,bob]) := by rfl
  obtain ⟨ts,s,path,seen⟩ := Runs.replay_observed replayed
  simp only [Prod.mk.injEq] at seen
  obtain ⟨done,configured,approvals⟩ := seen
  obtain ⟨next,ran⟩ := ok_of_toBool done
  obtain ⟨p,stored,same⟩ := Option.map_eq_some_iff.mp approvals
  refine ⟨ts,s,next,_,p,path,ran,configured,stored,?_⟩
  intro approvers different both
  have only : approvers ⊆ [alice] := by
    intro a present
    obtain ⟨approved,signer⟩ := both a present
    rw [same] at approved
    simp only [List.mem_cons,List.not_mem_nil,or_false] at approved signer ⊢
    rcases approved with rfl | rfl
    · rfl
    · exact absurd signer (by decide)
  have short := different.length_le_of_subset only
  simp only [List.length_singleton] at short ⊢
  omega

end StellarPriceOracle.MultiSigAdmin
