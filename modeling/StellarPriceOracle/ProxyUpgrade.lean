import StellarPriceOracle.Proxy
import StellarPriceOracle.MultiSigAdmin

namespace StellarPriceOracle.ProxyUpgrade
open Guarded Storage Utils Proxy
open MultiSigAdmin (Signer requireSigner_parts)
open KeyedStore (empty)

def Resets : Call → Prop
  | .proposeUpgrade _ _ | .cancelUpgrade _ | .executeUpgrade _ => True
  | _ => False

inductive Change (env : Env) (s : Storage) (call : Call) (next : Storage) : Prop where
  | proposed : call = .proposeUpgrade admin wasmHash → getPendingUpgrade next = some wasmHash →
      getPendingUpgradeEta next = some (env.timestamp + upgradeTimelockSecs) → getUpgradeApprovals next = [] →
      Change env s call next
  | approved : call = .approveUpgrade signer → Signer s signer → signer ∉ getUpgradeApprovals s →
      getPendingUpgrade next = getPendingUpgrade s → getPendingUpgradeEta next = getPendingUpgradeEta s →
      getUpgradeApprovals next = getUpgradeApprovals s ++ [signer] → Change env s call next
  | cleared : getPendingUpgrade next = none → Change env s call next
  | kept : ¬ Resets call → (∀ k, UpgradeSlot k → next.get k = s.get k) → Change env s call next

theorem clearPendingUpgrade_none : getPendingUpgrade (clearPendingUpgrade s) = none := by
  simp [getPendingUpgrade,clearPendingUpgrade]

theorem step_change (ran : step uploaded s (env,call) = .ok next) : Change env s call next := by
  cases call with
  | proposeUpgrade =>
    simp only [step,proposeUpgrade,bind_ok,addBelow_ok,Except.ok.injEq] at ran
    obtain ⟨_,⟨_,_,_,_,_,⟨_,rfl⟩,rfl⟩,rfl⟩ := ran
    refine .proposed rfl ?_ ?_ ?_
    · simp [getPendingUpgrade,setPendingUpgrade]
    · simp [getPendingUpgradeEta,setPendingUpgrade]
    · simp [getUpgradeApprovals,setPendingUpgrade]
  | approveUpgrade =>
    simp only [step,approveUpgrade,bind_ok,require_ok,Except.ok.injEq] at ran
    obtain ⟨_,⟨config,checked,_,_,_,fresh,rfl⟩,rfl⟩ := ran
    obtain ⟨_,conf,member⟩ := requireSigner_parts checked
    refine .approved rfl ⟨config,conf,member⟩ ?_ ?_ ?_ ?_
    · intro again
      simp [vecContainsAddress_iff.mpr again] at fresh
    · simp [getPendingUpgrade,recordUpgradeApproval]
    · simp [getPendingUpgradeEta,recordUpgradeApproval]
    · simp [getUpgradeApprovals,recordUpgradeApproval]
  | executeUpgrade =>
    obtain ⟨⟨wasmHash,_⟩,executed,⟨⟩⟩ := bind_ok.mp ran
    obtain ⟨_,_,_,rfl⟩ := executeUpgrade_parts executed
    exact .cleared clearPendingUpgrade_none
  | cancelUpgrade =>
    obtain ⟨_,rfl⟩ := Admin.configure_ok.mp ran
    exact .cleared clearPendingUpgrade_none
  | _ =>
    refine .kept (by simp [Resets]) ?_
    intro k slot
    apply step_frame ran
    rcases slot with rfl | rfl | rfl <;> simp [Touches]

def Approved (since : Trace) (a : Address) : Prop := ∃ u ∈ since, u.input.2 = .approveUpgrade a ∧ Signer u.before a

theorem Approved.extend (approved : Approved since a) : Approved (since ++ more) a := by
  obtain ⟨u,mem,facts⟩ := approved
  exact ⟨u,List.mem_append_left _ mem,facts⟩

-- When the pending upgrade was proposed, and which calls approved it since.
structure Backed (p : Runs.Transition Storage (Env × Call)) (since : Trace) (s : Storage) (wasmHash : Bytes) : Prop where
  proposed : ∃ admin, p.input.2 = .proposeUpgrade admin wasmHash
  eta : getPendingUpgradeEta s = some (p.input.1.timestamp + upgradeTimelockSecs)
  undisturbed : ∀ u ∈ since, ¬ Resets u.input.2
  distinct : (getUpgradeApprovals s).Nodup
  approved : ∀ a ∈ getUpgradeApprovals s, Approved since a

theorem undisturbed_snoc {since : Trace} (undisturbed : ∀ u ∈ since, ¬ Resets u.input.2) (last : ¬ Resets call) :
    ∀ u ∈ since ++ [⟨s,(env,call),next⟩], ¬ Resets u.input.2 := by
  intro u mem
  rcases Runs.mem_snoc.mp mem with old | rfl
  · exact undisturbed u old
  · exact last

theorem Backed.keep (backed : Backed p since s wasmHash) (quiet : ¬ Resets call)
    (same : ∀ k, UpgradeSlot k → next.get k = s.get k) : Backed p (since ++ [⟨s,(env,call),next⟩]) next wasmHash := by
  have eta : getPendingUpgradeEta next = getPendingUpgradeEta s := same _ (Or.inr (Or.inl rfl))
  have approvals : getUpgradeApprovals next = getUpgradeApprovals s := by
    simp [getUpgradeApprovals,same .upgradeApprovals (Or.inr (Or.inr rfl))]
  refine ⟨backed.proposed,eta.trans backed.eta,undisturbed_snoc backed.undisturbed quiet,?_,?_⟩
  · rw [approvals]
    exact backed.distinct
  · intro a member
    rw [approvals] at member
    exact (backed.approved a member).extend

theorem Backed.approve (backed : Backed p since s wasmHash) (signer : Signer s a) (fresh : a ∉ getUpgradeApprovals s)
    (eta : getPendingUpgradeEta next = getPendingUpgradeEta s)
    (approvals : getUpgradeApprovals next = getUpgradeApprovals s ++ [a]) :
    Backed p (since ++ [⟨s,(env,.approveUpgrade a),next⟩]) next wasmHash := by
  refine ⟨backed.proposed,eta.trans backed.eta,undisturbed_snoc backed.undisturbed (by simp [Resets]),?_,?_⟩
  · rw [approvals]
    simpa using backed.distinct.concat fresh
  · intro b member
    rw [approvals] at member
    rcases Runs.mem_snoc.mp member with old | rfl
    · exact (backed.approved b old).extend
    · exact ⟨_,List.mem_concat_self,rfl,signer⟩

theorem runs_backed (path : Runs.Run (step uploaded) empty ts s) : ∀ wasmHash, getPendingUpgrade s = some wasmHash →
      ∃ first p since, ts = first ++ p :: since ∧ Backed p since s wasmHash := by
  induction path with
  | nil =>
    intro wasmHash pending
    cases pending
  | @snoc ts s input next prior ran ih =>
    obtain ⟨_,_⟩ := input
    intro wasmHash pending
    cases step_change ran with
    | @proposed admin stored called hashed eta approvals =>
      cases hashed.symm.trans pending
      refine ⟨ts,_,[],rfl,⟨⟨admin,called⟩,eta,by simp,?_,?_⟩⟩ <;> simp [approvals]
    | approved called signer fresh same eta approvals =>
      subst called
      obtain ⟨first,p,since,rfl,backed⟩ := ih wasmHash (same.symm.trans pending)
      exact ⟨first,p,_,List.append_assoc first (p :: since) _,backed.approve signer fresh eta approvals⟩
    | cleared none => cases none.symm.trans pending
    | kept quiet same =>
      have before : getPendingUpgrade s = some wasmHash := (same _ (Or.inl rfl)).symm.trans pending
      obtain ⟨first,p,since,rfl,backed⟩ := ih wasmHash before
      exact ⟨first,p,_,List.append_assoc first (p :: since) _,backed.keep quiet same⟩

-- An executed upgrade waited for the timelock, was not replaced and was approved by enough signers.
theorem upgrade_gated (path : Runs.Run (step uploaded) empty ts s)
    (executed : executeUpgrade uploaded env s caller = .ok (wasmHash,next)) :
    ∃ first p since, ts = first ++ p :: since ∧ (∃ admin, p.input.2 = .proposeUpgrade admin wasmHash) ∧
      p.input.1.timestamp + 172800 ≤ env.timestamp ∧ (∀ u ∈ since, ¬ Resets u.input.2) ∧
      ∃ config, getMultisigConfig s = some config ∧ ∃ approvers : List Address, approvers.Nodup ∧
        config.threshold ≤ approvers.length ∧
        ∀ a ∈ approvers, ∃ u ∈ since, u.input.2 = .approveUpgrade a ∧ Signer u.before a := by
  obtain ⟨pending,elapsed,⟨config,configured,met⟩,_⟩ := executeUpgrade_parts executed
  obtain ⟨first,p,since,rfl,backed⟩ := runs_backed path wasmHash pending
  rw [backed.eta] at elapsed
  exact ⟨first,p,since,rfl,backed.proposed,elapsed,backed.undisturbed,config,configured,
    getUpgradeApprovals s,backed.distinct,met,backed.approved⟩

namespace Sample
def admin : Address := .repeated 0x41
def alice : Address := .repeated 0x42
def bob : Address := .repeated 0x44
def wasm : Bytes := List.replicate 32 0x57
def env (now : Nat) : Env := ⟨now,fun _ => true,.repeated 0x43,fun _ _ => 0,fun _ _ _ _ => true⟩

def approved : List (Nat × Call) :=
  [(0,.initializeProxy admin (.repeated 0x49)),(0,.initMultisig admin [alice,bob] 2),(1000,.proposeUpgrade admin wasm),
    (2000,.approveUpgrade alice),(3000,.approveUpgrade bob)]

def run (inputs : List (Nat × Call)) : Outcome (Trace × Storage) :=
  Runs.replay (step (· == wasm)) empty (inputs.map (fun (now,call) => (env now,call)))

def executed (s : Storage) : Option (Bytes × Storage) := (executeUpgrade (· == wasm) (env 173800) s alice).toOption
end Sample

open Sample

theorem approved_upgrade_gated : ∃ ts s next first p since, Runs.Run (step (· == wasm)) empty ts s ∧
    executeUpgrade (· == wasm) (env 173800) s alice = .ok (wasm,next) ∧
    ts = first ++ p :: since ∧ p.input.1.timestamp + 172800 ≤ 173800 := by
  have replayed : (run approved).map (fun result => (executed result.2).map Prod.fst) =
      .ok (some wasm) := by rfl
  obtain ⟨ts,s,path,observed⟩ := Runs.replay_observed replayed
  obtain ⟨⟨_,next⟩,ran,same⟩ := Option.map_eq_some_iff.mp observed
  subst same
  have executed := ok_of_toOption ran
  obtain ⟨first,p,since,cut,_,elapsed,_⟩ := upgrade_gated path executed
  exact ⟨ts,s,next,first,p,since,path,executed,cut,elapsed⟩

end StellarPriceOracle.ProxyUpgrade
