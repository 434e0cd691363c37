import StellarPriceOracle.MultiSigAdmin

namespace StellarPriceOracle.MultiSigUsable
open Guarded Storage Utils MultiSigAdmin
open KeyedStore (get_set empty)
open Runs (Run states)

variable {id : Nat}

structure Usable (config : MultiSigConfig) : Prop where
  distinct : config.signers.Nodup
  positive : 1 ≤ config.threshold
  reachable : config.threshold ≤ config.signers.length

def amended (config : MultiSigConfig) : ProposalAction → MultiSigConfig
  | .addSigner newSigner =>
    if vecContainsAddress config.signers newSigner then config
    else {config with signers := config.signers ++ [newSigner]}
  | .removeSigner signer => {config with signers := config.signers.filter (· ≠ signer)}
  | .setThreshold newThreshold => {config with threshold := newThreshold}
  | _ => config

theorem applyLocal_config (conf : getMultisigConfig s = some config) :
    getMultisigConfig (applyLocalMultisigAction s action) = some (amended config action) := by
  cases action with
  | addSigner =>
    simp only [applyLocalMultisigAction,conf,amended]
    split
    · exact conf
    · exact get_set
  | removeSigner signer | setThreshold newThreshold =>
    simp only [applyLocalMultisigAction,conf]
    exact get_set
  | _ => exact conf

def Fits (config : MultiSigConfig) : ProposalAction → Prop
  | .removeSigner signer => config.threshold ≤ (config.signers.filter (· ≠ signer)).length
  | .setThreshold newThreshold => 1 ≤ newThreshold ∧ newThreshold ≤ config.signers.length
  | _ => True

instance (config : MultiSigConfig) (action : ProposalAction) : Decidable (Fits config action) := by
  cases action <;> unfold Fits <;> infer_instance

theorem append_usable (usable : Usable config) (fresh : a ∉ config.signers) :
    Usable {config with signers := config.signers ++ [a]} := by
  refine ⟨?_,usable.positive,?_⟩
  · simpa using usable.distinct.concat fresh
  · have bound := usable.reachable
    simp only [List.length_append,List.length_singleton]
    omega

theorem amended_exact (usable : Usable config) (action : ProposalAction) : Fits config action ↔ Usable (amended config action) := by
  cases action with
  | addSigner =>
    simp only [Fits,amended,true_iff]
    split
    · exact usable
    · rename_i absent
      exact append_usable usable (fun member => absent (vecContainsAddress_iff.mpr member))
  | removeSigner =>
    constructor
    · intro enough
      exact ⟨usable.distinct.filter _,usable.positive,enough⟩
    · exact Usable.reachable
  | setThreshold =>
    constructor
    · intro fits
      exact ⟨usable.distinct,fits.1,fits.2⟩
    · intro still
      exact ⟨still.positive,still.reachable⟩
  | _ => exact ⟨fun _ => usable,fun _ => trivial⟩

@[simp] def configAfter (s : Storage) : Call → Option MultiSigConfig
  | .initializeMultisig signers threshold => some ⟨signers,threshold⟩
  | .executeProposal _ id =>
    match getMultisigConfig s,getMultisigProposal s id with
    | some config,some proposal => some (amended config proposal.action)
    | _,_ => getMultisigConfig s
  | _ => getMultisigConfig s

theorem step_configAfter (ran : step s (env,call) = .ok next) : getMultisigConfig next = configAfter s call := by
  cases call with
  | initializeMultisig =>
    obtain ⟨_,_,⟨⟩⟩ := bind_ok.mp ran
    simp [getMultisigConfig,setMsigProposalCount,setMultisigConfig]
  | createProposal =>
    obtain ⟨_,_,_,_,rfl⟩ := create_parts ran
    simp [getMultisigConfig,setMsigProposalCount,setMultisigProposal]
  | approveProposal =>
    obtain ⟨_,_,_,_,_,rfl⟩ := approve_parts ran
    simp [getMultisigConfig,setMultisigProposal]
  | executeProposal =>
    obtain ⟨_,p,conf,has,_,_,rfl⟩ := execute_parts ran
    have kept : ∀ base : Storage, getMultisigConfig (setMultisigProposal base {p with executed := 1}) =
        getMultisigConfig base := fun _ => KeyedStore.get_set_ne (by simp)
    rw [kept,applyLocal_config conf]
    simp [conf,has]

-- `initialize` allows repeated signers, and execution does not validate what it writes.
def Sound (s : Storage) : Call → Prop
  | .initializeMultisig signers _ => signers.Nodup
  | .executeProposal _ id =>
    ∀ config ∈ getMultisigConfig s, ∀ proposal ∈ getMultisigProposal s id, Fits config proposal.action
  | _ => True

instance (s : Storage) (call : Call) : Decidable (Sound s call) := by
  cases call <;> unfold Sound <;> infer_instance

theorem step_sound (ran : step s (env,call) = .ok next) (usable : ∀ config ∈ getMultisigConfig s, Usable config) :
    Sound s call ↔ ∀ config ∈ getMultisigConfig next, Usable config := by
  rw [step_configAfter ran]
  cases call with
  | initializeMultisig =>
    obtain ⟨_,_⟩ := guard_ok.mp ran
    constructor
    · intro distinct config chosen
      cases chosen
      exact ⟨distinct,by simp only; omega,by simp only; omega⟩
    · intro valid
      exact (valid _ rfl).distinct
  | executeProposal =>
    obtain ⟨config,p,conf,has,_⟩ := execute_parts ran
    have fits := amended_exact (usable config conf) p.action
    simpa [Sound,conf,has] using fits
  | createProposal proposer action | approveProposal signer target => exact ⟨fun _ => usable,fun _ => trivial⟩

-- The configuration stays usable exactly along runs from distinct signers that respect its threshold.
theorem multisig_usable_exact (path : Run step empty ts s) :
    (∀ t ∈ ts, Sound t.before t.input.2) ↔
      ∀ r ∈ states empty ts, ∀ config ∈ getMultisigConfig r, Usable config := by
  apply path.always_exact
  · intro _ configured
    cases configured
  · intro t present usable
    exact step_sound (path.accepted present) usable

namespace Sample
open MultiSigAdmin.Sample

def bobLeaves (signers : List Address) : List Call :=
  [.initializeMultisig signers 2,.createProposal alice (.removeSigner bob),.approveProposal bob 0,.executeProposal alice 0]
end Sample

open Sample

theorem third_signer_suffices : ∃ ts s, Run step empty ts s ∧
    (∀ r ∈ states empty ts, ∀ config ∈ getMultisigConfig r, Usable config) ∧
    getMultisigConfig s = some ⟨[alice,carol],2⟩ := by
  have replayed : (run (bobLeaves [alice,bob,carol])).map (fun result =>
      (decide (∀ t ∈ result.1, Sound t.before t.input.2),getMultisigConfig result.2)) =
        .ok (true,some ⟨[alice,carol],2⟩) := by rfl
  obtain ⟨ts,last,path,sound,config⟩ := Runs.replay_pair replayed
  exact ⟨ts,last,path,(multisig_usable_exact path).mp (of_decide_eq_true sound),config⟩

-- Two of two sign a removal; afterwards no proposal can reach two approvals.
theorem threshold_out_of_reach : ∃ ts s config, Run step empty ts s ∧
    getMultisigConfig s = some config ∧ config.signers.length < config.threshold := by
  have replayed : (run (bobLeaves [alice,bob])).map (fun result =>
      getMultisigConfig result.2) = .ok (some ⟨[alice],2⟩) := by rfl
  obtain ⟨ts,last,path,config⟩ := Runs.replay_observed replayed
  exact ⟨ts,last,_,path,config,by decide⟩

end StellarPriceOracle.MultiSigUsable
