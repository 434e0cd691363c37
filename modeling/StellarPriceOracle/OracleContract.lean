import StellarPriceOracle.MultiSigActions
import StellarPriceOracle.Library.Runs

namespace StellarPriceOracle.OracleContract
open Guarded Storage Submission MultiSigActions
open KeyedStore (get_set_ne get_remove_ne empty Keeps keeps_bind keeps_ok)
open Admin

-- The mutating entry points. The pause calls of admin.rs are not exported; keeping them only adds runs.
inductive Call where
  | initializeContract (admin : Address)
  | submitPrice (source : Address) (asset : Str) (price : Int) (decimals timestamp : Nat)
  | submitBatch (source : Address) (nonce : Nat) (root : Bytes) (batchSize : Nat)
  | applyBatchEntry (batchNonce : Nat) (entry : BatchPriceEntry) (proof : MerkleProof)
  | stake (source : Address) (amount : Int) (token : Address)
  | slash (source : Address) (amount : Int)
  | setStakeTreasury (admin treasury : Address)
  | setDeviationThreshold (admin : Address) (thresholdBps : Nat)
  | resetReputation (admin source : Address)
  | initMultisig (admin : Address) (signers : List Address) (threshold : Nat)
  | createProposal (proposer : Address) (action : ProposalAction)
  | approveProposal (signer : Address) (id : Nat)
  | executeProposal (signer : Address) (id : Nat)
  | cancelProposal (caller : Address) (id : Nat)
  | cancelProposalAsSigner (caller : Address) (id : Nat)
  | expireProposal (caller : Address) (id : Nat)
  | proposeAdmin (admin newAdmin : Address)
  | acceptAdmin (newAdmin : Address)
  | cancelAdminTransfer (admin : Address)
  | addOracleSource (admin source : Address) (name : Str)
  | removeOracleSource (admin source : Address)
  | setTrustedAsset (admin : Address) (asset : Str) (trusted : Bool)
  | setQueryFee (admin : Address) (fee : Int)
  | setWhitelist (admin account : Address) (status : Bool)
  | withdrawFees (admin receiver : Address)
  | setFeeToken (admin token : Address)
  | pauseFeed (admin : Address) (asset : Str)
  | unpauseFeed (admin : Address) (asset : Str)
  | pauseWritePath (admin : Address) (path : WritePath)
  | unpauseWritePath (admin : Address) (path : WritePath)
  deriving DecidableEq

section
variable (host : Host) (verify : Verifier)

-- Storage is returned only on success: Soroban discards the writes of a failed call.
def step (s : Storage) : Env × Call → Outcome Storage
  | (_,.initializeContract admin) => initializeContract s admin
  | (env,.submitPrice source asset price decimals timestamp) => do
    let (_,next) ← submitPrice host env s source asset price decimals timestamp
    .ok next
  | (env,.submitBatch source nonce root batchSize) => do
    let (_,next) ← submitBatch env s source nonce root batchSize
    .ok next
  | (_,.applyBatchEntry batchNonce entry proof) => do
    let (_,next) ← applyBatchEntry host verify s batchNonce entry proof
    .ok next
  | (env,.stake source amount token) => stake env s source amount token
  | (env,.slash source amount) => slash env s source amount
  | (env,.setStakeTreasury admin treasury) => setStakeTreasury env s admin treasury
  | (env,.setDeviationThreshold admin thresholdBps) => setDeviationThreshold env s admin thresholdBps
  | (env,.resetReputation admin source) => resetReputation env s admin source
  | (env,.initMultisig admin signers threshold) => initMultisig env s admin signers threshold
  | (env,.createProposal proposer action) => do
    let (_,next) ← createProposal env s proposer action
    .ok next
  | (env,.approveProposal signer id) => approveProposal env s signer id
  | (env,.executeProposal signer id) => executeProposal env s signer id
  | (env,.cancelProposal caller id) => cancelProposal env s caller id
  | (env,.cancelProposalAsSigner caller id) => cancelProposalAsSigner env s caller id
  | (env,.expireProposal caller id) => expireProposal env s caller id
  | (env,.proposeAdmin admin newAdmin) => proposeAdmin env s admin newAdmin
  | (env,.acceptAdmin newAdmin) => acceptAdmin env s newAdmin
  | (env,.cancelAdminTransfer admin) => cancelAdminTransfer env s admin
  | (env,.addOracleSource admin source name) => addOracleSource host env s admin source name
  | (env,.removeOracleSource admin source) => removeOracleSource env s admin source
  | (env,.setTrustedAsset admin asset trusted) => setTrustedAsset env s admin asset trusted
  | (env,.setQueryFee admin fee) => setQueryFee env s admin fee
  | (env,.setWhitelist admin account status) => setWhitelist env s admin account status
  | (env,.withdrawFees admin receiver) => withdrawFees env s admin receiver
  | (env,.setFeeToken admin token) => setFeeToken env s admin token
  | (env,.pauseFeed admin asset) => pauseFeed env s admin asset
  | (env,.unpauseFeed admin asset) => unpauseFeed env s admin asset
  | (env,.pauseWritePath admin path) => pauseWritePath env s admin path
  | (env,.unpauseWritePath admin path) => unpauseWritePath env s admin path

end

def Touches (s : Storage) : Call → DataKey → Prop
  | .initializeContract _,k => k = .admin ∨ k = .storageLayoutVersion
  | .submitPrice source asset _ _ _,k =>
    k = .latestPrice asset ∨ k = .priceHistory asset ∨ k = .allAssets ∨ k = .sourceReputation source
  | .submitBatch _ _ _ _,k => k = .batchNonce ∨ k = .batchPruneWatermark ∨ ∃ m, k.BatchSlot m
  | .applyBatchEntry nonce entry _,k =>
    k = .batchAppliedLeaves nonce ∨ k = .latestPrice entry.asset ∨ k = .priceHistory entry.asset ∨
      k = .allAssets ∨ k = .sourceReputation entry.source
  | .stake source _ _,k => k = .stakeToken source ∨ k = .stakeInfo source
  | .slash source _,k => k = .stakeInfo source ∨ k = .slashCount source
  | .setStakeTreasury _ _,k => k = .stakeTreasury
  | .setDeviationThreshold _ _,k => k = .deviationThreshold
  | .resetReputation _ source,k => k = .sourceReputation source
  | .initMultisig _ _ _,k => k = .multiSigConfig
  | .createProposal _ _,k => k = .proposalCount ∨ ∃ n, k = .multiSigProposal n
  | .approveProposal _ _,k | .cancelProposal _ _,k | .cancelProposalAsSigner _ _,k | .expireProposal _ _,k =>
    ∃ n, k = .multiSigProposal n
  | .executeProposal _ id,k =>
    ∃ proposal, getMultisigProposal s id = some proposal ∧
      (k = .multiSigProposal proposal.id ∨ MultiSigActions.Touches proposal.action k)
  | .proposeAdmin _ _,k | .cancelAdminTransfer _,k => k = .pendingAdmin
  | .acceptAdmin _,k => k = .admin ∨ k = .pendingAdmin
  | .addOracleSource _ source _,k | .removeOracleSource _ source,k =>
    k = .source source ∨ k = .sourceName source ∨ k = .sourceCount
  | .setTrustedAsset _ asset _,k => k = .trustedAsset asset
  | .setQueryFee _ _,k => k = .queryFee
  | .setWhitelist _ account _,k => k = .whitelist account
  | .withdrawFees _ _,k => k = .feeBalance
  | .setFeeToken _ _,k => k = .feeToken
  | .pauseFeed _ asset,k | .unpauseFeed _ asset,k => k = .feedPaused asset
  | .pauseWritePath _ path,k | .unpauseWritePath _ path,k => k = .writePathPaused path

theorem step_frame (accepted : step host verify s (env,call) = .ok next) (out : ¬ Touches s call k) : next.get k = s.get k := by
  revert accepted
  suffices keeps : Keeps k s (step host verify s (env,call)) from keeps next
  cases call with
  | submitPrice =>
    simp only [Touches,not_or] at out
    simp only [step,keeps_bind,keeps_ok]
    rintro _ submitted
    obtain ⟨_,_,_,_,_,rfl⟩ := submitPrice_parts submitted
    exact writePrice_get out.1 out.2.1 out.2.2.1 out.2.2.2
  | submitBatch _ nonce =>
    simp only [Touches,not_or,not_exists] at out
    have slots := out.2.2 nonce
    simp only [DataKey.BatchSlot,not_or] at slots
    simp only [step,keeps_bind,keeps_ok]
    rintro _ submitted
    obtain ⟨_,_,rfl⟩ := submitBatch_parts submitted
    rw [get_set_ne out.1,get_set_ne slots.2.1,pruneBatchRoots_get out.2.1 out.2.2,get_set_ne slots.1]
  | applyBatchEntry =>
    simp only [Touches,not_or] at out
    simp only [step,keeps_bind,keeps_ok]
    rintro _ applied
    obtain ⟨_,_,_,_,rfl⟩ := applyBatchEntry_parts applied
    rw [writePrice_get out.2.1 out.2.2.1 out.2.2.2.1 out.2.2.2.2,get_set_ne out.1]
  | createProposal =>
    simp only [Touches,not_or,not_exists] at out
    simp only [step,MultiSigActions.createProposal,keeps_bind,keeps_ok,bind_ok,Except.ok.injEq]
    rintro _ ⟨_,_,_,_,_,_,rfl⟩
    simp [setMsigProposalCount,setMultisigProposal,out]
  | executeProposal =>
    rintro _ accepted
    obtain ⟨proposal,applied,got,ran,rfl⟩ := executeProposal_parts accepted
    have quiet := not_exists.mp out proposal
    simp only [got,true_and,not_or] at quiet
    rw [get_set_ne quiet.1,applyProposalAction_get ran quiet.2]
  | addOracleSource =>
    simp only [Touches,not_or] at out
    simp only [step,addOracleSource,keeps_bind]
    rintro _ _ _ _ _ added
    exact addSource_get added out.1 out.2.1 out.2.2
  | removeOracleSource =>
    simp only [Touches,not_or] at out
    simp [step,removeOracleSource,configure,removeSource_get out.1 out.2.1 out.2.2]
  | withdrawFees =>
    simp only [step,withdrawFees,keeps_bind]
    rintro _ _ _ _
    split
    · simp [setFeeBalance,show k ≠ .feeBalance from out]
    · simp
  | initializeContract | stake | slash =>
    simp only [Touches,not_or] at out
    simp [step,initializeContract,stake,slash,setStorageLayoutVersion,setAdmin,setStake,setStakeToken,setSlashCount,out]
  | initMultisig | approveProposal | cancelProposal | cancelProposalAsSigner | expireProposal =>
    simp only [Touches,not_exists] at out
    simp [step,MultiSigActions.initMultisig,approveProposal,cancelProposal,cancelProposalAsSigner,expireProposal,setMultisigConfig,
      setMultisigProposal,out]
  | proposeAdmin | acceptAdmin | cancelAdminTransfer =>
    simp only [Touches,not_or] at out
    simp [step,proposeAdmin,acceptAdmin,cancelAdminTransfer,setPendingAdmin,clearPendingAdmin,setAdmin,out]
  | resetReputation =>
    rintro _ accepted
    obtain ⟨_,rfl⟩ := configure_ok.mp accepted
    exact get_remove_ne out
  | setStakeTreasury | setDeviationThreshold | setTrustedAsset | setQueryFee | setWhitelist | setFeeToken | pauseFeed | unpauseFeed
  | pauseWritePath | unpauseWritePath =>
    rintro _ accepted
    obtain ⟨_,rfl⟩ := configure_ok.mp accepted
    exact get_set_ne out

theorem execute_untouched {id : Nat} (record : ∀ n, k ≠ .multiSigProposal n)
    (actions : ∀ action, ¬ MultiSigActions.Touches action k) : ¬ Touches s (.executeProposal signer id) k := by
  intro touched
  obtain ⟨_,_,own | action⟩ := touched
  · exact record _ own
  · exact actions _ action

namespace Sample
def host : Host := ⟨Merkle.Sample.sha256,fun text => ensure (text.length ≤ Merkle.maxStringLen) .assetNameTooLong⟩
def env : Env := ⟨5000,fun _ => true,.repeated 0x43,fun _ _ => 0,fun _ _ _ _ => true⟩
def admin : Address := .repeated 0x41
def asset : Str := [0x58,0x4c,0x4d]
def run (calls : List Call) : Outcome (List (Runs.Transition Storage (Env × Call)) × Storage) :=
  Runs.replay (step host (merkleVerifier host)) empty (calls.map (fun call => (env,call)))
end Sample

end StellarPriceOracle.OracleContract
