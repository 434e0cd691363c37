import StellarPriceOracle.Admin

namespace StellarPriceOracle.MultiSigActions
open Guarded Storage Utils Submission
open KeyedStore (get_set_ne)
open Except (ok)

def proposalExpirySeconds : Nat := 604800
def maxSigners : Nat := 20
def minSigners : Nat := 2

def distinctFrom (dedup : List Address) : List Address → Bool
  | [] => true
  | signer :: rest => if vecContainsAddress dedup signer then false else distinctFrom (dedup ++ [signer]) rest

def validateMultisigConfig (signers : List Address) (threshold : Nat) : Outcome Unit := do
  ensure (minSigners ≤ signers.length) .insufficientSigners
  ensure (signers.length ≤ maxSigners) .tooManySigners
  ensure (threshold ≠ 0 ∧ threshold ≤ signers.length) .invalidThreshold
  ensure (distinctFrom [] signers = true) .duplicateSigner

section
variable (env : Env)

def initMultisig (s : Storage) (admin : Address) (signers : List Address) (threshold : Nat) : Outcome Storage := do
  Admin.asAdmin env s admin
  validateMultisigConfig signers threshold
  .ok (setMultisigConfig s ⟨signers,threshold⟩)

def ensureActionSupported : ProposalAction → Outcome Unit
  | .setAdmin _ | .addOracleSource _ _ | .removeOracleSource _ | .updateGovernanceConfig _ =>
    .error (.code .unsupportedProposalAction)
  | _ => .ok ()

def requireSigner (s : Storage) (signer : Address) : Outcome MultiSigConfig := do
  requireAuth env signer
  let config ← okOr (getMultisigConfig s) .multiSigNotInitialized
  ensure (vecContainsAddress config.signers signer = true) .notASigner
  .ok config

def createProposal (s : Storage) (proposer : Address) (action : ProposalAction) : Outcome (Nat × Storage) := do
  let _ ← requireSigner env s proposer
  ensureActionSupported action
  let id := getMsigProposalCount s
  let s := setMultisigProposal s ⟨id,action,[proposer],0,0,env.timestamp,proposer⟩
  let count ← addU32 id 1
  .ok (id,setMsigProposalCount s count)

def ensureOpen (proposal : MultiSigProposal) : Outcome Unit := do
  ensure (proposal.executed ≠ 1) .proposalAlreadyExecuted
  ensure (proposal.executed ≠ 2) .proposalCancelled
  ensure (proposal.executed ≠ 3) .proposalExpired
  let expiry ← addU64 proposal.createdAt proposalExpirySeconds
  ensure (env.timestamp ≤ expiry) .proposalExpired
  ensure (proposal.cancelled ≠ 1) .proposalCancelledError
  ensure (env.timestamp ≤ expiry) .proposalExpired

def approveProposal (s : Storage) (signer : Address) (id : Nat) : Outcome Storage := do
  let _ ← requireSigner env s signer
  let proposal ← okOr (getMultisigProposal s id) .proposalNotFound
  ensureOpen env proposal
  ensure (vecContainsAddress proposal.approvals signer = false) .alreadyApproved
  .ok (setMultisigProposal s {proposal with approvals := proposal.approvals ++ [signer]})

-- The first of two texts of `cancel_proposal`: proposer or admin cancels, as `executed = 2`.
def cancelProposal (s : Storage) (caller : Address) (id : Nat) : Outcome Storage := do
  requireAuth env caller
  let proposal ← okOr (getMultisigProposal s id) .proposalNotFound
  ensure (proposal.executed ≠ 1) .proposalAlreadyExecuted
  ensure (proposal.executed ≠ 2) .proposalCancelled
  ensure (proposal.executed ≠ 3) .proposalExpired
  ensure (proposal.proposer = caller ∨ (verifyAdmin s caller).toBool = true) .adminOnly
  .ok (setMultisigProposal s {proposal with executed := 2})

-- The second text: the proposer or a current signer, recorded as `cancelled = 1`.
def cancelProposalAsSigner (s : Storage) (caller : Address) (id : Nat) : Outcome Storage := do
  requireAuth env caller
  let config ← okOr (getMultisigConfig s) .multiSigNotInitialized
  let proposal ← okOr (getMultisigProposal s id) .proposalNotFound
  ensure (proposal.executed ≠ 1) .proposalAlreadyExecuted
  ensure (proposal.cancelled ≠ 1) .proposalCancelledError
  ensure (proposal.proposer = caller ∨ vecContainsAddress config.signers caller = true) .notASigner
  .ok (setMultisigProposal s {proposal with cancelled := 1})

def expireProposal (s : Storage) (caller : Address) (id : Nat) : Outcome Storage := do
  requireAuth env caller
  let proposal ← okOr (getMultisigProposal s id) .proposalNotFound
  ensure (proposal.executed ≠ 1) .proposalAlreadyExecuted
  ensure (proposal.executed ≠ 2) .proposalCancelled
  ensure (proposal.executed ≠ 3) .proposalExpired
  let expiry ← addU64 proposal.createdAt proposalExpirySeconds
  ensure (expiry < env.timestamp) .timeLockNotElapsed
  .ok (setMultisigProposal s {proposal with executed := 3})

-- `config` is used after the `if let` that binds it, so `AddSigner` appends in both halves.
def applySignerAction (config : MultiSigConfig) : ProposalAction → Outcome MultiSigConfig
  | .addSigner newSigner => do
    let config := if vecContainsAddress config.signers newSigner then config
      else {config with signers := config.signers ++ [newSigner]}
    ensure (config.signers.length < maxSigners) .tooManySigners
    .ok {config with signers := config.signers ++ [newSigner]}
  | .removeSigner signer => .ok {config with signers := config.signers.filter (· ≠ signer)}
  | .setThreshold newThreshold => .ok {config with threshold := newThreshold}
  | _ => .ok config

section
variable (s : Storage)

def applyToConfig (action : ProposalAction) : Outcome Storage :=
  match getMultisigConfig s with
  | some config => do
    let config ← applySignerAction config action
    .ok (setMultisigConfig s config)
  | none => .ok s

def stageAdmin (newAdmin : Address) : Outcome Storage := do
  let deadline ← addU64 env.timestamp adminTransferWindowSeconds
  let _ ← getAdmin s
  .ok (setPendingAdmin s newAdmin deadline)

def updateAssetDecimals (asset : Str) (newDecimals : Nat) : Outcome Storage := do
  ensure (newDecimals ≤ maxDecimals) .invalidDecimals
  match getLatestPrice s asset with
  | some prev => .ok (setLatestPrice s asset {prev with decimals := newDecimals})
  | none => .ok s

def commitFeedCatalog (signer : Address) (version : Nat) (catalogHash : Bytes) : Outcome Storage := do
  ensure (version ≠ 0) .invalidCatalogVersion
  ensure (∀ existing ∈ getFeedCatalogCommitment s, existing.version < version) .invalidCatalogVersion
  .ok (setFeedCatalogCommitment s ⟨version,catalogHash,env.timestamp,signer⟩)

def applyProposalAction (signer : Address) : ProposalAction → Outcome Storage
  | .addSource source name | .addOracleSource source name => addSource s source name
  | .removeSource source | .removeOracleSource source => .ok (removeSource s source)
  | .setTrustedAsset asset trusted => .ok (setTrustedAsset s asset trusted)
  | .transferAdmin newAdmin | .setAdmin newAdmin => stageAdmin env s newAdmin
  | .setDeviationThreshold thresholdBps => .ok (setDeviationThreshold s thresholdBps)
  | .resetReputation source => .ok (removeSourceReputation s source)
  | .addSigner newSigner => applyToConfig s (.addSigner newSigner)
  | .removeSigner signer => applyToConfig s (.removeSigner signer)
  | .setThreshold newThreshold => applyToConfig s (.setThreshold newThreshold)
  | .pause => .ok (setPaused s true)
  | .unpause => .ok (setPaused s false)
  | .setStakeTreasury treasury => .ok (setStakeTreasury s treasury)
  | .updateAssetDecimals asset newDecimals => updateAssetDecimals s asset newDecimals
  | .commitFeedCatalog version catalogHash => commitFeedCatalog env s signer version catalogHash
  | .updateGovernanceConfig _ => .error (.code .unsupportedProposalAction)

end

end

def Touches : ProposalAction → DataKey → Prop
  | .addSource source _,k | .addOracleSource source _,k | .removeSource source,k | .removeOracleSource source,k =>
    k = .source source ∨ k = .sourceName source ∨ k = .sourceCount
  | .setTrustedAsset asset _,k => k = .trustedAsset asset
  | .transferAdmin _,k | .setAdmin _,k => k = .pendingAdmin
  | .setDeviationThreshold _,k => k = .deviationThreshold
  | .resetReputation source,k => k = .sourceReputation source
  | .addSigner _,k | .removeSigner _,k | .setThreshold _,k => k = .multiSigConfig
  | .pause,k | .unpause,k => k = .paused
  | .setStakeTreasury _,k => k = .stakeTreasury
  | .updateAssetDecimals asset _,k => k = .latestPrice asset
  | .commitFeedCatalog _ _,k => k = .feedCatalogCommitment
  | .updateGovernanceConfig _,_ => False

theorem applyToConfig_get (ran : applyToConfig s action = .ok next) (other : k ≠ .multiSigConfig) : next.get k = s.get k := by
  unfold applyToConfig at ran
  split at ran
  · obtain ⟨_,_,⟨⟩⟩ := bind_ok.mp ran
    simp [setMultisigConfig,other]
  · cases ran
    rfl

theorem updateAssetDecimals_parts (ran : updateAssetDecimals s asset newDecimals = .ok next) :
    (getLatestPrice s asset = none ∧ next = s) ∨ ∃ prev, getLatestPrice s asset = some prev ∧
      next = s.set (.latestPrice asset) {prev with decimals := newDecimals} := by
  unfold updateAssetDecimals at ran
  obtain ⟨_,ran⟩ := guard_ok.mp ran
  cases got : getLatestPrice s asset with
  | none =>
    rw [got] at ran
    cases ran
    exact Or.inl ⟨rfl,rfl⟩
  | some prev =>
    rw [got] at ran
    cases ran
    exact Or.inr ⟨prev,rfl,by simp [setLatestPrice,got]⟩

theorem applyProposalAction_get (ran : applyProposalAction env s signer action = .ok next)
    (out : ¬ Touches action k) : next.get k = s.get k := by
  cases action with
  | addSource source name | addOracleSource source name =>
    simp only [Touches,not_or] at out
    exact addSource_get ran out.1 out.2.1 out.2.2
  | removeSource source | removeOracleSource source =>
    simp only [Touches,not_or] at out
    cases ran
    exact removeSource_get out.1 out.2.1 out.2.2
  | transferAdmin newAdmin | setAdmin newAdmin =>
    simp only [applyProposalAction,stageAdmin,bind_ok,ok.injEq] at ran
    obtain ⟨_,_,_,_,rfl⟩ := ran
    exact get_set_ne out
  | addSigner newSigner | removeSigner signer | setThreshold newThreshold => exact applyToConfig_get ran out
  | setTrustedAsset asset trusted | setDeviationThreshold thresholdBps | pause | unpause
  | setStakeTreasury =>
    cases ran
    exact get_set_ne out
  | resetReputation =>
    cases ran
    exact KeyedStore.get_remove_ne out
  | updateAssetDecimals =>
    obtain ⟨_,rfl⟩ | ⟨_,_,rfl⟩ := updateAssetDecimals_parts ran
    · rfl
    · exact get_set_ne out
  | commitFeedCatalog =>
    simp only [applyProposalAction,commitFeedCatalog,bind_ok,ok.injEq] at ran
    obtain ⟨_,_,_,_,rfl⟩ := ran
    exact get_set_ne out
  | updateGovernanceConfig => cases ran

def executeProposal (env : Env) (s : Storage) (signer : Address) (id : Nat) : Outcome Storage := do
  let config ← requireSigner env s signer
  let proposal ← okOr (getMultisigProposal s id) .proposalNotFound
  ensureOpen env proposal
  ensure (config.threshold ≤ proposal.approvals.length) .thresholdNotMet
  let s ← applyProposalAction env s signer proposal.action
  .ok (setMultisigProposal s {proposal with executed := 1})

theorem executeProposal_parts {id : Nat} (accepted : executeProposal env s signer id = .ok next) :
    ∃ proposal applied, getMultisigProposal s id = some proposal ∧
      applyProposalAction env s signer proposal.action = .ok applied ∧
      next = applied.set (.multiSigProposal proposal.id) {proposal with executed := 1} := by
  simp only [executeProposal,bind_ok,someOr_ok,ok.injEq] at accepted
  obtain ⟨_,_,proposal,got,_,_,_,_,applied,ran,rfl⟩ := accepted
  exact ⟨proposal,applied,got,ran,rfl⟩

end StellarPriceOracle.MultiSigActions
