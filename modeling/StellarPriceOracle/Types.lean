import Mathlib.Algebra.Group.Nat.Defs
import Mathlib.Algebra.Group.Int.Defs
import StellarPriceOracle.Library.KeyedStore
import StellarPriceOracle.Library.Guarded

namespace StellarPriceOracle
open Guarded (addBelow require someOr)

abbrev Bytes := List UInt8

-- soroban_sdk::String is a host byte string; its length is counted in bytes.
abbrev Str := List UInt8

-- An address is identified with its strkey text, always 56 characters long.
structure Address where
  strkey : Str
  size : strkey.length = 56
  deriving DecidableEq

def Address.repeated (byte : UInt8) : Address := ⟨List.replicate 56 byte,by simp⟩

-- Codes 1 to 49 are errors.rs; the last group is not declared there.
inductive OracleError where
  | unauthorizedSource | adminOnly | assetNotFound | priceTooOld | invalidDecimals
  | alreadyInitialized | sourceAlreadyExists | priceDeviationTooLarge | notASigner
  | proposalNotFound | proposalAlreadyExecuted | alreadyApproved | invalidThreshold
  | thresholdNotMet | multiSigNotInitialized | governanceNotInitialized
  | governanceAlreadyInitialized | insufficientVotingPower | proposalDefeated
  | proposalCancelled | votingNotActive | alreadyVoted | timeLockNotElapsed | guardianOnly
  | invalidGovernanceConfig | invalidMerkleProof | batchNonceMismatch | batchRootNotFound
  | upgradeNotProposed | upgradeTimelockNotElapsed | upgradeAlreadyApproved | invalidPrice
  | contractPaused | batchEntryAlreadyApplied | stakeTokenMismatch | stakeTokenNotRecorded
  | treasuryNotConfigured | invalidSlashAmount | noStakeToSlash | invalidStakeAmount
  | invalidTtlBounds | ttlSubFloor | noPendingAdmin | adminTransferWindowElapsed
  | proposalExpired | evidenceVersionMismatch | evidenceMismatch | evidenceMissing
  | snapshotUnavailable
  | assetNameTooLong | batchIndexOutOfRange | unsupportedProposalAction
  | insufficientSigners | tooManySigners | duplicateSigner | proposalCancelledError
  | invalidCatalogVersion | feeTokenNotConfigured | notWhitelisted
  deriving DecidableEq

-- A call fails with a code or traps; Soroban rolls storage back either way.
inductive Failure where
  | code (error : OracleError)
  | trap
  deriving DecidableEq

abbrev Outcome := Except Failure

abbrev ensure (condition : Prop) [Decidable condition] (error : OracleError) : Outcome Unit :=
  require condition (.code error)

abbrev okOr (value : Option α) (error : OracleError) : Outcome α := someOr value (.code error)

abbrev addU32 (a b : Nat) : Outcome Nat := addBelow (2^32) .trap a b
abbrev addU64 (a b : Nat) : Outcome Nat := addBelow (2^64) .trap a b
abbrev addI128 (a b : Int) : Outcome Int := Guarded.addWithin (-2^127) (2^127) .trap a b

-- What one invocation sees; `transfer` tells whether a SEP-41 transfer goes through.
structure Env where
  timestamp : Nat
  authorized : Address → Bool
  contract : Address
  balance : (token account : Address) → Int
  transfer : (token sender receiver : Address) → Int → Bool

def requireAuth (env : Env) (account : Address) : Outcome Unit :=
  require (env.authorized account = true) .trap

@[simp] theorem requireAuth_ok : requireAuth env account = .ok u ↔ env.authorized account = true := by
  simp [requireAuth]

structure PriceDataPoint where
  asset : Str
  price : Int
  (decimals timestamp : Nat)
  source : Address
  deriving DecidableEq

structure BatchPriceEntry where
  asset : Str
  price : Int
  (decimals timestamp : Nat)
  source : Address
  deriving DecidableEq

structure MerkleProof where
  leafIndex : Nat
  siblings : List Bytes
  deriving DecidableEq

structure SourceReputation where
  (score totalSubmissions accurateSubmissions lastUpdated : Nat)
  deriving DecidableEq

structure MultiSigConfig where
  signers : List Address
  threshold : Nat
  deriving DecidableEq

structure GovernanceConfig where
  token : Address
  (votingPeriod timelockDelay : Nat)
  (quorum proposalThreshold : Int)
  guardian : Address
  deriving DecidableEq

inductive ProposalAction where
  | addSource (source : Address) (name : Str)
  | removeSource (source : Address)
  | setTrustedAsset (asset : Str) (trusted : Bool)
  | transferAdmin (newAdmin : Address)
  | setDeviationThreshold (thresholdBps : Nat)
  | resetReputation (source : Address)
  | addSigner (newSigner : Address)
  | removeSigner (signer : Address)
  | setThreshold (newThreshold : Nat)
  | setAdmin (newAdmin : Address)
  | addOracleSource (source : Address) (name : Str)
  | removeOracleSource (source : Address)
  | updateGovernanceConfig (newConfig : GovernanceConfig)
  | pause
  | unpause
  | setStakeTreasury (treasury : Address)
  | updateAssetDecimals (asset : Str) (newDecimals : Nat)
  | commitFeedCatalog (version : Nat) (catalogHash : Bytes)
  deriving DecidableEq

structure FeedCatalogCommitment where
  version : Nat
  catalogHash : Bytes
  updatedAt : Nat
  publisher : Address
  deriving DecidableEq

structure MultiSigProposal where
  id : Nat
  action : ProposalAction
  approvals : List Address
  (executed cancelled createdAt : Nat)
  proposer : Address
  deriving DecidableEq

inductive ProposalStatus where
  | active | queued | ready | executed | defeated | cancelled
  deriving DecidableEq

structure GovernanceProposal where
  id : Nat
  proposer : Address
  action : ProposalAction
  description : Str
  (votesFor votesAgainst : Int)
  (votingStart votingEnd executionTime : Nat)
  status : ProposalStatus
  deriving DecidableEq

-- The write paths that submission.rs asks `is_write_path_paused` about.
inductive WritePath where
  | submitPrice | submitBatch | applyBatchEntry
  deriving DecidableEq

inductive DataKey where
  | admin | paused
  | source (account : Address)
  | sourceName (account : Address)
  | latestPrice (asset : Str)
  | priceHistory (asset : Str)
  | trustedAsset (asset : Str)
  | allAssets | sourceCount
  | implementation | previousImplementation | contractVersion | storageLayoutVersion
  | deviationThreshold
  | sourceReputation (account : Address)
  | batchNonce
  | batchRoot (nonce : Nat)
  | batchSize (nonce : Nat)
  | batchAppliedLeaves (nonce : Nat)
  | batchPruneWatermark
  | queryFee
  | whitelist (account : Address)
  | feeBalance | feeToken
  | stakeInfo (account : Address)
  | stakeToken (account : Address)
  | stakeTreasury
  | slashCount (account : Address)
  | multiSigConfig | proposalCount
  | multiSigProposal (id : Nat)
  | governanceConfig | governanceProposalCount
  | governanceProposal (id : Nat)
  | vote (id : Nat) (account : Address)
  | pendingUpgradeHash | pendingUpgradeEta | upgradeApprovals
  | canaryImplementation | canaryTrafficShareBps
  | pendingAdmin
  | feedPaused (feed : Str)
  | writePathPaused (path : WritePath)
  | feedCatalogCommitment
  deriving DecidableEq

@[reducible] def DataKey.Value : DataKey → Type
  | .admin | .implementation | .previousImplementation | .feeToken | .stakeToken _
  | .stakeTreasury | .canaryImplementation => Address
  | .paused | .source _ | .trustedAsset _ | .whitelist _ | .feedPaused _
  | .writePathPaused _ | .vote _ _ => Bool
  | .sourceName _ => Str
  | .latestPrice _ => PriceDataPoint
  | .priceHistory _ => List PriceDataPoint
  | .allAssets => List Str
  | .sourceCount | .contractVersion | .storageLayoutVersion | .deviationThreshold | .batchNonce
  | .batchSize _ | .batchPruneWatermark | .slashCount _ | .proposalCount
  | .governanceProposalCount | .pendingUpgradeEta | .canaryTrafficShareBps => Nat
  | .sourceReputation _ => SourceReputation
  | .batchRoot _ | .pendingUpgradeHash => Bytes
  | .batchAppliedLeaves _ => List Nat
  | .queryFee | .feeBalance | .stakeInfo _ => Int
  | .multiSigConfig => MultiSigConfig
  | .multiSigProposal _ => MultiSigProposal
  | .governanceConfig => GovernanceConfig
  | .governanceProposal _ => GovernanceProposal
  | .upgradeApprovals => List Address
  | .pendingAdmin => Address × Nat
  | .feedCatalogCommitment => FeedCatalogCommitment

def DataKey.BatchSlot (nonce : Nat) (k : DataKey) : Prop :=
  k = .batchRoot nonce ∨ k = .batchSize nonce ∨ k = .batchAppliedLeaves nonce

-- One store for instance and persistent entries: no key is used in both.
abbrev Storage := KeyedStore DataKey DataKey.Value

end StellarPriceOracle
