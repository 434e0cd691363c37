import StellarPriceOracle.Types

namespace StellarPriceOracle.Storage
open Guarded
open KeyedStore

def maxHistoryLen : Nat := 100

def setAdmin (s : Storage) (admin : Address) : Storage := s.set .admin admin
def hasAdmin (s : Storage) : Bool := (s.get .admin).isSome
def getAdmin (s : Storage) : Outcome Address := someOr (s.get .admin) .trap

def verifyAdmin (s : Storage) (admin : Address) : Outcome Unit := do
  let stored ← okOr (s.get .admin) .adminOnly
  ensure (stored = admin) .adminOnly

@[simp] theorem verifyAdmin_ok : verifyAdmin s admin = .ok u ↔ s.get .admin = some admin := by
  simp [verifyAdmin]

def adminTransferWindowSeconds : Nat := 259200

def setPendingAdmin (s : Storage) (pending : Address) (deadline : Nat) : Storage :=
  s.set .pendingAdmin (pending,deadline)
def getPendingAdmin (s : Storage) : Option (Address × Nat) := s.get .pendingAdmin
def clearPendingAdmin (s : Storage) : Storage := s.remove .pendingAdmin

def setPaused (s : Storage) (paused : Bool) : Storage := s.set .paused paused
def isPaused (s : Storage) : Bool := (s.get .paused).getD false
def setFeedPaused (s : Storage) (feed : Str) (paused : Bool) : Storage := s.set (.feedPaused feed) paused
def isFeedPaused (s : Storage) (feed : Str) : Bool := (s.get (.feedPaused feed)).getD false
def setWritePathPaused (s : Storage) (path : WritePath) (paused : Bool) : Storage :=
  s.set (.writePathPaused path) paused
def isWritePathPaused (s : Storage) (path : WritePath) : Bool := (s.get (.writePathPaused path)).getD false

def setStorageLayoutVersion (s : Storage) (version : Nat) : Storage := s.set .storageLayoutVersion version

def setImplementation (s : Storage) (implementation : Address) : Storage := s.set .implementation implementation
def getImplementation (s : Storage) : Option Address := s.get .implementation
def setPreviousImplementation (s : Storage) (implementation : Address) : Storage :=
  s.set .previousImplementation implementation
def setContractVersion (s : Storage) (version : Nat) : Storage := s.set .contractVersion version
def getContractVersion (s : Storage) : Nat := (s.get .contractVersion).getD 0

def isAuthorizedSource (s : Storage) (source : Address) : Bool := (s.get (.source source)).isSome
def getSourceCount (s : Storage) : Nat := (s.get .sourceCount).getD 0

-- A source that is registered again keeps its name and is not counted.
def addSource (s : Storage) (source : Address) (name : Str) : Outcome Storage := do
  let alreadyPresent := isAuthorizedSource s source
  let s := s.set (.source source) true
  if alreadyPresent then .ok s else do
    let s := s.set (.sourceName source) name
    let count ← addU32 (getSourceCount s) 1
    .ok (s.set .sourceCount count)

theorem addSource_get (ran : addSource s source name = .ok next) (registered : k ≠ .source source)
    (named : k ≠ .sourceName source) (counted : k ≠ .sourceCount) : next.get k = s.get k := by
  simp only [addSource] at ran
  split at ran
  · cases ran
    simp [registered]
  · obtain ⟨_,_,⟨⟩⟩ := bind_ok.mp ran
    simp [registered,named,counted]

def removeSource (s : Storage) (source : Address) : Storage :=
  if isAuthorizedSource s source then
    let s := (s.remove (.source source)).remove (.sourceName source)
    let count := getSourceCount s
    if 0 < count then s.set .sourceCount (count - 1) else s
  else s

theorem removeSource_get (registered : k ≠ .source source) (named : k ≠ .sourceName source)
    (counted : k ≠ .sourceCount) : (removeSource s source).get k = s.get k := by
  simp only [removeSource]
  split
  · split <;> simp [registered,named,counted]
  · rfl

def getAllAssets (s : Storage) : List Str := (s.get .allAssets).getD []
def getLatestPrice (s : Storage) (asset : Str) : Option PriceDataPoint := s.get (.latestPrice asset)

def setLatestPrice (s : Storage) (asset : Str) (point : PriceDataPoint) : Storage :=
  let isNew := (getLatestPrice s asset).isNone
  let s := s.set (.latestPrice asset) point
  if isNew then s.set .allAssets (getAllAssets s ++ [asset]) else s

@[simp] theorem setLatestPrice_self : (setLatestPrice s asset point).get (.latestPrice asset) = some point := by
  simp only [setLatestPrice]
  split <;> simp

@[simp] theorem setLatestPrice_get (other : k ≠ .latestPrice asset) (assets : k ≠ .allAssets) :
    (setLatestPrice s asset point).get k = s.get k := by
  simp only [setLatestPrice]
  split <;> simp [other,assets]

def getPriceHistory (s : Storage) (asset : Str) : List PriceDataPoint := (s.get (.priceHistory asset)).getD []
def setPriceHistory (s : Storage) (asset : Str) (history : List PriceDataPoint) : Storage :=
  s.set (.priceHistory asset) history

def setTrustedAsset (s : Storage) (asset : Str) (trusted : Bool) : Storage := s.set (.trustedAsset asset) trusted
def isTrustedAsset (s : Storage) (asset : Str) : Bool := (s.get (.trustedAsset asset)).getD false
def setDeviationThreshold (s : Storage) (thresholdBps : Nat) : Storage := s.set .deviationThreshold thresholdBps
def getDeviationThreshold (s : Storage) : Option Nat := s.get .deviationThreshold

def getBatchNonce (s : Storage) : Nat := (s.get .batchNonce).getD 0

def incrementBatchNonce (s : Storage) : Outcome (Nat × Storage) := do
  let next ← addU64 (getBatchNonce s) 1
  .ok (next,s.set .batchNonce next)

def retainedBatchRoots : Nat := 16

def getBatchPruneWatermark (s : Storage) : Nat := (s.get .batchPruneWatermark).getD 0

-- The body of the pruning loop, run `count` times from nonce `k` on.
def pruneFrom : Nat → Nat → Storage → Storage
  | 0,_,s => s
  | count+1,k,s =>
    pruneFrom count (k+1) (((s.remove (.batchRoot k)).remove (.batchSize k)).remove (.batchAppliedLeaves k))

theorem pruneFrom_get (kept : ∀ m, first ≤ m → m < first + count → ¬ k.BatchSlot m) : (pruneFrom count first s).get k = s.get k := by
  induction count generalizing first s with
  | zero => rfl
  | succ _ ih =>
    have here := kept first (by omega) (by omega)
    simp only [DataKey.BatchSlot,not_or] at here
    rw [pruneFrom,ih (fun m _ _ => kept m (by omega) (by omega))]
    simp [here]

theorem pruneFrom_gone (slot : k.BatchSlot m) (low : first ≤ m) (high : m < first + count) :
    (pruneFrom count first s).get k = none := by
  induction count generalizing first s with
  | zero => omega
  | succ _ ih =>
    rw [pruneFrom]
    rcases eq_or_ne m first with rfl | _
    · rw [pruneFrom_get]
      · rcases slot with rfl | rfl | rfl <;> simp
      · intro _ _ _
        rcases slot with rfl | rfl | rfl <;> simp [DataKey.BatchSlot] <;> omega
    · exact ih (by omega) (by omega)

def pruneBatchRoots (s : Storage) (currentNonce : Nat) : Storage :=
  let keepFrom := currentNonce - retainedBatchRoots
  let watermark := getBatchPruneWatermark s
  let pruneTo := min (max keepFrom watermark) currentNonce
  let s := pruneFrom (pruneTo - watermark) watermark s
  if watermark < pruneTo then s.set .batchPruneWatermark pruneTo else s

theorem pruneBatchRoots_get (watermark : k ≠ .batchPruneWatermark) (slot : ∀ m, ¬ k.BatchSlot m) :
    (pruneBatchRoots s current).get k = s.get k := by
  simp only [pruneBatchRoots]
  split
  · rw [get_set_ne watermark,pruneFrom_get (fun m _ _ => slot m)]
  · rw [pruneFrom_get (fun m _ _ => slot m)]

-- One commit prunes at most the nonce that falls out of the window.
section
variable (behind : getBatchPruneWatermark s = nonce - retainedBatchRoots)
include behind

theorem pruneBatchRoots_watermark : getBatchPruneWatermark (pruneBatchRoots s (nonce+1)) = nonce + 1 - retainedBatchRoots := by
  have quiet : ∀ count first, (pruneFrom count first s).get .batchPruneWatermark = s.get .batchPruneWatermark := by
    intro _ _
    exact pruneFrom_get (fun m _ _ => by simp [DataKey.BatchSlot])
  simp only [pruneBatchRoots,behind]
  unfold retainedBatchRoots at behind ⊢
  split
  · simp only [getBatchPruneWatermark,get_set,Option.getD_some]
    omega
  · rw [getBatchPruneWatermark,quiet]
    change getBatchPruneWatermark s = _
    omega

theorem pruneBatchRoots_slot (slot : k.BatchSlot m) : (pruneBatchRoots s (nonce+1)).get k =
      if nonce - retainedBatchRoots ≤ m ∧ m < nonce + 1 - retainedBatchRoots then none else s.get k := by
  have cell : k ≠ .batchPruneWatermark := by
    rintro rfl
    simp [DataKey.BatchSlot] at slot
  have looped : (pruneBatchRoots s (nonce+1)).get k = (pruneFrom (nonce + 1 - retainedBatchRoots -
      (nonce - retainedBatchRoots)) (nonce - retainedBatchRoots) s).get k := by
    have target : min (max (nonce + 1 - retainedBatchRoots) (nonce - retainedBatchRoots)) (nonce+1) =
        nonce + 1 - retainedBatchRoots := by
      unfold retainedBatchRoots
      omega
    simp only [pruneBatchRoots,behind,target]
    split
    · exact get_set_ne cell
    · rfl
  rw [looped]
  split
  · rename_i gone
    exact pruneFrom_gone slot gone.1 (by omega)
  · rename_i kept
    refine pruneFrom_get ?_
    intro other _ _ owned
    have same : other = m := by
      rcases slot with rfl | rfl | rfl <;> simpa [DataKey.BatchSlot,eq_comm] using owned
    subst same
    omega

end

def setBatchRoot (s : Storage) (nonce : Nat) (root : Bytes) : Outcome Storage := do
  let s := s.set (.batchRoot nonce) root
  let current ← addU64 nonce 1
  .ok (pruneBatchRoots s current)

def setBatchSize (s : Storage) (nonce size : Nat) : Storage := s.set (.batchSize nonce) size
def getBatchSize (s : Storage) (nonce : Nat) : Option Nat := s.get (.batchSize nonce)
def getBatchRoot (s : Storage) (nonce : Nat) : Option Bytes := s.get (.batchRoot nonce)
def getBatchAppliedLeaves (s : Storage) (nonce : Nat) : List Nat := (s.get (.batchAppliedLeaves nonce)).getD []

def markBatchLeafApplied (s : Storage) (nonce leafIndex : Nat) : Outcome Storage := do
  let applied := getBatchAppliedLeaves s nonce
  ensure (leafIndex ∉ applied) .batchEntryAlreadyApplied
  .ok (s.set (.batchAppliedLeaves nonce) (applied ++ [leafIndex]))

def setQueryFee (s : Storage) (fee : Int) : Storage := s.set .queryFee fee
def setWhitelist (s : Storage) (account : Address) (status : Bool) : Storage := s.set (.whitelist account) status
def getFeeBalance (s : Storage) : Int := (s.get .feeBalance).getD 0
def setFeeBalance (s : Storage) (balance : Int) : Storage := s.set .feeBalance balance
def setFeeToken (s : Storage) (token : Address) : Storage := s.set .feeToken token
def getFeeToken (s : Storage) : Option Address := s.get .feeToken

def setSourceReputation (s : Storage) (source : Address) (reputation : SourceReputation) : Storage :=
  s.set (.sourceReputation source) reputation
def getSourceReputation (s : Storage) (source : Address) : Option SourceReputation := s.get (.sourceReputation source)
def removeSourceReputation (s : Storage) (source : Address) : Storage := s.remove (.sourceReputation source)

def setMultisigConfig (s : Storage) (config : MultiSigConfig) : Storage := s.set .multiSigConfig config
def getMultisigConfig (s : Storage) : Option MultiSigConfig := s.get .multiSigConfig
def getMsigProposalCount (s : Storage) : Nat := (s.get .proposalCount).getD 0
def setMsigProposalCount (s : Storage) (count : Nat) : Storage := s.set .proposalCount count
def setMultisigProposal (s : Storage) (proposal : MultiSigProposal) : Storage :=
  s.set (.multiSigProposal proposal.id) proposal
def getMultisigProposal (s : Storage) (id : Nat) : Option MultiSigProposal := s.get (.multiSigProposal id)

theorem setMultisigProposal_read (s : Storage) (p : MultiSigProposal) (id : Nat) :
    getMultisigProposal (setMultisigProposal s p) id = if id = p.id then some p else getMultisigProposal s id := by
  rcases eq_or_ne id p.id with rfl | same
  · simp [getMultisigProposal,setMultisigProposal]
  · simp [getMultisigProposal,setMultisigProposal,same]

def setGovConfig (s : Storage) (config : GovernanceConfig) : Storage := s.set .governanceConfig config
def getGovConfig (s : Storage) : Option GovernanceConfig := s.get .governanceConfig
def getProposalCount (s : Storage) : Nat := (s.get .governanceProposalCount).getD 0

def incrementProposalCount (s : Storage) : Outcome (Nat × Storage) := do
  let next ← addU32 (getProposalCount s) 1
  .ok (next,s.set .governanceProposalCount next)

def setGovProposal (s : Storage) (proposal : GovernanceProposal) : Storage :=
  s.set (.governanceProposal proposal.id) proposal
def getGovProposal (s : Storage) (id : Nat) : Option GovernanceProposal := s.get (.governanceProposal id)

theorem setGovProposal_read (s : Storage) (p : GovernanceProposal) (id : Nat) :
    getGovProposal (setGovProposal s p) id = if id = p.id then some p else getGovProposal s id := by
  rcases eq_or_ne id p.id with rfl | same
  · simp [getGovProposal,setGovProposal]
  · simp [getGovProposal,setGovProposal,same]

def recordVote (s : Storage) (id : Nat) (voter : Address) (support : Bool) : Storage := s.set (.vote id voter) support
def hasVoted (s : Storage) (id : Nat) (voter : Address) : Bool := (s.get (.vote id voter)).isSome

def getStake (s : Storage) (account : Address) : Int := (s.get (.stakeInfo account)).getD 0
def setStake (s : Storage) (account : Address) (amount : Int) : Storage := s.set (.stakeInfo account) amount
def getStakeToken (s : Storage) (account : Address) : Option Address := s.get (.stakeToken account)
def setStakeToken (s : Storage) (account token : Address) : Storage := s.set (.stakeToken account) token
def getStakeTreasury (s : Storage) : Option Address := s.get .stakeTreasury
def setStakeTreasury (s : Storage) (treasury : Address) : Storage := s.set .stakeTreasury treasury
def getSlashCount (s : Storage) (account : Address) : Nat := (s.get (.slashCount account)).getD 0
def setSlashCount (s : Storage) (account : Address) (count : Nat) : Storage := s.set (.slashCount account) count

def setPendingUpgrade (s : Storage) (wasmHash : Bytes) (eta : Nat) : Storage :=
  ((s.set .pendingUpgradeHash wasmHash).set .pendingUpgradeEta eta).set .upgradeApprovals []
def getPendingUpgrade (s : Storage) : Option Bytes := s.get .pendingUpgradeHash
def getPendingUpgradeEta (s : Storage) : Option Nat := s.get .pendingUpgradeEta
def clearPendingUpgrade (s : Storage) : Storage :=
  ((s.remove .pendingUpgradeHash).remove .pendingUpgradeEta).remove .upgradeApprovals
def getUpgradeApprovals (s : Storage) : List Address := (s.get .upgradeApprovals).getD []
def recordUpgradeApproval (s : Storage) (signer : Address) : Storage :=
  s.set .upgradeApprovals (getUpgradeApprovals s ++ [signer])

def setCanary (s : Storage) (implementation : Address) (trafficShareBps : Nat) : Storage :=
  (s.set .canaryImplementation implementation).set .canaryTrafficShareBps trafficShareBps
def getCanary (s : Storage) : Option (Address × Nat) :=
  (s.get .canaryImplementation).map (fun implementation => (implementation,(s.get .canaryTrafficShareBps).getD 0))
def clearCanary (s : Storage) : Storage := (s.remove .canaryImplementation).remove .canaryTrafficShareBps

def getFeedCatalogCommitment (s : Storage) : Option FeedCatalogCommitment := s.get .feedCatalogCommitment
def setFeedCatalogCommitment (s : Storage) (commitment : FeedCatalogCommitment) : Storage :=
  s.set .feedCatalogCommitment commitment

end StellarPriceOracle.Storage
