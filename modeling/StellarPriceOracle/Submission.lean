import StellarPriceOracle.Utils
import StellarPriceOracle.Merkle

namespace StellarPriceOracle.Submission
open Guarded Storage Utils
open Except (ok)

def maxDecimals : Nat := 18

-- merkle.rs does not define `validate_string_len`; the development is parametric in it.
structure Host where
  sha256 : Bytes → Bytes
  validateStringLen : Str → Outcome Unit

abbrev Verifier := Nat → BatchPriceEntry → MerkleProof → Nat → Bytes → Outcome Bool

def merkleVerifier (host : Host) : Verifier := fun _ entry proof batchSize root =>
  Merkle.verifyProof host.sha256 entry proof.leafIndex batchSize proof.siblings root

def checkDecimals (s : Storage) (asset : Str) (decimals : Nat) : Outcome Unit := do
  ensure (decimals ≤ maxDecimals) .invalidDecimals
  match getLatestPrice s asset with
  | some prev => ensure (prev.decimals = decimals) .invalidDecimals
  | none => .ok ()

def checkDeviation (s : Storage) (asset : Str) (price : Int) : Outcome Unit :=
  match getDeviationThreshold s,getLatestPrice s asset with
  | some thresholdBps,some prev =>
    ensure (deviationExceeds price prev.price thresholdBps = false) .priceDeviationTooLarge
  | _,_ => .ok ()

@[simp] theorem checkDeviation_ok : checkDeviation s asset price = .ok u ↔
    ∀ thresholdBps prev, getDeviationThreshold s = some thresholdBps → getLatestPrice s asset = some prev →
      deviationExceeds price prev.price thresholdBps = false := by
  cases bound : getDeviationThreshold s <;> cases got : getLatestPrice s asset <;>
    simp [checkDeviation,bound,got]

-- The storage effect both write paths share once their checks have passed.
def writePrice (s : Storage) (point : PriceDataPoint) : Storage :=
  let s := updateReputation s point.source point.price point.asset point.timestamp
  let s := setLatestPrice s point.asset point
  appendHistory s point.asset point

theorem writePrice_latest (s : Storage) (point : PriceDataPoint) (asset : Str) : getLatestPrice (writePrice s point) asset =
      if asset = point.asset then some point else getLatestPrice s asset := by
  rcases eq_or_ne asset point.asset with rfl | same
  · simp [writePrice,getLatestPrice]
  · simp [writePrice,getLatestPrice,same]

theorem writePrice_history (s : Storage) (point : PriceDataPoint) (asset : Str) : getPriceHistory (writePrice s point) asset =
      if asset = point.asset then BoundedLog.push maxHistoryLen (getPriceHistory s asset) point
      else getPriceHistory s asset := by
  rcases eq_or_ne asset point.asset with rfl | same
  · simp [writePrice,getPriceHistory]
  · simp [writePrice,getPriceHistory,same]

-- A price write touches the two cells, the asset list and the reputation.
theorem writePrice_get (latest : k ≠ .latestPrice point.asset) (history : k ≠ .priceHistory point.asset)
    (assets : k ≠ .allAssets) (reputation : k ≠ .sourceReputation point.source) :
    (writePrice s point).get k = s.get k := by
  simp [writePrice,latest,history,assets,reputation]

def submitPrice (host : Host) (env : Env) (s : Storage) (source : Address) (asset : Str) (price : Int)
    (decimals timestamp : Nat) : Outcome (PriceDataPoint × Storage) := do
  requireAuth env source
  ensure (isPaused s = false) .contractPaused
  ensure (isWritePathPaused s .submitPrice = false ∧ isFeedPaused s asset = false) .contractPaused
  ensure (isAuthorizedSource s source = true) .unauthorizedSource
  ensure (0 ≤ price) .invalidPrice
  checkDecimals s asset decimals
  host.validateStringLen asset
  checkDeviation s asset price
  let point : PriceDataPoint := ⟨asset,price,decimals,timestamp,source⟩
  .ok (point,writePrice s point)

theorem submitPrice_parts (ran : submitPrice host env s source asset price decimals timestamp = .ok r) :
    env.authorized source = true ∧ isAuthorizedSource s source = true ∧ 0 ≤ price ∧
      checkDecimals s asset decimals = .ok () ∧ checkDeviation s asset price = .ok () ∧
      r = (⟨asset,price,decimals,timestamp,source⟩,writePrice s ⟨asset,price,decimals,timestamp,source⟩) := by
  simp only [submitPrice,bind_ok,requireAuth_ok,require_ok,ok.injEq] at ran
  obtain ⟨_,auth,_,_,_,_,_,known,_,pos,_,scale,_,_,_,guarded,rfl⟩ := ran
  exact ⟨auth,known,pos,scale,guarded,rfl⟩

def submitBatch (env : Env) (s : Storage) (source : Address) (nonce : Nat) (root : Bytes) (batchSize : Nat) :
    Outcome (Nat × Storage) := do
  requireAuth env source
  ensure (isPaused s = false) .contractPaused
  ensure (isWritePathPaused s .submitBatch = false) .contractPaused
  ensure (isAuthorizedSource s source = true) .unauthorizedSource
  ensure (root.length = 32) .invalidMerkleProof
  ensure (batchSize ≠ 0) .invalidMerkleProof
  ensure (nonce = getBatchNonce s) .batchNonceMismatch
  let s ← setBatchRoot s nonce root
  let s := setBatchSize s nonce batchSize
  incrementBatchNonce s

theorem submitBatch_parts (ran : submitBatch env s source nonce root batchSize = .ok r) :
    nonce = getBatchNonce s ∧ batchSize ≠ 0 ∧ r = (nonce+1,
      ((pruneBatchRoots (s.set (.batchRoot nonce) root) (nonce+1)).set (.batchSize nonce) batchSize).set
        .batchNonce (nonce+1)) := by
  simp only [submitBatch,bind_ok,requireAuth_ok,require_ok] at ran
  obtain ⟨_,_,_,_,_,_,_,_,_,_,_,sized,_,current,_,setRoot,increment⟩ := ran
  simp only [setBatchRoot,bind_ok,addBelow_ok,ok.injEq] at setRoot
  obtain ⟨_,⟨_,rfl⟩,rfl⟩ := setRoot
  simp only [incrementBatchNonce,bind_ok,addBelow_ok,ok.injEq] at increment
  obtain ⟨_,⟨_,rfl⟩,rfl⟩ := increment
  have untouched : getBatchNonce (setBatchSize (pruneBatchRoots (s.set (.batchRoot nonce) root) (nonce+1))
      nonce batchSize) = nonce := by
    rw [current]
    simp [getBatchNonce,setBatchSize,pruneBatchRoots_get,DataKey.BatchSlot]
  refine ⟨current,sized,?_⟩
  rw [untouched]
  rfl

def entryPoint (entry : BatchPriceEntry) : PriceDataPoint :=
  ⟨entry.asset,entry.price,entry.decimals,entry.timestamp,entry.source⟩

-- The deviation threshold is not read on this path, although a comment announces the guard.
def applyBatchEntry (host : Host) (verify : Verifier) (s : Storage) (batchNonce : Nat)
    (entry : BatchPriceEntry) (proof : MerkleProof) : Outcome (PriceDataPoint × Storage) := do
  ensure (isPaused s = false) .contractPaused
  ensure (isWritePathPaused s .applyBatchEntry = false ∧ isFeedPaused s entry.asset = false) .contractPaused
  host.validateStringLen entry.asset
  let root ← okOr (getBatchRoot s batchNonce) .batchRootNotFound
  let batchSize ← okOr (getBatchSize s batchNonce) .batchRootNotFound
  ensure (0 ≤ entry.price) .invalidPrice
  checkDecimals s entry.asset entry.decimals
  let included ← verify batchNonce entry proof batchSize root
  ensure (included = true) .invalidMerkleProof
  let s ← markBatchLeafApplied s batchNonce proof.leafIndex
  .ok (entryPoint entry,writePrice s (entryPoint entry))

theorem applyBatchEntry_parts (ran : applyBatchEntry host verify s nonce entry proof = .ok r) :
    (∃ root size, getBatchRoot s nonce = some root ∧ getBatchSize s nonce = some size ∧
      verify nonce entry proof size root = .ok true) ∧
    0 ≤ entry.price ∧ checkDecimals s entry.asset entry.decimals = .ok () ∧
    proof.leafIndex ∉ getBatchAppliedLeaves s nonce ∧
    r = (entryPoint entry,writePrice
      (s.set (.batchAppliedLeaves nonce) (getBatchAppliedLeaves s nonce ++ [proof.leafIndex])) (entryPoint entry)) := by
  simp only [applyBatchEntry,bind_ok,require_ok,someOr_ok,ok.injEq] at ran
  obtain ⟨_,_,_,_,_,_,root,rooted,size,sized,_,pos,_,scale,_,checked,_,rfl,_,mark,rfl⟩ := ran
  obtain ⟨unused,⟨⟩⟩ := guard_ok.mp mark
  exact ⟨⟨root,size,rooted,sized,checked⟩,pos,scale,unused,rfl⟩

def stake (env : Env) (s : Storage) (source : Address) (amount : Int) (token : Address) : Outcome Storage := do
  requireAuth env source
  ensure (0 < amount) .invalidStakeAmount
  ensure (∀ recorded ∈ getStakeToken s source, recorded = token) .stakeTokenMismatch
  require (env.transfer token source env.contract amount = true) .trap
  let s := setStakeToken s source token
  let total ← addI128 (getStake s source) amount
  .ok (setStake s source total)

def slash (env : Env) (s : Storage) (source : Address) (amount : Int) : Outcome Storage := do
  let admin ← getAdmin s
  requireAuth env admin
  ensure (0 < amount) .invalidSlashAmount
  let current := getStake s source
  ensure (0 < current) .noStakeToSlash
  let token ← okOr (getStakeToken s source) .stakeTokenNotRecorded
  let treasury ← okOr (getStakeTreasury s) .treasuryNotConfigured
  let slashed := if current < amount then current else amount
  require (env.transfer token env.contract treasury slashed = true) .trap
  let s := setStake s source (current - slashed)
  let count ← addU32 (getSlashCount s source) 1
  .ok (setSlashCount s source count)

theorem stake_parts (ran : stake env s source amount token = .ok next) :
    0 < amount ∧ (∀ recorded ∈ getStakeToken s source, recorded = token) ∧
      next = setStake (setStakeToken s source token) source (getStake s source + amount) := by
  simp only [stake,bind_ok,require_ok,addWithin_ok,ok.injEq] at ran
  obtain ⟨_,_,_,pos,_,own,_,_,_,⟨_,rfl⟩,rfl⟩ := ran
  refine ⟨pos,own,?_⟩
  simp [getStake,setStakeToken]

def slashedAmount (s : Storage) (source : Address) (amount : Int) : Int :=
  if getStake s source < amount then getStake s source else amount

theorem slash_parts (ran : slash env s source amount = .ok next) : ∃ token treasury count,
    0 < amount ∧ 0 < getStake s source ∧ getStakeToken s source = some token ∧ getStakeTreasury s = some treasury ∧
      next = setSlashCount (setStake s source (getStake s source - slashedAmount s source amount)) source count := by
  simp only [slash,bind_ok,require_ok,someOr_ok,ok.injEq] at ran
  obtain ⟨_,_,_,_,_,pos,_,staked,token,held,treasury,set,_,_,count,_,rfl⟩ := ran
  exact ⟨token,treasury,count,pos,staked,held,set,rfl⟩

end StellarPriceOracle.Submission
