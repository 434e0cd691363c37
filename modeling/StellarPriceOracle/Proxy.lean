import StellarPriceOracle.MultiSigActions
import StellarPriceOracle.Library.Runs

namespace StellarPriceOracle.Proxy
open Guarded Storage Utils Submission
open Admin (asAdmin configure configure_ok)
open MultiSigActions (requireSigner)
open KeyedStore (get_set_ne Keeps keeps_bind keeps_ok)
open Except (ok)

def upgradeTimelockSecs : Nat := 172800
def u64Max : Nat := 2^64 - 1

-- `initialize` asks for no authorization and overwrites what an earlier call stored.
def initializeProxy (s : Storage) (admin implementation : Address) : Storage :=
  let s := setAdmin s admin
  let s := setImplementation s implementation
  let s := setContractVersion s 1
  setStorageLayoutVersion s 1

def initMultisig (env : Env) (s : Storage) (admin : Address) (signers : List Address) (threshold : Nat) : Outcome Storage := do
  asAdmin env s admin
  ensure (¬ (threshold = 0 ∨ signers.length < threshold)) .invalidThreshold
  .ok (setMultisigConfig s ⟨signers,threshold⟩)

def proposeUpgrade (env : Env) (s : Storage) (admin : Address) (newWasmHash : Bytes) : Outcome (Nat × Storage) := do
  asAdmin env s admin
  let _ ← okOr (getMultisigConfig s) .multiSigNotInitialized
  let eta ← addU64 env.timestamp upgradeTimelockSecs
  .ok (eta,setPendingUpgrade s newWasmHash eta)

def approveUpgrade (env : Env) (s : Storage) (signer : Address) : Outcome (Nat × Storage) := do
  let _ ← requireSigner env s signer
  let _ ← okOr (getPendingUpgrade s) .upgradeNotProposed
  ensure (vecContainsAddress (getUpgradeApprovals s) signer = false) .upgradeAlreadyApproved
  let s := recordUpgradeApproval s signer
  .ok ((getUpgradeApprovals s).length,s)

def bumpVersion (s : Storage) : Outcome Storage := do
  let version ← addU32 (getContractVersion s) 1
  .ok (setContractVersion s version)

-- The hash handed to the deployer, which traps on one that was never uploaded.
def executeUpgrade (uploaded : Bytes → Bool) (env : Env) (s : Storage) (caller : Address) : Outcome (Bytes × Storage) := do
  requireAuth env caller
  let newWasmHash ← okOr (getPendingUpgrade s) .upgradeNotProposed
  ensure ((getPendingUpgradeEta s).getD u64Max ≤ env.timestamp) .upgradeTimelockNotElapsed
  let config ← okOr (getMultisigConfig s) .multiSigNotInitialized
  ensure (config.threshold ≤ (getUpgradeApprovals s).length) .thresholdNotMet
  let s ← bumpVersion s
  let s := clearPendingUpgrade s
  require (uploaded newWasmHash = true) .trap
  .ok (newWasmHash,s)

def cancelUpgrade (env : Env) (s : Storage) (admin : Address) : Outcome Storage :=
  configure env s admin (clearPendingUpgrade s)

def setCanary (env : Env) (s : Storage) (admin canary : Address) (trafficShareBps : Nat) : Outcome Storage := do
  asAdmin env s admin
  ensure (trafficShareBps ≤ 10000) .invalidThreshold
  .ok (Storage.setCanary s canary trafficShareBps)

def pointTo (s : Storage) (newImplementation : Address) : Outcome Storage := do
  let s := match getImplementation s with
    | some old => setPreviousImplementation s old
    | none => s
  bumpVersion (setImplementation s newImplementation)

section
variable (env : Env)

def promoteCanary (s : Storage) (admin : Address) : Outcome Storage := do
  asAdmin env s admin
  let (canary,_) ← okOr (getCanary s) .upgradeNotProposed
  let s ← pointTo s canary
  .ok (clearCanary s)

def upgrade (s : Storage) (admin newImplementation : Address) : Outcome Storage := do
  asAdmin env s admin
  pointTo s newImplementation

def setStorageLayoutVersion (s : Storage) (admin : Address) (version : Nat) : Outcome Storage :=
  configure env s admin (Storage.setStorageLayoutVersion s version)

def setAdmin (s : Storage) (currentAdmin newAdmin : Address) : Outcome Storage :=
  configure env s currentAdmin (Storage.setAdmin s newAdmin)

def setDeviationThreshold (s : Storage) (admin : Address) (thresholdBps : Nat) : Outcome Storage :=
  configure env s admin (Storage.setDeviationThreshold s thresholdBps)

def resetReputation (s : Storage) (admin source : Address) : Outcome Storage :=
  configure env s admin (removeSourceReputation s source)

def submitPrice (s : Storage) (source : Address) (asset : Str) (price : Int) (decimals timestamp : Nat) :
    Outcome (PriceDataPoint × Storage) := do
  requireAuth env source
  ensure (isAuthorizedSource s source = true) .unauthorizedSource
  checkDeviation s asset price
  let point : PriceDataPoint := ⟨asset,price,decimals,timestamp,source⟩
  .ok (point,writePrice s point)

def addOracleSource (s : Storage) (admin source : Address) (name : Str) : Outcome Storage := do
  asAdmin env s admin
  addSource s source name

def removeOracleSource (s : Storage) (admin source : Address) : Outcome Storage :=
  configure env s admin (removeSource s source)

def setTrustedAsset (s : Storage) (admin : Address) (asset : Str) (trusted : Bool) : Outcome Storage :=
  configure env s admin (Storage.setTrustedAsset s asset trusted)

-- The checks and the record are those of the multi-sig action, published by the admin.
def commitFeedCatalog (s : Storage) (admin : Address) (version : Nat) (catalogHash : Bytes) : Outcome Storage := do
  asAdmin env s admin
  MultiSigActions.commitFeedCatalog env s admin version catalogHash

end

-- The mutating entry points of ProxyContract but the TTL calls, which change no value.
inductive Call where
  | initializeProxy (admin implementation : Address)
  | initMultisig (admin : Address) (signers : List Address) (threshold : Nat)
  | proposeUpgrade (admin : Address) (newWasmHash : Bytes)
  | approveUpgrade (signer : Address)
  | executeUpgrade (caller : Address)
  | cancelUpgrade (admin : Address)
  | setCanary (admin canary : Address) (trafficShareBps : Nat)
  | promoteCanary (admin : Address)
  | upgrade (admin newImplementation : Address)
  | setStorageLayoutVersion (admin : Address) (version : Nat)
  | setAdmin (currentAdmin newAdmin : Address)
  | setDeviationThreshold (admin : Address) (thresholdBps : Nat)
  | resetReputation (admin source : Address)
  | submitPrice (source : Address) (asset : Str) (price : Int) (decimals timestamp : Nat)
  | addOracleSource (admin source : Address) (name : Str)
  | removeOracleSource (admin source : Address)
  | setTrustedAsset (admin : Address) (asset : Str) (trusted : Bool)
  | commitFeedCatalog (admin : Address) (version : Nat) (catalogHash : Bytes)
  deriving DecidableEq

def step (uploaded : Bytes → Bool) (s : Storage) : Env × Call → Outcome Storage
  | (_,.initializeProxy admin implementation) => .ok (initializeProxy s admin implementation)
  | (env,.initMultisig admin signers threshold) => initMultisig env s admin signers threshold
  | (env,.proposeUpgrade admin newWasmHash) => do
    let (_,next) ← proposeUpgrade env s admin newWasmHash
    .ok next
  | (env,.approveUpgrade signer) => do
    let (_,next) ← approveUpgrade env s signer
    .ok next
  | (env,.executeUpgrade caller) => do
    let (_,next) ← executeUpgrade uploaded env s caller
    .ok next
  | (env,.cancelUpgrade admin) => cancelUpgrade env s admin
  | (env,.setCanary admin canary trafficShareBps) => setCanary env s admin canary trafficShareBps
  | (env,.promoteCanary admin) => promoteCanary env s admin
  | (env,.upgrade admin newImplementation) => upgrade env s admin newImplementation
  | (env,.setStorageLayoutVersion admin version) => setStorageLayoutVersion env s admin version
  | (env,.setAdmin currentAdmin newAdmin) => setAdmin env s currentAdmin newAdmin
  | (env,.setDeviationThreshold admin thresholdBps) => setDeviationThreshold env s admin thresholdBps
  | (env,.resetReputation admin source) => resetReputation env s admin source
  | (env,.submitPrice source asset price decimals timestamp) => do
    let (_,next) ← submitPrice env s source asset price decimals timestamp
    .ok next
  | (env,.addOracleSource admin source name) => addOracleSource env s admin source name
  | (env,.removeOracleSource admin source) => removeOracleSource env s admin source
  | (env,.setTrustedAsset admin asset trusted) => setTrustedAsset env s admin asset trusted
  | (env,.commitFeedCatalog admin version catalogHash) => commitFeedCatalog env s admin version catalogHash

abbrev Trace := List (Runs.Transition Storage (Env × Call))

def UpgradeSlot (k : DataKey) : Prop := k = .pendingUpgradeHash ∨ k = .pendingUpgradeEta ∨ k = .upgradeApprovals

def Touches : Call → DataKey → Prop
  | .initializeProxy _ _,k =>
    k = .admin ∨ k = .implementation ∨ k = .contractVersion ∨ k = .storageLayoutVersion
  | .initMultisig _ _ _,k => k = .multiSigConfig
  | .proposeUpgrade _ _,k | .cancelUpgrade _,k => UpgradeSlot k
  | .approveUpgrade _,k => k = .upgradeApprovals
  | .executeUpgrade _,k => k = .contractVersion ∨ UpgradeSlot k
  | .setCanary _ _ _,k => k = .canaryImplementation ∨ k = .canaryTrafficShareBps
  | .promoteCanary _,k =>
    (k = .previousImplementation ∨ k = .implementation ∨ k = .contractVersion) ∨
      k = .canaryImplementation ∨ k = .canaryTrafficShareBps
  | .upgrade _ _,k => k = .previousImplementation ∨ k = .implementation ∨ k = .contractVersion
  | .setStorageLayoutVersion _ _,k => k = .storageLayoutVersion
  | .setAdmin _ _,k => k = .admin
  | .setDeviationThreshold _ _,k => k = .deviationThreshold
  | .resetReputation _ source,k => k = .sourceReputation source
  | .submitPrice source asset _ _ _,k =>
    k = .latestPrice asset ∨ k = .priceHistory asset ∨ k = .allAssets ∨ k = .sourceReputation source
  | .addOracleSource _ source _,k | .removeOracleSource _ source,k =>
    k = .source source ∨ k = .sourceName source ∨ k = .sourceCount
  | .setTrustedAsset _ asset _,k => k = .trustedAsset asset
  | .commitFeedCatalog _ _ _,k => k = .feedCatalogCommitment

theorem pointTo_get (moved : pointTo s newImplementation = .ok next)
    (out : ¬ (k = .previousImplementation ∨ k = .implementation ∨ k = .contractVersion)) :
    next.get k = s.get k := by
  simp only [not_or] at out
  obtain ⟨_,_,⟨⟩⟩ := bind_ok.mp moved
  simp only [setContractVersion,setImplementation]
  rw [get_set_ne out.2.2,get_set_ne out.2.1]
  split
  · exact get_set_ne out.1
  · rfl

theorem clearPendingUpgrade_get (out : ¬ UpgradeSlot k) : (clearPendingUpgrade s).get k = s.get k := by
  simp only [UpgradeSlot,not_or] at out
  simp [clearPendingUpgrade,out]

theorem executeUpgrade_parts (executed : executeUpgrade uploaded env s caller = .ok (wasmHash,next)) :
    getPendingUpgrade s = some wasmHash ∧ (getPendingUpgradeEta s).getD u64Max ≤ env.timestamp ∧
      (∃ config, getMultisigConfig s = some config ∧ config.threshold ≤ (getUpgradeApprovals s).length) ∧
      next = clearPendingUpgrade (setContractVersion s (getContractVersion s + 1)) := by
  simp only [executeUpgrade,bumpVersion,bind_ok,someOr_ok,require_ok,addBelow_ok,ok.injEq,Prod.mk.injEq] at executed
  obtain ⟨_,_,_,pending,_,elapsed,config,conf,_,met,_,⟨_,⟨_,rfl⟩,rfl⟩,_,_,rfl,rfl⟩ := executed
  exact ⟨pending,elapsed,⟨config,conf,met⟩,rfl⟩

theorem submitPrice_parts (ran : submitPrice env s source asset price decimals timestamp = .ok r) :
    r = (⟨asset,price,decimals,timestamp,source⟩,writePrice s ⟨asset,price,decimals,timestamp,source⟩) := by
  simp only [submitPrice,bind_ok,ok.injEq] at ran
  obtain ⟨_,_,_,_,_,_,rfl⟩ := ran
  rfl

theorem step_frame (ran : step uploaded s (env,call) = .ok next) (out : ¬ Touches call k) : next.get k = s.get k := by
  revert ran
  suffices keeps : Keeps k s (step uploaded s (env,call)) from keeps next
  cases call with
  | executeUpgrade =>
    simp only [Touches,not_or] at out
    simp only [step,keeps_bind,keeps_ok]
    rintro _ executed
    obtain ⟨_,_,_,same⟩ := executeUpgrade_parts executed
    rw [same,clearPendingUpgrade_get out.2]
    exact get_set_ne out.1
  | cancelUpgrade =>
    rintro _ ran
    obtain ⟨_,rfl⟩ := configure_ok.mp ran
    exact clearPendingUpgrade_get out
  | promoteCanary =>
    rw [Touches,not_or] at out
    simp only [step,promoteCanary,keeps_bind,keeps_ok]
    rintro _ _ _ _ _ moved
    rw [← pointTo_get moved out.1]
    simp only [not_or] at out
    simp [clearCanary,out]
  | upgrade =>
    simp only [step,upgrade,keeps_bind]
    rintro _ _ _ moved
    exact pointTo_get moved out
  | submitPrice =>
    simp only [Touches,not_or] at out
    simp only [step,keeps_bind,keeps_ok]
    rintro _ submitted
    rw [submitPrice_parts submitted]
    exact writePrice_get out.1 out.2.1 out.2.2.1 out.2.2.2
  | addOracleSource =>
    simp only [Touches,not_or] at out
    simp only [step,addOracleSource,keeps_bind]
    rintro _ _ _ added
    exact addSource_get added out.1 out.2.1 out.2.2
  | removeOracleSource =>
    rintro _ ran
    obtain ⟨_,rfl⟩ := configure_ok.mp ran
    simp only [Touches,not_or] at out
    exact removeSource_get out.1 out.2.1 out.2.2
  | proposeUpgrade | approveUpgrade =>
    simp only [Touches,UpgradeSlot,not_or] at out
    simp only [step,proposeUpgrade,approveUpgrade,keeps_bind,keeps_ok,bind_ok,ok.injEq]
    rintro _ ⟨_,_,_,_,_,_,rfl⟩
    simp [setPendingUpgrade,recordUpgradeApproval,out]
  | initializeProxy | initMultisig | setCanary | commitFeedCatalog =>
    simp only [Touches,not_or] at out
    simp [step,initializeProxy,initMultisig,setCanary,commitFeedCatalog,MultiSigActions.commitFeedCatalog,Storage.setAdmin,setImplementation,
      setContractVersion,Storage.setStorageLayoutVersion,setMultisigConfig,Storage.setCanary,setFeedCatalogCommitment,out]
  | resetReputation =>
    rintro _ ran
    obtain ⟨_,rfl⟩ := configure_ok.mp ran
    exact KeyedStore.get_remove_ne out
  | setStorageLayoutVersion | setAdmin | setDeviationThreshold | setTrustedAsset =>
    rintro _ ran
    obtain ⟨_,rfl⟩ := configure_ok.mp ran
    exact get_set_ne out

end StellarPriceOracle.Proxy
