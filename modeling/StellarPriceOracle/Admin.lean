import StellarPriceOracle.Submission

namespace StellarPriceOracle.Admin
open Guarded Storage Submission

-- `initialize` in the source; the word is reserved here.
def initializeContract (s : Storage) (admin : Address) : Outcome Storage := do
  ensure (hasAdmin s = false) .alreadyInitialized
  .ok (setStorageLayoutVersion (setAdmin s admin) 1)

def asAdmin (env : Env) (s : Storage) (admin : Address) : Outcome Unit := do
  requireAuth env admin
  verifyAdmin s admin

@[simp] theorem asAdmin_ok : asAdmin env s admin = .ok u ↔ env.authorized admin = true ∧ s.get .admin = some admin := by
  simp [asAdmin]

def configure (env : Env) (s : Storage) (admin : Address) (stored : Storage) : Outcome Storage := do
  asAdmin env s admin
  .ok stored

@[simp] theorem configure_ok : configure env s admin has = .ok next ↔
    (env.authorized admin = true ∧ s.get .admin = some admin) ∧ has = next := by
  simp [configure]

def proposeAdmin (env : Env) (s : Storage) (admin newAdmin : Address) : Outcome Storage := do
  asAdmin env s admin
  let deadline ← addU64 env.timestamp adminTransferWindowSeconds
  .ok (setPendingAdmin s newAdmin deadline)

def acceptAdmin (env : Env) (s : Storage) (newAdmin : Address) : Outcome Storage := do
  requireAuth env newAdmin
  let (pending,_) ← okOr (getPendingAdmin s) .noPendingAdmin
  ensure (pending = newAdmin) .adminOnly
  let _ ← getAdmin s
  .ok (clearPendingAdmin (setAdmin s newAdmin))

def cancelAdminTransfer (env : Env) (s : Storage) (admin : Address) : Outcome Storage := do
  asAdmin env s admin
  let (_,deadline) ← okOr (getPendingAdmin s) .noPendingAdmin
  ensure (env.timestamp ≤ deadline) .adminTransferWindowElapsed
  .ok (clearPendingAdmin s)

def setDeviationThreshold (env : Env) (s : Storage) (admin : Address) (thresholdBps : Nat) : Outcome Storage :=
  configure env s admin (Storage.setDeviationThreshold s thresholdBps)

def resetReputation (env : Env) (s : Storage) (admin source : Address) : Outcome Storage :=
  configure env s admin (removeSourceReputation s source)

-- contract/mod.rs checks the name before it delegates to admin.rs.
def addOracleSource (host : Host) (env : Env) (s : Storage) (admin source : Address) (name : Str) : Outcome Storage := do
  host.validateStringLen name
  asAdmin env s admin
  addSource s source name

section
variable (env : Env)

def removeOracleSource (s : Storage) (admin source : Address) : Outcome Storage :=
  configure env s admin (removeSource s source)

def setTrustedAsset (s : Storage) (admin : Address) (asset : Str) (trusted : Bool) : Outcome Storage :=
  configure env s admin (Storage.setTrustedAsset s asset trusted)

def setStakeTreasury (s : Storage) (admin treasury : Address) : Outcome Storage :=
  configure env s admin (Storage.setStakeTreasury s treasury)

def setFeeToken (s : Storage) (admin token : Address) : Outcome Storage :=
  configure env s admin (Storage.setFeeToken s token)

def setQueryFee (s : Storage) (admin : Address) (fee : Int) : Outcome Storage :=
  configure env s admin (Storage.setQueryFee s fee)

def setWhitelist (s : Storage) (admin account : Address) (status : Bool) : Outcome Storage :=
  configure env s admin (Storage.setWhitelist s account status)

end

section
variable (env : Env)

section
variable (s : Storage)

def withdrawFees (admin receiver : Address) : Outcome Storage := do
  asAdmin env s admin
  let feeToken ← okOr (getFeeToken s) .feeTokenNotConfigured
  let balance := getFeeBalance s
  if 0 < balance then do
    require (env.transfer feeToken env.contract receiver balance = true) .trap
    .ok (setFeeBalance s 0)
  else .ok s

def pauseFeed (admin : Address) (asset : Str) : Outcome Storage :=
  configure env s admin (setFeedPaused s asset true)

def unpauseFeed (admin : Address) (asset : Str) : Outcome Storage :=
  configure env s admin (setFeedPaused s asset false)

def pauseWritePath (admin : Address) (path : WritePath) : Outcome Storage :=
  configure env s admin (setWritePathPaused s path true)

def unpauseWritePath (admin : Address) (path : WritePath) : Outcome Storage :=
  configure env s admin (setWritePathPaused s path false)

end

end

end StellarPriceOracle.Admin
