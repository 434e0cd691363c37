import StellarPriceOracle.Library.Guarded
import StellarPriceOracle.Library.InsertionMap
import StellarPriceOracle.Library.JsArray
import StellarPriceOracle.Library.JsNumber
import StellarPriceOracle.Library.JsText

-- decentralization/execution-audit.ts: the state expected of the executed proposals beside the observed one.
namespace StellarPriceOracle.ExecutionAudit
open JsArray

inductive StateValue where
  | text (value : String)
  | number (value : JsNumber)
  | flag (value : Bool)
  | list (values : List String)
  | null
  deriving DecidableEq

inductive GovernanceSurface where
  | onchain
  | offchain
  deriving DecidableEq

def GovernanceSurface.name : GovernanceSurface → String
  | .onchain => "onchain"
  | .offchain => "offchain"

abbrev Bucket := InsertionMap String StateValue

structure GovernanceState where
  (onchain offchain : Bucket)

section
variable (state : GovernanceState)

def GovernanceState.bucket : GovernanceSurface → Bucket
  | .onchain => state.onchain
  | .offchain => state.offchain

def GovernanceState.write (surface : GovernanceSurface) (key : String) (value : StateValue) : GovernanceState :=
  match surface with
  | .onchain => {state with onchain := state.onchain.set key value}
  | .offchain => {state with offchain := state.offchain.set key value}

structure GovernanceConfig where
  token : String
  (votingPeriod timelockDelay quorum proposalThreshold : JsNumber)
  guardian : String

inductive ProposalAction where
  | addSource (source name : String)
  | removeSource (source : String)
  | setTrustedAsset (asset : String) (trusted : JsNumber)
  | transferAdmin (newAdmin : String)
  | setDeviationThreshold (thresholdBps : JsNumber)
  | resetReputation (source : String)
  | addSigner (signer : String)
  | removeSigner (signer : String)
  | setThreshold (threshold : JsNumber)
  | setAdmin (newAdmin : String)
  | addOracleSource (source name : String)
  | removeOracleSource (source : String)
  | updateGovernanceConfig (config : GovernanceConfig)
  | other (variant : String)

def ProposalAction.variant : ProposalAction → String
  | .addSource .. => "AddSource"
  | .removeSource .. => "RemoveSource"
  | .setTrustedAsset .. => "SetTrustedAsset"
  | .transferAdmin .. => "TransferAdmin"
  | .setDeviationThreshold .. => "SetDeviationThreshold"
  | .resetReputation .. => "ResetReputation"
  | .addSigner .. => "AddSigner"
  | .removeSigner .. => "RemoveSigner"
  | .setThreshold .. => "SetThreshold"
  | .setAdmin .. => "SetAdmin"
  | .addOracleSource .. => "AddOracleSource"
  | .removeOracleSource .. => "RemoveOracleSource"
  | .updateGovernanceConfig .. => "UpdateGovernanceConfig"
  | .other variant => variant

inductive Op where
  | set (value : StateValue)
  | add (value : String)
  | remove (value : String)

structure Effect where
  surface : GovernanceSurface
  key : String
  op : Op

def governanceConfigEffects (config : GovernanceConfig) : List Effect :=
  [⟨.onchain,"governance.token",.set (.text config.token)⟩,⟨.onchain,"governance.votingPeriod",.set (.number config.votingPeriod)⟩,
    ⟨.onchain,"governance.timelockDelay",.set (.number config.timelockDelay)⟩,⟨.onchain,"governance.quorum",.set (.number config.quorum)⟩,
    ⟨.onchain,"governance.proposalThreshold",.set (.number config.proposalThreshold)⟩,⟨.onchain,"governance.guardian",.set (.text config.guardian)⟩]

def effectsFor : ProposalAction → Option (List Effect)
  | .addSigner signer => some [⟨.onchain,"multisig.signers",.add signer⟩]
  | .removeSigner signer => some [⟨.onchain,"multisig.signers",.remove signer⟩]
  | .setThreshold threshold => some [⟨.onchain,"multisig.threshold",.set (.number threshold)⟩]
  | .setAdmin newAdmin | .transferAdmin newAdmin => some [⟨.onchain,"admin.address",.set (.text newAdmin)⟩]
  | .addOracleSource source _ | .addSource source _ => some [⟨.onchain,"oracle.sources",.add source⟩]
  | .removeOracleSource source | .removeSource source => some [⟨.onchain,"oracle.sources",.remove source⟩]
  | .setTrustedAsset asset trusted => some [⟨.onchain,"assets.trusted",if JsNumber.same trusted 0 then .remove asset else .add asset⟩]
  | .setDeviationThreshold thresholdBps => some [⟨.onchain,"oracle.deviationThresholdBps",.set (.number thresholdBps)⟩]
  | .resetReputation source => some [⟨.offchain,"source.reputation." ++ source,.set (.number 0)⟩]
  | .updateGovernanceConfig config => some (governanceConfigEffects config)
  | .other _ => none

def listOf : Option StateValue → List String
  | some (.list values) => values
  | _ => []

def Op.apply (current : Option StateValue) : Op → StateValue
  | .set value => value
  | .add value => .list (if value ∈ listOf current then listOf current else listOf current ++ [value])
  | .remove value => .list ((listOf current).erase value)

def applyEffect (effect : Effect) : GovernanceState :=
  state.write effect.surface effect.key (effect.op.apply ((state.bucket effect.surface).get effect.key))

end

-- Lists are compared after sorting, so as multisets.
def valuesEqual : StateValue → StateValue → Bool
  | .list expected,.list observed => expected.length = observed.length && sort expected = sort observed
  | .number expected,.number observed => JsNumber.same expected observed
  | expected,observed => expected = observed

inductive ProposalStatus where
  | active
  | queued
  | ready
  | executed
  | defeated
  | cancelled
  deriving DecidableEq

structure AuditableProposal where
  id : Int
  status : ProposalStatus
  action : ProposalAction
  approvedAt : Int
  (executedAt executionTime : Option Int)

inductive DiscrepancyKind where
  | mismatch
  | missingChange
  | unapprovedChange
  | overdueExecution
  | inconsistentProposal
  | unverifiableEffect
  deriving DecidableEq

def DiscrepancyKind.name : DiscrepancyKind → String
  | .mismatch => "mismatch"
  | .missingChange => "missing_change"
  | .unapprovedChange => "unapproved_change"
  | .overdueExecution => "overdue_execution"
  | .inconsistentProposal => "inconsistent_proposal"
  | .unverifiableEffect => "unverifiable_effect"

inductive Severity where
  | critical
  | high
  | medium
  deriving DecidableEq

def severityFor : DiscrepancyKind → Severity
  | .unapprovedChange | .inconsistentProposal => .critical
  | .mismatch | .missingChange | .unverifiableEffect => .high
  | .overdueExecution => .medium

inductive RemediationStatus where
  | opened
  | inProgress
  | resolved
  | acceptedRisk
  deriving DecidableEq

structure RemediationState where
  status : RemediationStatus
  (owner note : Option String)
  updatedAt : Int

structure Discrepancy where
  key : String
  surface : GovernanceSurface
  kind : DiscrepancyKind
  severity : Severity
  (expected observed : Option StateValue)
  proposalIds : List Int
  remediation : Option RemediationState

def Discrepancy.remediationStatus (d : Discrepancy) : Option RemediationStatus := d.remediation.map RemediationState.status

structure Host where
  text : JsText
  clock : Int
  nextId : String → String
  getRemediation : String → Option RemediationState

structure ExecutionAuditInput where
  baseline : GovernanceState
  proposals : List AuditableProposal
  observed : GovernanceState
  (now maxExecutionDelaySeconds : Option Int)

structure Summary where
  (critical high medium untriaged resolved : Nat)

structure ReconciliationReport where
  id : String
  generatedAt : Int
  proposalsChecked : Nat
  (appliedProposalIds pendingProposalIds : List Int)
  matchedKeys : List String
  discrepancies : List Discrepancy
  summary : Summary

structure GovernanceReportingError where
  (code message : String)

def defaultMaxExecutionDelaySeconds : Int := 30 * 86400

def duplicateId (seen : List Int) : List AuditableProposal → Option Int
  | [] => none
  | proposal :: rest => if proposal.id ∈ seen then some proposal.id else duplicateId (proposal.id :: seen) rest

def AuditableProposal.orderedAt (proposal : AuditableProposal) : Int := proposal.executedAt.getD proposal.approvedAt

def earlier (left right : AuditableProposal) : Bool :=
  if left.orderedAt = right.orderedAt then left.id ≤ right.id else left.orderedAt ≤ right.orderedAt

structure Audit where
  expected : GovernanceState
  lastWriters : InsertionMap String (List Int)
  (applied pending : List AuditableProposal)
  discrepancies : List Discrepancy

section
variable (host : Host)

def discrepancy (surface : GovernanceSurface) (key : String) (kind : DiscrepancyKind) (expected observed : Option StateValue)
    (proposalIds : List Int) : Discrepancy :=
  ⟨key,surface,kind,severityFor kind,expected,observed,proposalIds,
    host.getRemediation (surface.name ++ ":" ++ key ++ ":" ++ kind.name)⟩

def Audit.push (audit : Audit) (found : Discrepancy) : Audit := {audit with discrepancies := audit.discrepancies ++ [found]}

def Audit.effect (id : Int) (audit : Audit) (effect : Effect) : Audit :=
  let dedup := effect.surface.name ++ ":" ++ effect.key
  let writers := (audit.lastWriters.get dedup).getD []
  {audit with
    expected := applyEffect audit.expected effect
    lastWriters := audit.lastWriters.set dedup (if id ∈ writers then writers else writers ++ [id])}

def proposalKey (proposal : AuditableProposal) (part : String) : String := "proposal." ++ toString proposal.id ++ part

-- Effects are looked up only if the proposal has its time.
def Audit.executed (audit : Audit) (proposal : AuditableProposal) : Audit :=
  let audit := {audit with applied := audit.applied ++ [proposal]}
  match proposal.executedAt,effectsFor proposal.action with
  | none,_ => audit.push (discrepancy host .onchain (proposalKey proposal ".execution") .inconsistentProposal
      (some (.text "executedAt timestamp recorded")) (some .null) [proposal.id])
  | some _,none => audit.push (discrepancy host .onchain (proposalKey proposal ".effect") .unverifiableEffect
      (some (.text ("a reconcilable effect for " ++ proposal.action.variant))) (some .null) [proposal.id])
  | some _,some effects => effects.foldl (Audit.effect proposal.id) audit

def Audit.awaiting (now maxDelay : Int) (audit : Audit) (proposal : AuditableProposal) : Audit :=
  let audit := {audit with pending := audit.pending ++ [proposal]}
  let deadline := proposal.executionTime.getD proposal.approvedAt + maxDelay
  if now > deadline then
    audit.push (discrepancy host .onchain (proposalKey proposal ".execution") .overdueExecution (some (.number (.finite deadline)))
      (some (.number (.finite now))) [proposal.id])
  else audit

def Audit.proposal (now maxDelay : Int) (audit : Audit) (proposal : AuditableProposal) : Audit :=
  match proposal.status with
  | .executed => audit.executed host proposal
  | .queued | .ready => audit.awaiting host now maxDelay proposal
  | _ => audit

def keysOf (expected observed : Bucket) : List String := distinct (expected.entries.map Prod.fst ++ observed.entries.map Prod.fst)

-- No finding where neither state has the key or both have equal values.
def Audit.judge (audit : Audit) (observed : GovernanceState) (surface : GovernanceSurface) (key : String) : Option Discrepancy :=
  let writers := (audit.lastWriters.get (surface.name ++ ":" ++ key)).getD []
  match (audit.expected.bucket surface).get key,(observed.bucket surface).get key with
  | none,some value => some (discrepancy host surface key .unapprovedChange none (some value) [])
  | some value,none => some (discrepancy host surface key .missingChange (some value) none writers)
  | some expected,some value =>
    if valuesEqual expected value then none
    else some (discrepancy host surface key .mismatch (some expected) (some value) writers)
  | none,none => none

def Audit.matched (audit : Audit) (observed : GovernanceState) (surface : GovernanceSurface) (key : String) : Bool :=
  match (audit.expected.bucket surface).get key,(observed.bucket surface).get key with
  | some expected,some value => valuesEqual expected value
  | _,_ => false

def Audit.compared (audit : Audit) (observed : GovernanceState) : List (GovernanceSurface × String) :=
  [GovernanceSurface.onchain,.offchain].flatMap (fun surface =>
    (keysOf (audit.expected.bucket surface) (observed.bucket surface)).map (surface,·))

def summarize (discrepancies : List Discrepancy) : Summary :=
  ⟨discrepancies.countP (fun d => d.severity = .critical),discrepancies.countP (fun d => d.severity = .high),
    discrepancies.countP (fun d => d.severity = .medium),discrepancies.countP (fun d => d.remediationStatus = none),
    discrepancies.countP (fun d => d.remediationStatus = some .resolved)⟩

def replayProposals (input : ExecutionAuditInput) : Audit :=
  (sortBy earlier input.proposals).foldl
    (Audit.proposal host (input.now.getD host.clock) (input.maxExecutionDelaySeconds.getD defaultMaxExecutionDelaySeconds))
    ⟨input.baseline,.empty,[],[],[]⟩

def reconcileGovernanceExecution (input : ExecutionAuditInput) : Except GovernanceReportingError ReconciliationReport :=
  match duplicateId [] input.proposals with
  | some id => .error ⟨"DUPLICATE_PROPOSAL","Proposal " ++ toString id ++ " appears more than once in the audit input"⟩
  | none =>
    let audit := replayProposals host input
    let compared := audit.compared input.observed
    let discrepancies := sortBy (fun left right => host.text.collates left.key right.key)
      (audit.discrepancies ++ compared.filterMap (fun place => audit.judge host input.observed place.1 place.2))
    .ok ⟨host.nextId "recon",input.now.getD host.clock,input.proposals.length,audit.applied.map AuditableProposal.id,
      audit.pending.map AuditableProposal.id,
      (compared.filter (fun place => audit.matched input.observed place.1 place.2)).map (fun place => place.1.name ++ ":" ++ place.2),
      discrepancies,summarize discrepancies⟩

end

end StellarPriceOracle.ExecutionAudit
