import StellarPriceOracle.FeedCatalog
import StellarPriceOracle.Library.Runs

namespace StellarPriceOracle.CatalogGovernance
open FeedCatalog Guarded JsArray
open InsertionMap (get_set get_set_ne get_map)
open List
open Option (Rel some)
open Guardrails

-- api/src/governance/catalog-policy.ts: `CatalogGovernance`. Dates are their time values.
abbrev Instant := {ms : Int // -8640000000000000 ≤ ms ∧ ms ≤ 8640000000000000}

def toISOString (ms : Int) : Option Instant :=
  if within : -8640000000000000 ≤ ms ∧ ms ≤ 8640000000000000 then some ⟨ms,within⟩ else none

structure CatalogPolicy where
  version : Nat
  activatedAt : Instant
  proposalId : Option Nat
  feeds : List FeedPolicy

inductive CatalogProposalStatus where
  | inReview | approved | rejected | activated | expired
  deriving DecidableEq

inductive Decision where
  | approve | reject
  deriving DecidableEq

structure CatalogReviewRecord where
  reviewer : String
  decision : Decision
  at' : Instant

inductive Risk where
  | low | medium | high | critical
  deriving DecidableEq

structure CatalogImpactSummary where
  risk : Risk
  approvalBlocked : Bool

structure OnChainExecution where
  (actionIndex onChainProposalId : JsNumber)

structure CatalogProposal where
  id : Nat
  (proposer description : String)
  change : CatalogPolicyChange
  status : CatalogProposalStatus
  (createdAt reviewDeadlineAt : Instant)
  (timelockEndsAt activatedAt : Option Instant)
  activatedVersion : Option Nat
  activatedBy : Option String
  reviews : List CatalogReviewRecord
  findings : List GuardrailFinding
  highImpact : Bool
  requiredApprovals : Nat
  sourceAddresses : InsertionMap String String
  onChainPlan : OnChainPlan
  onChainExecutions : Option (List OnChainExecution)
  impact : Option CatalogImpactSummary

structure Governance where
  versions : List CatalogPolicy
  live : versions ≠ []
  proposals : InsertionMap Nat CatalogProposal
  proposalCount : Nat

inductive Thrown where
  | actorRequired | descriptionRequired | descriptionTooLong
  | catalogPolicyInvalid (findings : List GuardrailFinding)
  | missingSourceAddress (missingSourceAddresses : List String)
  | proposalNotFound (id : Nat)
  | impactNotAccepted (status : CatalogProposalStatus)
  | proposalNotInReview (id : Nat) (status : CatalogProposalStatus)
  | reviewWindowExpired (id : Nat) (reviewDeadlineAt : Instant)
  | selfReviewForbidden | attestationRequired
  | alreadyReviewed (actor : String) (id : Nat)
  | reviewLimitReached
  | conflictOfInterest (actor : String) (reasons : List String)
  | impactAnalysisRequired
  | impactAnalysisBlocked (risk : Risk)
  | proposalNotApproved (id : Nat) (status : CatalogProposalStatus)
  | timelockActive (id : Nat) (timelockEndsAt : Option Instant)
  | policyDrift (findings : List GuardrailFinding)
  | planDrifted
  | emergencyOverrideActive (asset : String)
  | actionIndexOutside (actionIndex : JsNumber) (expected : Nat)
  | actionIndexRepeated (actionIndex : JsNumber)
  | onChainProposalIdInvalid
  | onChainExecutionIncomplete (expected supplied : Nat)
  | rollbackTargetIsLive (version : Nat)
  | policyVersionNotFound (version : Nat)
  | typeError | rangeError

abbrev Result := Except (Thrown × Governance)

def cloneFeed (feed : FeedPolicy) : FeedPolicy := {feed with quoteUnit := some (feed.quoteUnit.getD defaultQuoteUnit)}

def clonePolicy (policy : CatalogPolicy) : CatalogPolicy := {policy with feeds := policy.feeds.map cloneFeed}

def cloneProposal (proposal : CatalogProposal) : CatalogProposal :=
  {proposal with change := {proposal.change with upserts := proposal.change.upserts.map cloneFeed}}

namespace Governance
def latest (s : Governance) : CatalogPolicy := s.versions.getLast s.live

def store (s : Governance) (id : Nat) (proposal : CatalogProposal) : Governance := {s with proposals := s.proposals.set id proposal}

def push (s : Governance) (policy : CatalogPolicy) : Governance := {s with versions := s.versions ++ [policy], live := by simp}
end Governance

def epoch : Instant := ⟨0,by decide⟩

section
variable (host : Host)

def create (genesisFeeds : List FeedPolicy) : Except TypeError Governance := do
  let feeds ← normalizeFeeds host genesisFeeds
  .ok ⟨[⟨1,epoch,none,feeds⟩],by simp,.empty,0⟩

section
variable (s : Governance)

def currentPolicy : CatalogPolicy := clonePolicy s.latest

def policyVersion (version : Nat) : Result CatalogPolicy := do
  let policy ← someOr (s.versions.find? (fun candidate => candidate.version = version)) (.policyVersionNotFound version,s)
  .ok (clonePolicy policy)

def requireActor (actor : String) : Result String := do
  require (¬ (actor = "" ∨ host.text.trim actor = "")) (.actorRequired,s)
  .ok (host.text.trim actor)

def newProposal (id : Nat) (now reviewDeadlineAt : Instant) (proposer description : String) (change : CatalogPolicyChange)
    (validation : CatalogValidation) (sourceAddresses : InsertionMap String String) (plan : OnChainPlan) : CatalogProposal where
  id := id
  proposer := proposer
  description := host.text.trim description
  change := change
  status := .inReview
  createdAt := now
  reviewDeadlineAt := reviewDeadlineAt
  timelockEndsAt := none
  activatedAt := none
  activatedVersion := none
  activatedBy := none
  reviews := []
  findings := validation.findings
  highImpact := validation.highImpact
  requiredApprovals := if validation.highImpact then highImpactApprovals else requiredApprovals
  sourceAddresses := sourceAddresses
  onChainPlan := plan
  onChainExecutions := none
  impact := none

def createProposal (now : Instant) (proposer description : String) (given : CatalogPolicyChange)
    (sourceAddresses : InsertionMap String String) : Result (CatalogProposal × Governance) := do
  let proposer ← requireActor host s proposer
  require (¬ (description = "" ∨ host.text.trim description = "")) (.descriptionRequired,s)
  require (¬ (utf16 description).length > 2000) (.descriptionTooLong,s)
  let current := currentPolicy s
  let change ← keeping (normalizeChange host given) (fun _ => .typeError) s
  let validation ← keeping (validateCatalogChange host current.version current.feeds change) (fun _ => .typeError) s
  require (validation.errors = []) (.catalogPolicyInvalid validation.errors,s)
  let plan := buildOnChainPlan host current.feeds validation.nextFeeds sourceAddresses
  require (plan.missingSourceAddresses = []) (.missingSourceAddress plan.missingSourceAddresses,s)
  let id := s.proposalCount + 1
  let s := {s with proposalCount := id}
  let reviewDeadlineAt ← someOr (toISOString (now + reviewWindowSeconds * 1000)) (.rangeError,s)
  let proposal := newProposal host id now reviewDeadlineAt proposer description change validation sourceAddresses plan
  .ok (cloneProposal proposal,s.store id proposal)

def createRollbackProposal (now : Instant) (proposer : String) (targetVersion : Nat) (description : Option String)
    (sourceAddresses : InsertionMap String String) : Result (CatalogProposal × Governance) := do
  let current := currentPolicy s
  require (targetVersion ≠ current.version) (.rollbackTargetIsLive targetVersion,s)
  let target ← policyVersion s targetVersion
  let change : CatalogPolicyChange := {
    baseVersion := .finite current.version
    kind := .rollback
    upserts := target.feeds
    removals := (current.feeds.map FeedPolicy.asset).filter (fun asset => asset ∉ target.feeds.map FeedPolicy.asset)}
  let trimmed := (description.map host.text.trim).getD ""
  let description := if trimmed = "" then
    "Rollback catalog policy from v" ++ toString current.version ++ " to v" ++ toString targetVersion else trimmed
  createProposal host s now proposer description change sourceAddresses

def attachImpact (id : Nat) (impact : CatalogImpactSummary) : Result (CatalogProposal × Governance) := do
  let proposal ← someOr (s.proposals.get id) (.proposalNotFound id,s)
  require (proposal.status = .inReview) (.impactNotAccepted proposal.status,s)
  let proposal := {proposal with impact := some impact}
  .ok (cloneProposal proposal,s.store id proposal)

structure RecusalRequest where
  (assets sources : List String)

section
variable (proposal : CatalogProposal)

def recusalRequest : RecusalRequest where
  assets := sort (distinct (proposal.change.upserts.map FeedPolicy.asset ++ proposal.change.removals))
  sources := sort (distinct (proposal.change.upserts.flatMap FeedPolicy.sources))

def approvals : List CatalogReviewRecord := proposal.reviews.filter (fun review => review.decision = .approve)

def completesApproval (decision : Decision) : Bool :=
  decision = .approve ∧ (approvals proposal).length + 1 ≥ proposal.requiredApprovals

def impactGate : Option Thrown :=
  match proposal.impact with
  | none => some .impactAnalysisRequired
  | some impact => if impact.approvalBlocked then some (.impactAnalysisBlocked impact.risk) else none

def timelockOf : Nat :=
  if proposal.highImpact then highImpactTimelockSeconds else timelockSeconds

end

-- A proposal with the review in it. The status is written before the timelock's end, which may throw.
def settleReview (now : Instant) (id : Nat) (proposal : CatalogProposal) (decision : Decision) (completes : Bool) :
    Result (CatalogProposal × Governance) :=
  if decision = .reject then
    .ok (cloneProposal {proposal with status := .rejected},s.store id {proposal with status := .rejected})
  else if completes then do
    let proposal := {proposal with status := .approved}
    let timelockEndsAt ← someOr (toISOString (now + timelockOf proposal * 1000)) (.rangeError,s.store id proposal)
    let proposal := {proposal with timelockEndsAt := some timelockEndsAt}
    .ok (cloneProposal proposal,s.store id proposal)
  else .ok (cloneProposal proposal,s.store id proposal)

def recordReview (now : Instant) (isRecused : String → RecusalRequest → List String) (id : Nat) (reviewer : String)
    (decision : Decision) (attested : Bool) : Result (CatalogProposal × Governance) := do
  let actor ← requireActor host s reviewer
  let proposal ← someOr (s.proposals.get id) (.proposalNotFound id,s)
  require (proposal.status = .inReview) (.proposalNotInReview id proposal.status,s)
  require (¬ (now : Int) > proposal.reviewDeadlineAt) (.reviewWindowExpired id proposal.reviewDeadlineAt,s.store id {proposal with status := .expired})
  require (actor ≠ proposal.proposer) (.selfReviewForbidden,s)
  require (attested = true) (.attestationRequired,s)
  require (¬ ∃ review ∈ proposal.reviews, review.reviewer = actor) (.alreadyReviewed actor id,s)
  require (¬ proposal.reviews.length ≥ maxReviewers) (.reviewLimitReached,s)
  let reasons := isRecused actor (recusalRequest proposal)
  require (reasons = []) (.conflictOfInterest actor reasons,s)
  let completes := completesApproval proposal decision
  require (completes = true → impactGate proposal = none) ((impactGate proposal).getD .impactAnalysisRequired,s)
  settleReview s now id {proposal with reviews := proposal.reviews ++ [⟨actor,decision,now⟩]} decision completes

def checkExecutions (expected : Nat) : List JsNumber → List OnChainExecution → Except Thrown Unit
  | seen,[] => if seen.length ≠ expected then .error (.onChainExecutionIncomplete expected seen.length) else .ok ()
  | seen,execution :: rest =>
    if !execution.actionIndex.isInteger || execution.actionIndex.lt 0 || (JsNumber.finite expected).le execution.actionIndex then
      .error (.actionIndexOutside execution.actionIndex expected)
    else if execution.actionIndex ∈ seen then .error (.actionIndexRepeated execution.actionIndex)
    else if !execution.onChainProposalId.isInteger || execution.onChainProposalId.le 0 then .error .onChainProposalIdInvalid
    else checkExecutions expected (execution.actionIndex :: seen) rest

def assertExecutionsComplete (proposal : CatalogProposal) (executions : List OnChainExecution) : Except Thrown Unit :=
  checkExecutions proposal.onChainPlan.actions.length [] executions

def applyCatalogChange (current : CatalogPolicy) (change : CatalogPolicyChange) (activatedAt : Instant) (proposalId : Nat) : CatalogPolicy where
  version := current.version + 1
  activatedAt := activatedAt
  proposalId := some proposalId
  feeds := projectFeeds host current.feeds change

def markActivated (proposal : CatalogProposal) (next : CatalogPolicy) (caller : String) (executions : List OnChainExecution) : CatalogProposal :=
  {proposal with
    status := .activated
    activatedAt := some next.activatedAt
    activatedVersion := some next.version
    activatedBy := some caller
    onChainExecutions := some executions}

def activate (now : Instant) (isFrozen : String → Bool) (id : Nat) (actor : String) (executions : List OnChainExecution) :
    Result (CatalogProposal × Governance) := do
  let caller ← requireActor host s actor
  let proposal ← someOr (s.proposals.get id) (.proposalNotFound id,s)
  require (proposal.status = .approved) (.proposalNotApproved id proposal.status,s)
  require (∃ timelockEndsAt ∈ proposal.timelockEndsAt, ¬ (now : Int) < timelockEndsAt) (.timelockActive id proposal.timelockEndsAt,s)
  let current := currentPolicy s
  let validation ← keeping (validateCatalogChange host current.version current.feeds proposal.change) (fun _ => .typeError) s
  require (validation.errors = []) (.policyDrift validation.errors,s)
  let recalculatedPlan := buildOnChainPlan host current.feeds validation.nextFeeds proposal.sourceAddresses
  require (recalculatedPlan.digest = proposal.onChainPlan.digest) (.planDrifted,s)
  let frozen := (validation.diff.added ++ validation.diff.removed ++ validation.diff.modified).find? isFrozen
  require (frozen = none) (.emergencyOverrideActive (frozen.getD ""),s)
  let _ ← keeping (assertExecutionsComplete proposal executions) (fun thrown => thrown) s
  let next := applyCatalogChange host current proposal.change now proposal.id
  let proposal := markActivated proposal next caller executions
  .ok (cloneProposal proposal,(s.push next).store id proposal)

def lapsed (now : Instant) (proposal : CatalogProposal) : Bool := proposal.status = .inReview ∧ (now : Int) > proposal.reviewDeadlineAt

def sweepExpired (now : Instant) : Result (Nat × Governance) :=
  .ok ((s.proposals.values.filter (lapsed now)).length,{s with
    proposals := s.proposals.map (fun proposal => if lapsed now proposal then {proposal with status := .expired} else proposal)})

inductive Call where
  | createProposal (proposer description : String) (change : CatalogPolicyChange) (sourceAddresses : InsertionMap String String)
  | createRollbackProposal (proposer : String) (targetVersion : Nat) (description : Option String) (sourceAddresses : InsertionMap String String)
  | attachImpact (id : Nat) (impact : CatalogImpactSummary)
  | recordReview (isRecused : String → RecusalRequest → List String) (id : Nat) (reviewer : String) (decision : Decision) (attested : Bool)
  | activate (isFrozen : String → Bool) (id : Nat) (actor : String) (executions : List OnChainExecution)
  | sweepExpired

structure Request where
  now : Instant
  call : Call

def next (request : Request) : Governance :=
  match request.call with
  | .createProposal proposer description change sourceAddresses =>
    stateOf (createProposal host s request.now proposer description change sourceAddresses)
  | .createRollbackProposal proposer targetVersion description sourceAddresses =>
    stateOf (createRollbackProposal host s request.now proposer targetVersion description sourceAddresses)
  | .attachImpact id impact => stateOf (attachImpact s id impact)
  | .recordReview isRecused id reviewer decision attested => stateOf (recordReview host s request.now isRecused id reviewer decision attested)
  | .activate isFrozen id actor executions => stateOf (activate host s request.now isFrozen id actor executions)
  | .sweepExpired => stateOf (sweepExpired s request.now)

end

abbrev Trace := List (Runs.Transition Governance Request)

def Clocked (ts : Trace) : Prop := (ts.map (fun t => (t.input.now : Int))).Pairwise (· ≤ ·)
end

structure Reviewable (now : Instant) (p : CatalogProposal) (review : CatalogReviewRecord) : Prop where
  opened : p.status = .inReview
  timely : (now : Int) ≤ p.reviewDeadlineAt
  timed : review.at' = now
  other : review.reviewer ≠ p.proposer
  fresh : ∀ earlier ∈ p.reviews, earlier.reviewer ≠ review.reviewer

-- What reviews and sweeps do to one proposal.
inductive Progress (now : Instant) (p : CatalogProposal) : CatalogProposal → Prop where
  | same : Progress now p p
  | analysed (opened : p.status = .inReview) : Progress now p {p with impact := some impact}
  | expired (opened : p.status = .inReview) : Progress now p {p with status := .expired}
  | reviewed (able : Reviewable now p review) : Progress now p {p with reviews := p.reviews ++ [review]}
  | rejected (able : Reviewable now p review) : Progress now p {p with reviews := p.reviews ++ [review], status := .rejected}
  | approved (able : Reviewable now p review) (enough : p.requiredApprovals ≤ (approvals {p with reviews := p.reviews ++ [review]}).length)
      (ends : timelockEndsAt = p.timelockEndsAt ∨ ∃ instant, timelockEndsAt = some instant ∧ (instant : Int) = now + timelockOf p * 1000) :
      Progress now p {p with reviews := p.reviews ++ [review], status := .approved, timelockEndsAt := timelockEndsAt}

-- A change written against a policy: it names it, and was classified and planned on it.
structure Authored (host : Host) (policy : CatalogPolicy) (p : CatalogProposal) : Prop where
  normal : normalizeChange host p.change = .ok p.change
  base : p.change.baseVersion = .finite policy.version
  impact : p.change.kind = .rollback ∨ Loosens policy.feeds (projectFeeds host policy.feeds p.change) → p.highImpact = true
  required : p.requiredApprovals = if p.highImpact then highImpactApprovals else requiredApprovals
  deadline : (p.reviewDeadlineAt : Int) = p.createdAt + reviewWindowSeconds * 1000
  plan : p.onChainPlan = buildOnChainPlan host policy.feeds (projectFeeds host policy.feeds p.change) p.sourceAddresses
  addressed : p.onChainPlan.missingSourceAddresses = []

structure Opened (now : Instant) (id : Nat) (p : CatalogProposal) : Prop where
  named : p.id = id
  opened : p.status = .inReview
  created : p.createdAt = now
  unlocked : p.timelockEndsAt = none
  unreviewed : p.reviews = []

structure Accepted (host : Host) (policy : CatalogPolicy) (change : CatalogPolicyChange) : Prop where
  base : change.baseVersion = .finite policy.version
  valid : ∀ feed ∈ change.upserts, validateFeed feed = []
  enabled : ∃ feed ∈ projectFeeds host policy.feeds change, feed.enabled = true

-- What a call leaves, whether it is refused or not.
inductive Effect (host : Host) (now : Instant) (s : Governance) : Governance → Prop where
  | progressed (versions : s'.versions = s.versions) (count : s.proposalCount ≤ s'.proposalCount)
      (each : ∀ id, Rel (Progress now) (s.proposals.get id) (s'.proposals.get id)) : Effect host now s s'
  | created (authored : Authored host (currentPolicy s) p) (opened : Opened now (s.proposalCount + 1) p) :
      Effect host now s ({s with proposalCount := s.proposalCount + 1}.store (s.proposalCount + 1) p)
  | activated {id : Nat} (found : s.proposals.get id = some p) (approved : p.status = .approved) (waited : ∃ ends ∈ p.timelockEndsAt, (ends : Int) ≤ now)
      (accepted : normalizeChange host p.change = .ok p.change → Accepted host (currentPolicy s) p.change) :
      Effect host now s ((s.push (applyCatalogChange host (currentPolicy s) p.change now p.id)).store id
        (markActivated p (applyCatalogChange host (currentPolicy s) p.change now p.id) caller executions))

section
variable {id : Nat}

theorem toISOString_exact (dated : toISOString ms = some instant) : (instant : Int) = ms := by
  unfold toISOString at dated
  split at dated
  · cases dated
    rfl
  · cases dated

theorem stateOf_actor {P : Governance → Prop} (failed : P s)
    (passed : ∀ actor, P (stateOf (rest actor))) : P (stateOf (requireActor host s given >>= rest)) := by
  unfold requireActor
  rw [bind_assoc]
  apply stateOf_require failed
  intro _
  exact passed _

theorem rel_same : Rel (Progress now) p p := by
  cases p with
  | none => exact .none
  | some => exact .some .same

theorem Effect.unchanged : Effect host now s s := .progressed rfl (Nat.le_refl _) (fun _ => rel_same)

theorem Effect.stored (found : s.proposals.get id = some p) (progress : Progress now p p') : Effect host now s (s.store id p') := by
  refine .progressed rfl (Nat.le_refl _) ?_
  intro other
  rcases eq_or_ne other id with rfl | here
  · rw [found]
    simp only [Governance.store,get_set]
    exact .some progress
  · simp only [Governance.store,get_set_ne here]
    exact rel_same

theorem create_effect : Effect host now s (stateOf (createProposal host s now proposer description given sourceAddresses)) := by
  apply stateOf_actor .unchanged
  intro _
  apply stateOf_require .unchanged
  intro _
  apply stateOf_require .unchanged
  intro _
  apply stateOf_keeping .unchanged
  intro _ normalized
  apply stateOf_keeping .unchanged
  intro _ validated
  apply stateOf_require .unchanged
  intro none
  apply stateOf_require .unchanged
  intro addressed
  apply stateOf_someOr (.progressed rfl (Nat.le_succ _) (fun _ => rel_same))
  intro _ dated
  have normal := normalizeChange_settles normalized
  obtain ⟨nextFeeds,_,errors,highImpact⟩ := validation_parts normal validated
  refine .created ⟨normal,(accepted_parts (errors.symm.trans none)).1,?_,rfl,toISOString_exact dated,?_,addressed⟩ ⟨rfl,rfl,rfl,rfl,rfl⟩
  · rintro (rollback | loosens)
    · exact highImpact.mpr (.inl rollback)
    · exact loosens_highImpact normal validated none loosens
  · exact congrArg (buildOnChainPlan host _ · sourceAddresses) nextFeeds

theorem rollback_effect : Effect host now s (stateOf (createRollbackProposal host s now proposer targetVersion description sourceAddresses)) := by
  apply stateOf_require .unchanged
  intro _
  unfold policyVersion
  rw [bind_assoc]
  apply stateOf_someOr .unchanged
  intro _ _
  exact create_effect

theorem impact_effect : Effect host now s (stateOf (attachImpact s id impact)) := by
  apply stateOf_someOr .unchanged
  intro p found
  apply stateOf_require .unchanged
  intro opened
  exact .stored found (.analysed opened)

theorem settle_effect (found : s.proposals.get id = some p) (able : Reviewable now p ⟨actor,decision,now⟩) :
    Effect host now s (stateOf (settleReview s now id {p with reviews := p.reviews ++ [⟨actor,decision,now⟩]} decision (completesApproval p decision))) := by
  unfold settleReview
  split
  · exact .stored found (.rejected able)
  · split
    · rename_i completes
      have enough : p.requiredApprovals ≤ (approvals {p with reviews := p.reviews ++ [⟨actor,decision,now⟩]}).length := by
        obtain ⟨rfl,enough⟩ := of_decide_eq_true completes
        simpa [approvals] using enough
      apply stateOf_someOr (.stored found (.approved able enough (.inl rfl)))
      intro timelockEndsAt dated
      exact .stored found (.approved able enough (.inr ⟨timelockEndsAt,rfl,toISOString_exact dated⟩))
    · exact .stored found (.reviewed able)

theorem review_effect : Effect host now s (stateOf (recordReview host s now isRecused id reviewer decision attested)) := by
  apply stateOf_actor .unchanged
  intro _
  apply stateOf_someOr .unchanged
  intro p found
  apply stateOf_require .unchanged
  intro opened
  apply stateOf_require (.stored found (.expired opened))
  intro timely
  apply stateOf_require .unchanged
  intro other
  apply stateOf_require .unchanged
  intro _
  apply stateOf_require .unchanged
  intro fresh
  apply stateOf_require .unchanged
  intro _
  apply stateOf_require .unchanged
  intro _
  apply stateOf_require .unchanged
  intro _
  exact settle_effect found ⟨opened,Int.not_lt.mp timely,rfl,other,fun earlier mem same => fresh ⟨earlier,mem,same⟩⟩

theorem activate_effect : Effect host now s (stateOf (activate host s now isFrozen id actor executions)) := by
  apply stateOf_actor .unchanged
  intro _
  apply stateOf_someOr .unchanged
  intro p found
  apply stateOf_require .unchanged
  intro approved
  apply stateOf_require .unchanged
  rintro ⟨ends,held,elapsed⟩
  apply stateOf_keeping .unchanged
  intro _ validated
  apply stateOf_require .unchanged
  intro none
  apply stateOf_require .unchanged
  intro _
  apply stateOf_require .unchanged
  intro _
  apply stateOf_keeping .unchanged
  intro _ _
  refine .activated found approved ⟨ends,held,Int.not_lt.mp elapsed⟩ ?_
  intro normal
  obtain ⟨_,_,errors,_⟩ := validation_parts normal validated
  obtain ⟨base,valid,enabled⟩ := accepted_parts (errors.symm.trans none)
  exact ⟨base,valid,enabled⟩

theorem sweep_effect : Effect host now s (stateOf (sweepExpired s now)) := by
  refine .progressed rfl (Nat.le_refl _) ?_
  intro id
  simp only [sweepExpired,stateOf,get_map]
  cases s.proposals.get id with
  | none => exact .none
  | some =>
    refine .some ?_
    dsimp only
    split
    · rename_i late
      exact .expired (of_decide_eq_true late).1
    · exact .same

theorem next_effect : Effect host request.now s (next host s request) := by
  obtain ⟨_,call⟩ := request
  cases call with
  | createProposal => exact create_effect
  | createRollbackProposal => exact rollback_effect
  | attachImpact => exact impact_effect
  | recordReview => exact review_effect
  | activate => exact activate_effect
  | sweepExpired => exact sweep_effect

section
variable (progress : Progress now p p')
include progress

theorem Progress.proposed : p'.id = p.id ∧ p'.change = p.change ∧ p'.proposer = p.proposer ∧
    p'.createdAt = p.createdAt ∧ p'.reviewDeadlineAt = p.reviewDeadlineAt ∧ p'.highImpact = p.highImpact ∧
    p'.requiredApprovals = p.requiredApprovals := by
  cases progress <;> exact ⟨rfl,rfl,rfl,rfl,rfl,rfl,rfl⟩

theorem Progress.planned : p'.onChainPlan = p.onChainPlan ∧ p'.sourceAddresses = p.sourceAddresses := by
  cases progress <;> exact ⟨rfl,rfl⟩

theorem Progress.closed (closed : p.status ≠ .inReview) : p' = p := by
  cases progress with
  | same => rfl
  | analysed opened | expired opened => exact absurd opened closed
  | reviewed able | rejected able | approved able _ _ => exact absurd able.opened closed

end

-- Where a proposal in the new state comes from.
inductive Origin (host : Host) (now : Instant) (s s' : Governance) (id : Nat) (p' : CatalogProposal) : Prop where
  | progressed (found : s.proposals.get id = some p) (progress : Progress now p p')
  | created (new : id = s.proposalCount + 1) (room : id ≤ s'.proposalCount) (authored : Authored host (currentPolicy s) p') (opened : Opened now id p')
  | activated (found : s.proposals.get id = some p) (approved : p.status = .approved)
      (marked : p' = markActivated p (applyCatalogChange host (currentPolicy s) p.change now p.id) caller executions)

section
variable (effect : Effect host now s s')
include effect

theorem Effect.origin (found : s'.proposals.get id = some p') : Origin host now s s' id p' := by
  cases effect with
  | progressed _ _ each =>
    have related := each id
    rw [found] at related
    cases held : s.proposals.get id with
    | none =>
      rw [held] at related
      cases related
    | some =>
      rw [held] at related
      cases related with
      | some progress => exact .progressed held progress
  | created authored opened =>
    rcases eq_or_ne id (s.proposalCount + 1) with rfl | here
    · simp only [Governance.store,get_set,some.injEq] at found
      subst found
      exact .created rfl (Nat.le_refl _) authored opened
    · simp only [Governance.store,get_set_ne here] at found
      exact .progressed found .same
  | @activated p caller executions other held approved _ _ =>
    rcases eq_or_ne id other with rfl | here
    · simp only [Governance.store,get_set,some.injEq] at found
      exact .activated held approved found.symm
    · simp only [Governance.store,Governance.push,get_set_ne here] at found
      exact .progressed found .same

theorem Effect.appends : s.versions <+: s'.versions := by
  cases effect with
  | progressed versions => exact versions ▸ prefix_refl _
  | created => exact prefix_refl _
  | activated => exact prefix_append _ _

theorem Effect.counts : s.proposalCount ≤ s'.proposalCount := by
  cases effect with
  | progressed _ count => exact count
  | created => exact Nat.le_succ _
  | activated => exact Nat.le_refl _

end
end

theorem run_effect (path : Runs.Run (Runs.total (next host)) start ts s) (mem : t ∈ ts) :
    Effect host t.input.now t.before t.after := by
  have effect : Effect host t.input.now t.before (next host t.before t.input) := next_effect
  rwa [Except.ok.inj (path.accepted mem)] at effect

end StellarPriceOracle.CatalogGovernance
