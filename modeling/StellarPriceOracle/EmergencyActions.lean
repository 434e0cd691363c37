import StellarPriceOracle.CatalogGovernance

namespace StellarPriceOracle.EmergencyActions
open Guarded JsArray
open CatalogGovernance (RecusalRequest)
open InsertionMap (get_map mem_values get_set_ne get_set)
open List

-- api/src/governance/emergency-actions.ts. Dates are their time values in milliseconds.
inductive EmergencyActionKind where
  | pauseFeed | freezeSource | haltPublishing
  deriving DecidableEq

def EmergencyActionKind.name : EmergencyActionKind → String
  | .pauseFeed => "pause-feed"
  | .freezeSource => "freeze-source"
  | .haltPublishing => "halt-publishing"

def restrictiveKinds : List EmergencyActionKind := [.pauseFeed,.freezeSource,.haltPublishing]

def readKind (kind : String) : Option EmergencyActionKind := restrictiveKinds.find? (fun k => k.name = kind)

inductive EmergencyActionStatus where
  | active | reviewed | expired | revoked | expiredUnreviewed
  deriving DecidableEq

inductive ReviewDecision where
  | confirm | overturn
  deriving DecidableEq

structure Disclosure where
  required : Bool
  publishedAt : Option Int
  (publishedBy summary : Option String)
  overdue : Option Bool

structure EmergencyAction where
  id : Nat
  kind : EmergencyActionKind
  (asset source : Option String)
  (reason actor : String)
  (createdAt expiresAt reviewDeadlineAt : Int)
  status : EmergencyActionStatus
  reviewer : Option String
  reviewedAt : Option Int
  reviewDecision : Option ReviewDecision
  reviewOverdue : Option Bool
  (renewals policyVersionAtCreation : Nat)
  revokedBy : Option String
  revokedAt : Option Int
  revocationReason : Option String
  disclosure : Disclosure

namespace EmergencyLimits
def maxDurationSeconds : Nat := 72 * 60 * 60
def reviewWindowSeconds : Nat := 24 * 60 * 60
def disclosureWindowSeconds : Nat := 24 * 60 * 60
def maxRenewals : Nat := 2
def maxReasonLength : Nat := 500
def maxDisclosureLength : Nat := 2000
end EmergencyLimits

open EmergencyLimits (maxDisclosureLength maxDurationSeconds maxReasonLength maxRenewals)

def maxDurationMs : Int := maxDurationSeconds * 1000
def reviewWindowMs : Int := EmergencyLimits.reviewWindowSeconds * 1000
def disclosureWindowMs : Int := EmergencyLimits.disclosureWindowSeconds * 1000

inductive Thrown where
  | invalidRequest (field : String)
  | kindNotPermitted (kind : String)
  | reasonTooLong
  | scopeRequired (kind : EmergencyActionKind)
  | scopeNotAllowed
  | duplicateEmergencyAction (kind : EmergencyActionKind) (id : Nat)
  | notFound (id : Nat)
  | alreadyReviewed (id : Nat)
  | closedToReview (id : Nat) (status : EmergencyActionStatus)
  | reviewDeadlinePassed (reviewDeadlineAt : Int)
  | independentReviewRequired
  | attestationRequired
  | conflictOfInterest (actor : String) (reasons : List String)
  | reviewRequiredBeforeRenewal (id : Nat) (status : EmergencyActionStatus)
  | renewalLimitReached (id renewals : Nat)
  | renewalTooLong
  | renewalTotalCapExceeded (renewals : Nat)
  | closedToRevocation (id : Nat) (status : EmergencyActionStatus)
  | revocationReasonTooLong
  | disclosureTooLong
  | disclosureBeforeClose
  | disclosureAlreadyPublished
  | expiryRequired
  | invalidExpiry
  | expiryNotExtending (renewal : Bool)
  | expiryTooFar

structure EmergencyActionRegistry where
  actions : InsertionMap Nat EmergencyAction
  actionCount : Nat

def EmergencyActionRegistry.create : EmergencyActionRegistry := ⟨.empty,0⟩

-- `Date.parse`, and the time value of the expiry; none for NaN.
structure Host where
  text : JsText
  parseDate : String → Option Int
  later : Int → JsNumber → Option Int

abbrev Result := Except (Thrown × EmergencyActionRegistry)

def isOpen (action : EmergencyAction) : Bool := action.status = .active || action.status = .reviewed

def present (text : Option String) : Bool := text.any (fun s => decide (s ≠ ""))

def recusalRequestFor (action : EmergencyAction) : RecusalRequest where
  assets := if present action.asset then action.asset.toList else []
  sources := if present action.source then action.source.toList else []

def expire (now : Int) (action : EmergencyAction) : EmergencyAction :=
  if isOpen action ∧ now ≥ action.expiresAt then
    {action with status := if action.status = .reviewed then .expired else .expiredUnreviewed}
  else action

def flagReview (action : EmergencyAction) : EmergencyAction :=
  if action.reviewedAt.isNone = true ∧ ¬ isOpen action ∧ action.status = .expiredUnreviewed then {action with reviewOverdue := some true}
  else action

def flagDisclosure (now : Int) (action : EmergencyAction) : EmergencyAction :=
  if action.disclosure.publishedAt.isNone = true ∧ now ≥ action.expiresAt + disclosureWindowMs then
    {action with disclosure := {action.disclosure with overdue := some true}}
  else action

def sweepAction (now : Int) (action : EmergencyAction) : EmergencyAction := flagDisclosure now (flagReview (expire now action))

namespace EmergencyActionRegistry

section
variable (s : EmergencyActionRegistry)

@[simp] def put (id : Nat) (action : EmergencyAction) : EmergencyActionRegistry := {s with actions := s.actions.set id action}

def swept (now : Int) : EmergencyActionRegistry := {s with actions := s.actions.map (sweepAction now)}

def sweep (now : Int) : Nat × EmergencyActionRegistry :=
  ((s.actions.values.filter (fun action => isOpen action && decide (now ≥ action.expiresAt))).length,s.swept now)

def requireAction (id : Nat) : Result EmergencyAction := someOr (s.actions.get id) (.notFound id,s)

end

end EmergencyActionRegistry

structure Overlays where
  (assets sources : List String)
  halted : Bool

structure OpenInput where
  (kind reason actor : String)
  (asset source expiresAt : Option String)
  durationSeconds : Option JsNumber

section
variable (host : Host)

section
variable (s : EmergencyActionRegistry)

def requireText (value field : String) : Result String := do
  require (host.text.trim value ≠ "") (.invalidRequest field,s)
  .ok (host.text.trim value)

def resolveExpiry (now : Int) (expiresAt : Option String) (durationSeconds : Option JsNumber) (floor : Option Int) : Except Thrown Int := do
  let hasExpiry := expiresAt.any (fun text => decide (host.text.trim text ≠ ""))
  require (hasExpiry = true ∨ durationSeconds.isSome) .expiryRequired
  let resolved ← someOr (if hasExpiry then expiresAt.bind host.parseDate else durationSeconds.bind (host.later now)) .invalidExpiry
  require (¬ resolved ≤ floor.getD now) (.expiryNotExtending floor.isSome)
  require (¬ (floor.isNone = true ∧ resolved > now + maxDurationMs)) .expiryTooFar
  .ok resolved

def newAction (id : Nat) (kind : EmergencyActionKind) (asset source : Option String) (reason actor : String) (now expiresAt : Int)
    (policyVersion : Nat) : EmergencyAction where
  id := id
  kind := kind
  asset := asset
  source := source
  reason := reason
  actor := actor
  createdAt := now
  expiresAt := expiresAt
  reviewDeadlineAt := min (now + reviewWindowMs) expiresAt
  status := .active
  reviewer := none
  reviewedAt := none
  reviewDecision := none
  reviewOverdue := none
  renewals := 0
  policyVersionAtCreation := policyVersion
  revokedBy := none
  revokedAt := none
  revocationReason := none
  disclosure := ⟨true,none,none,none,none⟩

def covers (kind : EmergencyActionKind) (asset source : Option String) (action : EmergencyAction) : Bool :=
  isOpen action && action.kind = kind && action.asset = asset && action.source = source

def openAction (now again : Int) (policyVersion : Nat) (input : OpenInput) : Result (EmergencyAction × EmergencyActionRegistry) := do
  let actor ← requireText host s input.actor "actor"
  let kind ← someOr (readKind input.kind) (.kindNotPermitted input.kind,s)
  let reason ← requireText host s input.reason "reason"
  require (¬ (utf16 reason).length > maxReasonLength) (.reasonTooLong,s)
  let expiresAt ← keeping (resolveExpiry host now input.expiresAt input.durationSeconds none) id s
  let asset := input.asset.map (fun a => host.text.toUpperCase (host.text.trim a))
  let source := input.source.map (fun a => host.text.toLowerCase (host.text.trim a))
  require (¬ (kind = .pauseFeed ∧ present asset = false)) (.scopeRequired .pauseFeed,s)
  require (¬ (kind = .freezeSource ∧ present source = false)) (.scopeRequired .freezeSource,s)
  require (¬ (kind = .haltPublishing ∧ (present asset = true ∨ present source = true))) (.scopeNotAllowed,s)
  let s := s.swept again
  let duplicate := s.actions.values.find? (covers kind asset source)
  require (duplicate.isNone = true) (.duplicateEmergencyAction kind ((duplicate.map EmergencyAction.id).getD 0),s)
  let action := newAction (s.actionCount + 1) kind asset source reason actor now expiresAt policyVersion
  .ok (action,{s with actions := s.actions.set action.id action,actionCount := s.actionCount + 1})

def get (now : Int) (id : Nat) : Result (EmergencyAction × EmergencyActionRegistry) := do
  let action ← (s.swept now).requireAction id
  .ok (action,s.swept now)

def list (now : Int) (status : Option EmergencyActionStatus) : Result (List EmergencyAction × EmergencyActionRegistry) :=
  let found := (s.swept now).actions.values.filter (fun action => status.all (fun wanted => decide (action.status = wanted)))
  .ok (sortBy (fun a b => decide (b.id ≤ a.id)) found,s.swept now)

def countersign (action : EmergencyAction) (actor : String) (now : Int) (decision : ReviewDecision) : EmergencyAction :=
  let action := {action with reviewer := some actor,reviewedAt := some now,reviewDecision := some decision,reviewOverdue := some false}
  match decision with
  | .overturn =>
    {action with
      status := .revoked
      revokedBy := some actor
      revokedAt := some now
      revocationReason := some "overturned on independent review"}
  | .confirm => {action with status := .reviewed}

def review (now again : Int) (isRecused : String → RecusalRequest → List String) (id : Nat) (reviewer : String)
    (decision : ReviewDecision) (attested : Bool) : Result (EmergencyAction × EmergencyActionRegistry) := do
  let actor ← requireText host s reviewer "reviewer"
  let s := s.swept now
  let action ← s.requireAction id
  require (action.status ≠ .reviewed) (.alreadyReviewed id,s)
  require (action.status = .active) (.closedToReview id action.status,s)
  require (¬ again > action.reviewDeadlineAt)
    (.reviewDeadlinePassed action.reviewDeadlineAt,s.put id {action with reviewOverdue := some true})
  require (actor ≠ action.actor) (.independentReviewRequired,s)
  require (attested = true) (.attestationRequired,s)
  let reasons := isRecused actor (recusalRequestFor action)
  require (reasons.isEmpty = true) (.conflictOfInterest actor reasons,s)
  let action := countersign action actor again decision
  .ok (action,s.put id action)

def extend (action : EmergencyAction) (now expiresAt : Int) : EmergencyAction :=
  {action with
    expiresAt := expiresAt
    renewals := action.renewals + 1
    status := .active
    reviewer := none
    reviewedAt := none
    reviewDecision := none
    reviewOverdue := some false
    reviewDeadlineAt := min (now + reviewWindowMs) expiresAt}

def renew (now again : Int) (id : Nat) (actor : String) (expiresAt : Option String)
    (durationSeconds : Option JsNumber) : Result (EmergencyAction × EmergencyActionRegistry) := do
  let _ ← requireText host s actor "actor"
  let s := s.swept now
  let action ← s.requireAction id
  require (action.status = .reviewed) (.reviewRequiredBeforeRenewal id action.status,s)
  require (¬ action.renewals ≥ maxRenewals) (.renewalLimitReached id action.renewals,s)
  let resolved ← keeping (resolveExpiry host again expiresAt durationSeconds (some action.expiresAt)) (fun thrown => thrown) s
  require (¬ resolved > action.expiresAt + maxDurationMs) (.renewalTooLong,s)
  require (¬ resolved > action.createdAt + maxDurationMs * (action.renewals + 2)) (.renewalTotalCapExceeded action.renewals,s)
  let action := extend action again resolved
  .ok (action,s.put id action)

def revocation (action : EmergencyAction) (caller : String) (now : Int) (reason : Option String) : EmergencyAction :=
  {action with
    status := .revoked
    revokedBy := some caller
    revokedAt := some now
    revocationReason := (reason.map host.text.trim).filter (fun text => decide (text ≠ ""))}

def revoke (now again : Int) (id : Nat) (actor : String) (reason : Option String) :
    Result (EmergencyAction × EmergencyActionRegistry) := do
  let caller ← requireText host s actor "actor"
  let s := s.swept now
  let action ← s.requireAction id
  require (isOpen action = true) (.closedToRevocation id action.status,s)
  require (¬ (utf16 (reason.getD "")).length > maxReasonLength) (.revocationReasonTooLong,s)
  let action := revocation host action caller again reason
  .ok (action,s.put id action)

def disclose (action : EmergencyAction) (now : Int) (summary caller : String) : EmergencyAction :=
  {action with disclosure := ⟨true,some now,some caller,some summary,some (decide (now > action.expiresAt + disclosureWindowMs))⟩}

def publishDisclosure (now again : Int) (id : Nat) (summary actor : String) : Result (EmergencyAction × EmergencyActionRegistry) := do
  let caller ← requireText host s actor "actor"
  let summary ← requireText host s summary "summary"
  require (¬ (utf16 summary).length > maxDisclosureLength) (.disclosureTooLong,s)
  let s := s.swept now
  let action ← s.requireAction id
  require (isOpen action = false) (.disclosureBeforeClose,s)
  require (action.disclosure.publishedAt.isNone = true) (.disclosureAlreadyPublished,s)
  let action := disclose action again summary caller
  .ok (action,s.put id action)

def overlaysOf (actions : List EmergencyAction) : Overlays :=
  let inForce := actions.filter isOpen
  ⟨distinct ((inForce.filter (fun action => action.kind = .pauseFeed && present action.asset)).filterMap EmergencyAction.asset),
    distinct ((inForce.filter (fun action => action.kind = .freezeSource && present action.source)).filterMap EmergencyAction.source),
    inForce.any (fun action => action.kind = .haltPublishing)⟩

def activeOverlays (now : Int) : Overlays × EmergencyActionRegistry :=
  (overlaysOf (s.swept now).actions.values,s.swept now)

def isFrozen (now : Int) (asset : String) : Bool :=
  let overlays := (activeOverlays s now).1
  overlays.halted || decide (host.text.toUpperCase (host.text.trim asset) ∈ overlays.assets)

def isSourceFrozen (now : Int) (source : String) : Bool :=
  let overlays := (activeOverlays s now).1
  overlays.halted || decide (host.text.toLowerCase (host.text.trim source) ∈ overlays.sources)

def overdueReviews (now again : Int) : List EmergencyAction × EmergencyActionRegistry :=
  let found := (s.swept now).actions.values.filter (fun action => action.status = .active && decide (again > action.reviewDeadlineAt))
  (sortBy (fun a b => decide (a.id ≤ b.id)) found,s.swept now)

def overdueDisclosures (now : Int) : List EmergencyAction × EmergencyActionRegistry :=
  let found := (s.swept now).actions.values.filter (fun action =>
    !isOpen action && action.disclosure.publishedAt.isNone && action.disclosure.overdue = some true)
  (sortBy (fun a b => decide (a.id ≤ b.id)) found,s.swept now)

inductive Call where
  | openAction (policyVersion : Nat) (input : OpenInput)
  | get (id : Nat)
  | list (status : Option EmergencyActionStatus)
  | review (isRecused : String → RecusalRequest → List String) (id : Nat) (reviewer : String) (decision : ReviewDecision) (attested : Bool)
  | renew (id : Nat) (actor : String) (expiresAt : Option String) (durationSeconds : Option JsNumber)
  | revoke (id : Nat) (actor : String) (reason : Option String)
  | publishDisclosure (id : Nat) (summary actor : String)
  | sweep
  | activeOverlays
  | overdueReviews
  | overdueDisclosures

-- A call with the two readings of the clock that it may make.
structure Request where
  (now again : Int)
  call : Call

def perform (request : Request) : Result (List EmergencyAction × EmergencyActionRegistry) :=
  let single (result : Result (EmergencyAction × EmergencyActionRegistry)) := result.map (fun r => ([r.1],r.2))
  match request.call with
  | .openAction policyVersion input => single (openAction host s request.now request.again policyVersion input)
  | .get id => single (get s request.now id)
  | .list status => list s request.now status
  | .review isRecused id reviewer decision attested => single (review host s request.now request.again isRecused id reviewer decision attested)
  | .renew id actor expiresAt durationSeconds => single (renew host s request.now request.again id actor expiresAt durationSeconds)
  | .revoke id actor reason => single (revoke host s request.now request.again id actor reason)
  | .publishDisclosure id summary actor => single (publishDisclosure host s request.now request.again id summary actor)
  | .sweep => .ok ([],(s.sweep request.now).2)
  | .activeOverlays => .ok ((s.swept request.now).actions.values.filter isOpen,(activeOverlays s request.now).2)
  | .overdueReviews => .ok (overdueReviews s request.now request.again)
  | .overdueDisclosures => .ok (overdueDisclosures s request.now)

def next (request : Request) : EmergencyActionRegistry := stateOf (perform host s request)

end

abbrev Trace := List (Runs.Transition EmergencyActionRegistry Request)

-- The readings of the clock never go back, within a call and from call to call.
def Clocked (ts : Trace) : Prop := (ts.flatMap (fun t => [t.input.now,t.input.again])).Pairwise (· ≤ ·)
end

structure Opens (host : Host) (request : Request) (id : Nat) (policyVersion : Nat) (input : OpenInput) (action : EmergencyAction) : Prop where
  called : request.call = .openAction policyVersion input
  named : action.id = id
  kind : readKind input.kind = some action.kind
  asset : action.asset = input.asset.map (fun a => host.text.toUpperCase (host.text.trim a))
  source : action.source = input.source.map (fun a => host.text.toLowerCase (host.text.trim a))
  author : action.actor = host.text.trim input.actor
  created : action.createdAt = request.now
  future : request.now < action.expiresAt
  short : action.expiresAt ≤ request.now + maxDurationMs
  deadline : action.reviewDeadlineAt = min (request.now + reviewWindowMs) action.expiresAt
  status : action.status = .active
  renewals : action.renewals = 0
  unrevoked : action.revokedAt = none

inductive Act where
  | opened (actor : String) (time : Int)
  | renewed (actor : String) (time : Int)
  | reviewed (actor : String) (decision : ReviewDecision) (time : Int)

def Act.actor : Act → String
  | .opened actor _ | .renewed actor _ | .reviewed actor _ _ => actor

-- A change to one action, by a call that goes through.
inductive Deed (host : Host) (request : Request) (id : Nat) (b : EmergencyAction) : Option Act → EmergencyAction → Prop where
  | countersigned : request.call = .review isRecused id reviewer decision attested → b.status = .active →
      request.again ≤ b.reviewDeadlineAt → host.text.trim reviewer ≠ b.actor →
      Deed host request id b (some (.reviewed (host.text.trim reviewer) decision request.again))
        (countersign b (host.text.trim reviewer) request.again decision)
  | renewed : request.call = .renew id actor expiresAt durationSeconds → b.status = .reviewed → b.renewals < 2 →
      b.expiresAt < resolved → resolved ≤ b.createdAt + maxDurationMs * (b.renewals + 2) →
      Deed host request id b (some (.renewed (host.text.trim actor) request.again)) (extend b request.again resolved)
  | revoked : request.call = .revoke id actor reason → isOpen b = true →
      Deed host request id b none (revocation host b (host.text.trim actor) request.again reason)
  | disclosed : request.call = .publishDisclosure id summary actor → isOpen b = false →
      Deed host request id b none (disclose b request.again (host.text.trim summary) (host.text.trim actor))

def Call.reads : Call → Bool
  | .get _ | .list _ | .sweep | .activeOverlays | .overdueReviews | .overdueDisclosures => true
  | _ => false

-- A refused call may still have swept or flagged.
inductive Effect (host : Host) (request : Request) (s : EmergencyActionRegistry) :
    Result (List EmergencyAction × EmergencyActionRegistry) → Prop where
  | refused : Effect host request s (.error (thrown,s))
  | swept : time = request.now ∨ time = request.again → Effect host request s (.error (thrown,s.swept time))
  | flagged {id : Nat} : (s.swept request.now).actions.get id = some b → b.status = .active →
      Effect host request s
        (.error (thrown,(s.swept request.now).put id {b with reviewOverdue := some true}))
  | shown : request.call.reads = true → (∀ a ∈ found, ∃ id, (s.swept request.now).actions.get id = some a) →
      Effect host request s (.ok (found,s.swept request.now))
  | wrote {id : Nat} : (s.swept request.now).actions.get id = some b → Deed host request id b act written →
      Effect host request s (.ok ([written],(s.swept request.now).put id written))
  | opened : Opens host request (s.actionCount + 1) policyVersion input action →
      Effect host request s (.ok ([action],⟨(s.swept request.again).actions.set (s.actionCount + 1) action,s.actionCount + 1⟩))

section
variable {s : EmergencyActionRegistry} {id : Nat}

@[simp] theorem swept_get : (s.swept time).actions.get id = (s.actions.get id).map (sweepAction time) :=
  get_map

-- A sweep writes three fields only.
theorem sweepAction_keeps (now : Int) (a : EmergencyAction) :
    ∃ status reviewOverdue disclosure, sweepAction now a = {a with status,reviewOverdue,disclosure} := by
  unfold sweepAction flagDisclosure flagReview expire
  repeat' split
  all_goals exact ⟨_,_,_,rfl⟩

theorem sweepAction_status (now : Int) (a : EmergencyAction) : (sweepAction now a).status =
    if isOpen a ∧ now ≥ a.expiresAt then (if a.status = .reviewed then .expired else .expiredUnreviewed) else a.status := by
  have disclosed (b : EmergencyAction) : (flagDisclosure now b).status = b.status := by
    unfold flagDisclosure
    split <;> rfl
  have flagged (b : EmergencyAction) : (flagReview b).status = b.status := by
    unfold flagReview
    split <;> rfl
  rw [sweepAction,disclosed,flagged,expire]
  split <;> rfl

def Single (host : Host) (request : Request) (s : EmergencyActionRegistry) (result : Result (EmergencyAction × EmergencyActionRegistry)) : Prop :=
  Effect host request s (result.map (fun r => ([r.1],r.2)))

theorem of_requireText {P : Result β → Prop}
    (failed : P (.error (.invalidRequest field,s))) (passed : P (rest (host.text.trim value))) :
    P (requireText host s value field >>= rest) := by
  unfold requireText
  by_cases given : host.text.trim value ≠ ""
  · simpa [require,given,bind,Except.bind] using passed
  · simpa [require,given,bind,Except.bind] using failed

theorem of_requireAction {P : Result β → Prop} (failed : P (.error (.notFound id,s)))
    (passed : ∀ a, s.actions.get id = some a → P (rest a)) : P (s.requireAction id >>= rest) := of_someOr failed passed

theorem resolveExpiry_ok (done : resolveExpiry host now expiresAt durationSeconds floor = .ok resolved) :
    floor.getD now < resolved ∧ (floor = none → resolved ≤ now + maxDurationMs) := by
  simp only [resolveExpiry,bind_ok,require_ok,someOr_ok,Except.ok.injEq] at done
  obtain ⟨_,_,_,_,_,later,_,near,rfl⟩ := done
  refine ⟨Int.not_le.mp later,?_⟩
  rintro rfl
  simpa using near

theorem Single.refused : Single host request s (.error (thrown,s)) := Effect.refused

theorem Single.swept : Single host request s (.error (thrown,s.swept request.now)) := Effect.swept (.inl rfl)

theorem Single.sweptAgain : Single host request s (.error (thrown,s.swept request.again)) := Effect.swept (.inr rfl)

theorem get_effect (called : request.call = .get id) : Single host request s (get s request.now id) := by
  apply of_requireAction .swept
  intro b found
  refine Effect.shown (by rw [called,Call.reads]) ?_
  intro a here
  exact ⟨id,mem_singleton.mp here ▸ found⟩

theorem review_effect (called : request.call = .review isRecused id reviewer decision attested) :
    Single host request s (review host s request.now request.again isRecused id reviewer decision attested) := by
  apply of_requireText .refused
  apply of_requireAction .swept
  intro b found
  apply of_require .swept
  intro _
  apply of_require .swept
  intro active
  apply of_require (P := Single host request s) (Effect.flagged found active)
  intro timely
  apply of_require .swept
  intro other
  apply of_require .swept
  intro _
  apply of_require .swept
  intro _
  exact Effect.wrote found (.countersigned called active (Int.not_lt.mp timely) other)

theorem renew_effect (called : request.call = .renew id actor expiresAt durationSeconds) :
    Single host request s (renew host s request.now request.again id actor expiresAt durationSeconds) := by
  apply of_requireText .refused
  apply of_requireAction .swept
  intro b found
  apply of_require .swept
  intro reviewed
  apply of_require .swept
  intro fewer
  apply of_keeping (fun _ => .swept)
  intro _ done
  apply of_require .swept
  intro _
  apply of_require .swept
  intro capped
  exact Effect.wrote found (.renewed called reviewed (Nat.lt_of_not_le fewer) (resolveExpiry_ok done).1 (Int.not_lt.mp capped))

theorem revoke_effect (called : request.call = .revoke id actor reason) :
    Single host request s (revoke host s request.now request.again id actor reason) := by
  apply of_requireText .refused
  apply of_requireAction .swept
  intro b found
  apply of_require .swept
  intro inForce
  apply of_require .swept
  intro _
  exact Effect.wrote found (.revoked called inForce)

theorem publishDisclosure_effect (called : request.call = .publishDisclosure id summary actor) :
    Single host request s (publishDisclosure host s request.now request.again id summary actor) := by
  apply of_requireText .refused
  apply of_requireText .refused
  apply of_require .refused
  intro _
  apply of_requireAction .swept
  intro b found
  apply of_require .swept
  intro closed
  apply of_require .swept
  intro _
  exact Effect.wrote found (.disclosed called closed)

theorem openAction_effect (called : request.call = .openAction policyVersion input) :
    Single host request s (openAction host s request.now request.again policyVersion input) := by
  apply of_requireText .refused
  apply of_someOr .refused
  intro _ known
  apply of_requireText .refused
  apply of_require .refused
  intro _
  apply of_keeping (fun _ => .refused)
  intro _ done
  apply of_require .refused
  intro _
  apply of_require .refused
  intro _
  apply of_require .refused
  intro _
  apply of_require .sweptAgain
  intro _
  obtain ⟨future,short⟩ := resolveExpiry_ok done
  exact Effect.opened ⟨called,rfl,known,rfl,rfl,rfl,rfl,future,short rfl,rfl,rfl,rfl,rfl⟩

theorem stored_of_sort : ∀ a ∈ sortBy le (s.actions.values.filter p), ∃ id, s.actions.get id = some a := by
  intro a present
  exact mem_values.mp (mem_of_mem_filter (mem_sortBy.mp present))

theorem perform_effect : Effect host request s (perform host s request) := by
  unfold perform
  cases called : request.call with
  | openAction => exact openAction_effect called
  | get => exact get_effect called
  | list => exact .shown (by rw [called,Call.reads]) stored_of_sort
  | review => exact review_effect called
  | renew => exact renew_effect called
  | revoke => exact revoke_effect called
  | publishDisclosure => exact publishDisclosure_effect called
  | sweep => exact .shown (by rw [called,Call.reads]) (forall_mem_nil _)
  | activeOverlays =>
    refine .shown (by rw [called,Call.reads]) ?_
    intro a present
    exact mem_values.mp (mem_of_mem_filter present)
  | overdueReviews | overdueDisclosures => exact .shown (by rw [called,Call.reads]) stored_of_sort

def actOf (host : Host) (s : EmergencyActionRegistry) (request : Request) (id : Nat) : Option Act :=
  if (perform host s request).toBool = false then none
  else match request.call with
    | .openAction _ input => if id = s.actionCount + 1 then some (.opened (host.text.trim input.actor) request.now) else none
    | .renew target actor _ _ => if id = target then some (.renewed (host.text.trim actor) request.again) else none
    | .review _ target reviewer decision _ => if id = target then some (.reviewed (host.text.trim reviewer) decision request.again) else none
    | _ => none

def Numbered (s : EmergencyActionRegistry) : Prop := ∀ id a, s.actions.get id = some a → a.id = id ∧ id ≤ s.actionCount

inductive Fate (host : Host) (request : Request) (id : Nat) : Option EmergencyAction → Option Act → Option EmergencyAction → Prop where
  | same : Fate host request id before none before
  | swept (time : Int) : Fate host request id (some a) none (some (sweepAction time a))
  | flagged : (sweepAction request.now a).status = .active →
      Fate host request id (some a) none (some {sweepAction request.now a with reviewOverdue := some true})
  | did : Deed host request id (sweepAction request.now a) act written → Fate host request id (some a) act (some written)
  | opened : Opens host request id policyVersion input a →
      Fate host request id none (some (.opened (host.text.trim input.actor) request.now)) (some a)

theorem Fate.of_swept (time : Int) : Fate host request id before none (before.map (sweepAction time)) := by
  cases before with
  | none => exact .same
  | some => exact .swept time

theorem swept_some (found : (s.swept time).actions.get id = some b) : ∃ a, s.actions.get id = some a ∧ b = sweepAction time a := by
  rw [swept_get,Option.map_eq_some_iff] at found
  obtain ⟨a,has,made⟩ := found
  exact ⟨a,has,made.symm⟩

theorem get_put_ne (apart : id ≠ target) :
    ((s.swept time).put target action).actions.get id = (s.actions.get id).map (sweepAction time) := by
  rw [EmergencyActionRegistry.put,get_set_ne apart,swept_get]

theorem Deed.act_eq (deed : Deed host request target b act written) (ran : (perform host s request).toBool = true) (id : Nat) :
    actOf host s request id = if id = target then act else none := by
  cases deed <;> rename_i called _ <;> simp_all [actOf]

theorem next_fate (numbered : Numbered s) :
    Fate host request id (s.actions.get id) (actOf host s request id) ((next host s request).actions.get id) := by
  have effect : Effect host request s (perform host s request) := perform_effect
  unfold next
  generalize ran : perform host s request = r at effect
  have silent (refused : r.toBool = false) : actOf host s request id = none := by
    simp [actOf,ran,refused]
  cases effect with
  | refused =>
    rw [silent rfl]
    exact .same
  | swept =>
    rw [silent rfl]
    exact swept_get ▸ .of_swept _
  | @flagged b _ target found active =>
    rw [silent rfl]
    obtain ⟨a,has,rfl⟩ := swept_some found
    rcases eq_or_ne id target with rfl | here
    · rw [has]
      simpa [stateOf] using Fate.flagged active
    · rw [stateOf,get_put_ne here]
      exact .of_swept _
  | shown reads =>
    have quiet : actOf host s request id = none := by
      cases called : request.call <;> simp_all [actOf,Call.reads]
    rw [quiet]
    exact swept_get ▸ .of_swept _
  | @wrote b act written target found deed =>
    rw [deed.act_eq (by rw [ran]; rfl)]
    obtain ⟨a,has,rfl⟩ := swept_some found
    rcases eq_or_ne id target with rfl | here
    · rw [has,if_pos rfl]
      simpa [stateOf] using Fate.did deed
    · rw [stateOf,get_put_ne here,if_neg here]
      exact .of_swept _
  | @opened policyVersion input action opens =>
    have act : actOf host s request id =
        if id = s.actionCount + 1 then some (.opened (host.text.trim input.actor) request.now) else none := by
      simp [actOf,ran,opens.called,Except.toBool]
    rw [act]
    rcases eq_or_ne id (s.actionCount + 1) with rfl | here
    · have fresh : s.actions.get (s.actionCount + 1) = none := by
        cases found : s.actions.get (s.actionCount + 1) with
        | none => rfl
        | some a => exact absurd (numbered _ a found).2 (by omega)
      rw [fresh,if_pos rfl,stateOf,get_set]
      exact .opened opens
    · rw [if_neg here,stateOf,get_set_ne here,swept_get]
      exact .of_swept _

end

end StellarPriceOracle.EmergencyActions
