import StellarPriceOracle.CatalogGovernance

namespace StellarPriceOracle.Coi
open Guarded JsArray
open CatalogGovernance (Instant RecusalRequest toISOString)
open InsertionMap
open List

-- api/src/governance/coi-register.ts.
inductive CoiRelationshipType where
  | financial | employment | providerAffiliation | tokenHolding | family | other
  deriving DecidableEq

def CoiRelationshipType.name : CoiRelationshipType → String
  | .financial => "financial"
  | .employment => "employment"
  | .providerAffiliation => "provider-affiliation"
  | .tokenHolding => "token-holding"
  | .family => "family"
  | .other => "other"

inductive CoiScope where
  | asset | source | protocol
  deriving DecidableEq

def CoiScope.name : CoiScope → String
  | .asset => "asset"
  | .source => "source"
  | .protocol => "protocol"

inductive CoiDisclosureStatus where
  | active | withdrawn | expired
  deriving DecidableEq

structure CoiDisclosure where
  (id actor : String)
  relationship : CoiRelationshipType
  counterparty : String
  scope : CoiScope
  details : String
  (disclosedAt expiresAt : Instant)
  status : CoiDisclosureStatus
  closedAt : Option Instant

structure CoiAttestation where
  actor : String
  (attestedAt expiresAt : Instant)
  statement : Option String

namespace CoiLimits
def attestationValiditySeconds : Nat := 90 * 24 * 60 * 60
def maxDisclosureSeconds : Nat := 365 * 24 * 60 * 60
def maxDetailsLength : Nat := 2000
def maxStatementLength : Nat := 500
end CoiLimits

def relationships : List CoiRelationshipType := [.financial,.employment,.providerAffiliation,.tokenHolding,.family,.other]

def scopes : List CoiScope := [.asset,.source,.protocol]

inductive Thrown where
  | invalidRequest (field : String)
  | attestationRequired | invalidRelationship | invalidScope
  | detailsTooLong | detailsRequired
  | invalidExpiry | expiryInPast | expiryTooFar
  | duplicateDisclosure (id : String)
  | disclosureNotFound (id : String)
  | notDisclosureOwner
  | disclosureNotActive (id : String) (status : CoiDisclosureStatus)
  | statementTooLong
  | rangeError

structure CoiRegister where
  attestationValiditySeconds : Nat
  disclosures : InsertionMap String CoiDisclosure
  attestations : InsertionMap String CoiAttestation
  disclosureCount : Nat

def create (attestationValiditySeconds : Option Nat) : CoiRegister :=
  ⟨attestationValiditySeconds.getD CoiLimits.attestationValiditySeconds,.empty,.empty,0⟩

structure Host where
  text : JsText
  parseDate : String → Option Instant
  iso : Instant → String

abbrev Result := Except Thrown

structure DeclareInput where
  (actor relationship counterparty scope : String)
  (details expiresAt : Option String)
  attested : Bool

section
variable (host : Host)

def normalize (value : String) : String := host.text.toUpperCase (host.text.trim value)

def requireText (value field : String) : Result String := do
  require (host.text.trim value ≠ "") (.invalidRequest field)
  .ok (host.text.trim value)

def sameRelationship (actor : String) (relationship : CoiRelationshipType) (scope : CoiScope) (counterparty : String)
    (disclosure : CoiDisclosure) : Bool :=
  disclosure.status = .active && disclosure.actor = actor && disclosure.relationship = relationship && disclosure.scope = scope &&
    normalize host counterparty = normalize host disclosure.counterparty

def expiryOf (maxExpiry : Int) (expiresAt : Option String) : Option Instant :=
  match expiresAt with
  | none => toISOString maxExpiry
  | some given => if given = "" then toISOString maxExpiry else host.parseDate given

section
variable (s : CoiRegister)

section
variable (now : Instant)

def declare (input : DeclareInput) : Result (CoiDisclosure × CoiRegister) := do
  let actor ← requireText host input.actor "actor"
  require (input.attested = true) .attestationRequired
  let relationship ← someOr (relationships.find? (fun r => r.name = input.relationship)) .invalidRelationship
  let scope ← someOr (scopes.find? (fun s => s.name = input.scope)) .invalidScope
  let counterparty ← requireText host input.counterparty "counterparty"
  let details := host.text.trim (input.details.getD "")
  require (¬ (utf16 details).length > CoiLimits.maxDetailsLength) .detailsTooLong
  require (¬ (relationship = .other ∧ (utf16 details).length = 0)) .detailsRequired
  let maxExpiry := (now : Int) + CoiLimits.maxDisclosureSeconds * 1000
  let expiresAt ← someOr (expiryOf host maxExpiry input.expiresAt) .invalidExpiry
  require (¬ (expiresAt : Int) ≤ now) .expiryInPast
  require (¬ (expiresAt : Int) > maxExpiry) .expiryTooFar
  let duplicate := s.disclosures.values.find? (sameRelationship host actor relationship scope counterparty)
  require (duplicate.isNone = true) (.duplicateDisclosure ((duplicate.map CoiDisclosure.id).getD ""))
  let id := "coi_" ++ toString (s.disclosureCount + 1)
  let disclosure : CoiDisclosure := ⟨id,actor,relationship,counterparty,scope,details,now,expiresAt,.active,none⟩
  .ok (disclosure,{s with disclosures := s.disclosures.set id disclosure,disclosureCount := s.disclosureCount + 1})

def withdraw (id actor : String) : Result (CoiDisclosure × CoiRegister) := do
  let disclosure ← someOr (s.disclosures.get id) (.disclosureNotFound id)
  let caller ← requireText host actor "actor"
  require (disclosure.actor = caller) .notDisclosureOwner
  require (disclosure.status = .active) (.disclosureNotActive id disclosure.status)
  let disclosure := {disclosure with status := .withdrawn,closedAt := some now}
  .ok (disclosure,{s with disclosures := s.disclosures.set id disclosure})

def lapsed (disclosure : CoiDisclosure) : Bool :=
  disclosure.status = .active && decide ((now : Int) ≥ disclosure.expiresAt)

def expire (disclosure : CoiDisclosure) : CoiDisclosure :=
  if lapsed now disclosure then {disclosure with status := .expired} else disclosure

def sweep : Nat × CoiRegister :=
  ((s.disclosures.values.filter (lapsed now)).length,{s with disclosures := s.disclosures.map (expire now)})

def list (actor : Option String) (status : Option CoiDisclosureStatus) : List CoiDisclosure × CoiRegister :=
  let s := (sweep s now).2
  let found := (s.disclosures.values.filter (fun d => actor.all (fun a => decide (a = "" ∨ d.actor = a)))).filter
    (fun d => status.all (fun wanted => decide (d.status = wanted)))
  (sortBy (fun a b => host.text.collates a.id b.id) found,s)

def attest (actor : String) (statement : Option String) : Result (CoiAttestation × CoiRegister) := do
  let identity ← requireText host actor "actor"
  require (¬ (utf16 (statement.getD "")).length > CoiLimits.maxStatementLength) .statementTooLong
  let expiresAt ← someOr (toISOString ((now : Int) + s.attestationValiditySeconds * 1000)) .rangeError
  let attestation : CoiAttestation := ⟨identity,now,expiresAt,(statement.map host.text.trim).filter (fun text => decide (text ≠ ""))⟩
  .ok (attestation,{s with attestations := s.attestations.set identity attestation})

end

def covers (request : RecusalRequest) (disclosure : CoiDisclosure) : Bool :=
  match disclosure.scope with
  | .protocol => true
  | .asset => normalize host disclosure.counterparty ∈ request.assets.map (normalize host)
  | .source => normalize host disclosure.counterparty ∈ request.sources.map (normalize host)

def reasonOf (disclosure : CoiDisclosure) : String :=
  "conflict of interest: " ++
    if disclosure.status = .expired then "declaration " ++ disclosure.id ++ " expired on " ++ host.iso disclosure.expiresAt
    else "active " ++ disclosure.relationship.name ++ " relationship with " ++ disclosure.counterparty ++ " (" ++ disclosure.id ++ ")"

def recusalReasons (now : Instant) (actor : String) (request : RecusalRequest) : List String × CoiRegister :=
  let s := (sweep s now).2
  let conflicts := s.disclosures.values.filter (fun d => d.actor = actor && d.status ≠ .withdrawn && covers host request d)
  (sort (conflicts.map (reasonOf host)),s)

end

end

-- A declaration that has not been withdrawn, whether or not it has run out.
structure Holding (s : CoiRegister) (actor : String) (disclosure : CoiDisclosure) : Prop where
  stored : ∃ id, s.disclosures.get id = some disclosure
  holder : disclosure.actor = actor
  standing : disclosure.status ≠ .withdrawn

theorem declare_holding (done : declare host s now input = .ok (disclosure,s')) : Holding s' (host.text.trim input.actor) disclosure ∧
    disclosure.scope.name = input.scope ∧ disclosure.counterparty = host.text.trim input.counterparty := by
  simp only [declare,requireText,bind_ok,require_ok,someOr_ok,Except.ok.injEq,Prod.mk.injEq] at done
  obtain ⟨_,⟨_,_,rfl⟩,_,_,_,_,_,known,_,⟨_,_,rfl⟩,_,_,_,_,_,_,_,_,_,_,_,_,rfl,rfl⟩ := done
  refine ⟨⟨⟨_,get_set⟩,rfl,by simp⟩,?_,rfl⟩
  simpa using find?_some known

theorem expire_keeps : (expire now disclosure).actor = disclosure.actor ∧
    covers host request (expire now disclosure) = covers host request disclosure ∧
    ((expire now disclosure).status ≠ .withdrawn ↔ disclosure.status ≠ .withdrawn) := by
  unfold expire
  split
  · rename_i late
    have active : disclosure.status = .active := by
      simp only [lapsed,Bool.and_eq_true,decide_eq_true_eq] at late
      exact late.1
    exact ⟨rfl,rfl,by simp [active]⟩
  · exact ⟨rfl,rfl,Iff.rfl⟩

-- An actor is free to decide exactly if they hold no declaration that covers the request.
theorem recusalReasons_none : (recusalReasons host s now actor request).1 = [] ↔
    ∀ disclosure, Holding s actor disclosure → covers host request disclosure = false := by
  simp only [recusalReasons,eq_nil_iff_forall_not_mem,mem_sort,mem_map,not_exists,not_and,mem_filter,sweep,
    mem_values,get_map,Option.map_eq_some_iff,Bool.and_eq_true,decide_eq_true_eq]
  constructor
  · intro none disclosure holding
    obtain ⟨id,stored⟩ := holding.stored
    obtain ⟨same,matching,standing⟩ := expire_keeps
    cases covered : covers host request disclosure with
    | false => rfl
    | true =>
      refine (none _ (expire now disclosure) ⟨⟨id,disclosure,stored,rfl⟩,⟨?_,?_⟩,?_⟩ rfl).elim
      · exact same.trans holding.holder
      · exact standing.mpr holding.standing
      · exact matching.trans covered
  · rintro none _ _ ⟨⟨id,disclosure,stored,rfl⟩,⟨held,standing⟩,covered⟩ _
    obtain ⟨same,matching,kept⟩ := expire_keeps
    have free := none disclosure ⟨⟨id,stored⟩,same.symm.trans held,kept.mp standing⟩
    rw [← matching,covered] at free
    cases free

end StellarPriceOracle.Coi
