import StellarPriceOracle.TenantWindow
import StellarPriceOracle.Library.JsNumber
import StellarPriceOracle.Library.JsText
import StellarPriceOracle.Library.Json

namespace StellarPriceOracle.ApiKeys
open Guarded
open Runs (Run replay)
open TenantWindow (Local Mode WindowMs consume result)

-- api/src/platform/limit-model.ts.
inductive KeyTier where
  | free | pro | enterprise | admin
  deriving DecidableEq

def tierRateLimits : KeyTier → Nat
  | .free => 60
  | .pro => 500
  | .enterprise => 10000
  | .admin => 100000

def tierRateLimitCeilings : KeyTier → Nat
  | .free => 600
  | .pro => 5000
  | .enterprise => 50000
  | .admin => 100000

def effectiveTenantLimit (tier : KeyTier) (requested : JsNumber) : Nat :=
  match requested with
  | .finite q => if q.floor < 0 then tierRateLimits tier else min q.floor.toNat (tierRateLimitCeilings tier)
  | _ => tierRateLimits tier

inductive Role where
  | admin | operator | viewer
  deriving DecidableEq

-- api/src/governance/api-key-manager.ts. An absent field of a policy is `none`.
structure RawPolicy where
  (feeds operations environments effectiveAt expiresAt : Option (Json JsNumber))
  deriving DecidableEq

structure KeyPolicyScope where
  (feeds operations environments : Option (List String))
  (effectiveAt expiresAt : Option Nat)
  deriving DecidableEq

structure InvalidPolicyScopeError where
  message : String
  deriving DecidableEq

section
variable (text : JsText)

def cleanEntries (field : String) : List (Json JsNumber) → List String → Except InvalidPolicyScopeError (List String)
  | [],cleaned => .ok cleaned
  | .str value :: rest,cleaned =>
    let trimmed := text.trim value
    if trimmed = "" then .error ⟨"policy." ++ field ++ " entries must be non-empty strings"⟩
    else cleanEntries field rest (if trimmed ∈ cleaned then cleaned else cleaned ++ [trimmed])
  | _ :: _,_ => .error ⟨"policy." ++ field ++ " entries must be non-empty strings"⟩

def normalizeDimension (values : Option (Json JsNumber)) (field : String) : Except InvalidPolicyScopeError (Option (List String)) :=
  match values with
  | none => .ok none
  | some .null => .ok none
  | some (.arr items) => do
    let cleaned ← cleanEntries text field items []
    .ok (if cleaned.length > 0 then some cleaned else none)
  | some _ => .error ⟨"policy." ++ field ++ " must be an array of strings"⟩

def normalizeTime (value : Option (Json JsNumber)) (field : String) : Except InvalidPolicyScopeError (Option Nat) :=
  match value with
  | none => .ok none
  | some .null => .ok none
  | some (.num (.finite q)) =>
    if q ≤ 0 then .error ⟨"policy." ++ field ++ " must be a positive epoch-millisecond timestamp"⟩
    else .ok (some q.floor.toNat)
  | some _ => .error ⟨"policy." ++ field ++ " must be a positive epoch-millisecond timestamp"⟩

def normalizePolicyScope : Option RawPolicy → Except InvalidPolicyScopeError (Option KeyPolicyScope)
  | none => .ok none
  | some policy => do
    let feeds ← normalizeDimension text policy.feeds "feeds"
    let operations ← normalizeDimension text policy.operations "operations"
    let environments ← normalizeDimension text policy.environments "environments"
    let effectiveAt ← normalizeTime policy.effectiveAt "effectiveAt"
    let expiresAt ← normalizeTime policy.expiresAt "expiresAt"
    require (¬ ∃ from' ∈ effectiveAt, ∃ until' ∈ expiresAt, until' ≤ from') ⟨"policy.expiresAt must be later than policy.effectiveAt"⟩
    if feeds = none ∧ operations = none ∧ environments = none ∧ effectiveAt = none ∧ expiresAt = none then .ok none
    else .ok (some ⟨feeds,operations,environments,effectiveAt,expiresAt⟩)
end

def scopeWildcard : String := "*"

def dimensionAllows (allowed : Option (List String)) (requested : Option String) : Bool :=
  match allowed with
  | none => true
  | some names => names = [] ∨ scopeWildcard ∈ names ∨ ∃ name ∈ requested, name ∈ names

section
variable (policy : Option KeyPolicyScope)

def isPolicyExpired (now : Nat) : Bool :=
  (policy.bind KeyPolicyScope.expiresAt).any (fun expiresAt => now ≥ expiresAt)

def isPolicyEffective (now : Nat) : Bool :=
  (policy.bind KeyPolicyScope.effectiveAt).all (fun effectiveAt => now ≥ effectiveAt)

structure ScopeRequest where
  (feed operation environment : Option String)

inductive Reason where
  | expired | notYetEffective | feed | operation | environment
  deriving DecidableEq

structure ScopeCheckResult where
  allowed : Bool
  reason : Option Reason
  deriving DecidableEq

def checkPolicyScope (request : ScopeRequest) (now : Nat) : ScopeCheckResult :=
  match policy with
  | none => ⟨true,none⟩
  | some scope =>
    if isPolicyExpired policy now then ⟨false,some .expired⟩
    else if ¬ isPolicyEffective policy now then ⟨false,some .notYetEffective⟩
    else if ¬ dimensionAllows scope.feeds request.feed then ⟨false,some .feed⟩
    else if ¬ dimensionAllows scope.operations request.operation then ⟨false,some .operation⟩
    else if ¬ dimensionAllows scope.environments request.environment then ⟨false,some .environment⟩
    else ⟨true,none⟩

end

structure ApiKeyMetadata where
  (keyHash keyPrefix : String)
  createdAt : Nat
  lastUsed : Option Nat
  requestCount : Nat
  isActive : Bool
  rateLimitPerMin : Nat
  tier : KeyTier
  role : Role
  scopes : Option (List String)
  description : Option String
  policy : Option KeyPolicyScope
  deriving DecidableEq

abbrev Keys := InsertionMap String ApiKeyMetadata

structure Manager where
  keys : Keys
  storeHealthy : Bool
  window : Local

inductive Operation where
  | generateKey (key : String) (rateLimitPerMin : Option JsNumber) (description : Option String) (tier : KeyTier) (role : Role)
      (scopes : Option (List String)) (policy : Option RawPolicy)
  | rotateKey (oldKeyHash key : String)
  | revokeKey (keyHash : String)
  | reactivateKey (keyHash : String)
  | updatePolicy (keyHash : String) (policy : Option RawPolicy)
  | updateTier (keyHash : String) (tier : KeyTier)

def keyPrefix (key : String) : String := String.ofList (key.toList.take 12)

section
variable (text : JsText) (hashKey : String → String)

section
variable (keys : Keys)

def generateKey (now : Nat) (key : String) (rateLimitPerMin : Option JsNumber) (description : Option String)
    (tier : KeyTier) (role : Role) (scopes : Option (List String)) (policy : Option RawPolicy) : Except InvalidPolicyScopeError Keys := do
  let normalizedPolicy ← normalizePolicyScope text policy
  let metadata : ApiKeyMetadata := {
    keyHash := hashKey key
    keyPrefix := keyPrefix key
    createdAt := now
    lastUsed := none
    requestCount := 0
    isActive := true
    rateLimitPerMin := effectiveTenantLimit tier (rateLimitPerMin.getD (.finite (tierRateLimits .free)))
    tier := tier
    role := role
    scopes := scopes.filter (fun names => names.length > 0)
    description := description
    policy := normalizedPolicy}
  .ok (keys.set (hashKey key) metadata)

def rotateKey (now : Nat) (oldKeyHash key : String) : Keys :=
  match keys.get oldKeyHash with
  | none => keys
  | some metadata => (keys.remove oldKeyHash).set (hashKey key) {metadata with
      keyHash := hashKey key
      keyPrefix := keyPrefix key
      createdAt := now
      lastUsed := none
      requestCount := 0}

section
variable (keyHash : String)

def modify (change : ApiKeyMetadata → ApiKeyMetadata) : Keys :=
  match keys.get keyHash with
  | none => keys
  | some metadata => keys.set keyHash (change metadata)

def revokeKey : Keys := modify keys keyHash (fun m => {m with isActive := false})

def reactivateKey : Keys := modify keys keyHash (fun m => {m with isActive := true})

def updateTier (tier : KeyTier) : Keys :=
  modify keys keyHash (fun m => {m with tier := tier, rateLimitPerMin := tierRateLimits tier})

def updatePolicy (policy : Option RawPolicy) : Except InvalidPolicyScopeError Keys :=
  match keys.get keyHash with
  | none => .ok keys
  | some _ => do
    let normalized ← normalizePolicyScope text policy
    .ok (modify keys keyHash (fun m => {m with policy := normalized}))

end

def operate (now : Nat) : Operation → Except InvalidPolicyScopeError Keys
  | .generateKey key rateLimitPerMin description tier role scopes policy =>
    generateKey text hashKey keys now key rateLimitPerMin description tier role scopes policy
  | .rotateKey oldKeyHash key => .ok (rotateKey hashKey keys now oldKeyHash key)
  | .revokeKey keyHash => .ok (revokeKey keys keyHash)
  | .reactivateKey keyHash => .ok (reactivateKey keys keyHash)
  | .updatePolicy keyHash policy => updatePolicy text keys keyHash policy
  | .updateTier keyHash tier => .ok (updateTier keys keyHash tier)

end

section
variable (s : Manager)

def step (o : Nat × Operation) : Except InvalidPolicyScopeError Manager := do
  let keys ← operate text hashKey s.keys o.1 o.2
  .ok {s with keys := keys}

inductive Refusal where
  | storeUnavailable | invalid | revoked | expired | notYetEffective
  deriving DecidableEq

def Refusal.error : Refusal → String
  | .storeUnavailable => "API key store unavailable"
  | .invalid => "Invalid API key"
  | .revoked => "API key has been revoked"
  | .expired => "API key has expired"
  | .notYetEffective => "API key entitlement is not yet effective"

structure Validation where
  valid : Bool
  metadata : Option ApiKeyMetadata
  error : Option String
  deriving DecidableEq

def checkKey (now : Nat) (key : String) : Except Refusal ApiKeyMetadata := do
  require (s.storeHealthy = true) .storeUnavailable
  let metadata ← someOr (s.keys.get (hashKey key)) .invalid
  require (metadata.isActive = true) .revoked
  require (isPolicyExpired metadata.policy now = false) .expired
  require (isPolicyEffective metadata.policy now = true) .notYetEffective
  .ok metadata

def validateKey (now : Nat) (key : String) : Validation :=
  match checkKey hashKey s now key with
  | .ok metadata => ⟨true,some metadata,none⟩
  | .error refusal => ⟨false,none,some refusal.error⟩

def checkScope (now : Nat) (key : String) (request : ScopeRequest) : ScopeCheckResult :=
  match s.keys.get (hashKey key) with
  | none => ⟨false,some .operation⟩
  | some metadata => if ¬ metadata.isActive then ⟨false,some .operation⟩ else checkPolicyScope metadata.policy request now

def isAdminKey (key : String) : Bool :=
  s.storeHealthy && (s.keys.get (hashKey key)).any (fun metadata => metadata.role = .admin)

end

structure RateLimitResult where
  allowed : Bool
  (remaining resetTime : Nat)
  retryAfter : Option Nat
  limit : Nat
  degraded : Bool
  mode : Mode
  deriving DecidableEq

def limitOf (metadata : ApiKeyMetadata) : Nat := effectiveTenantLimit metadata.tier (.finite metadata.rateLimitPerMin)

-- `shared` is the count of the shared store, where there is one and it answers.
def checkRateLimit (windowMs : WindowMs) (s : Manager) (now : Nat) (key : String) (shared : Option Nat) :
    RateLimitResult × Manager :=
  match s.keys.get (hashKey key) with
  | none => (⟨false,0,0,none,0,false,.localPerPod⟩,s)
  | some metadata =>
    let consumed := consume windowMs now s.window (hashKey key) (limitOf metadata) shared
    let result := consumed.1
    let keys := if result.allowed then
        s.keys.set (hashKey key) {metadata with lastUsed := some now, requestCount := metadata.requestCount + 1}
      else s.keys
    (⟨result.allowed,result.remaining,result.reset * 1000,
        if result.allowed then none else some (max 1 (result.reset - now / 1000)),result.limit,!result.shared,result.mode⟩,
      {s with keys := keys, window := consumed.2})
end

def consumed (hashKey : String → String) (windowMs : WindowMs) (s : Manager) (now : Nat) (key : String)
    (metadata : ApiKeyMetadata) (shared : Option Nat) : Nat :=
  (consume windowMs now s.window (hashKey key) (limitOf metadata) shared).1.consumed

structure Refuses (hashKey : String → String) (windowMs : WindowMs) (s : Manager) (now : Nat) (key : String)
    (request : ScopeRequest) (shared : Option Nat) : Prop where
  validation : (validateKey hashKey s now key).valid = false
  scope : (checkScope hashKey s now key request).allowed = false
  administration : isAdminKey hashKey s key = false
  rate : (checkRateLimit hashKey windowMs s now key shared).1.allowed = false

section
variable {text : JsText} {hashKey : String → String} {s : Manager} {metadata : ApiKeyMetadata} {now : Nat}

theorem runs_healthy (path : Run (step text hashKey) start ts s) : s.storeHealthy = start.storeHealthy := by
  refine path.carries (R := fun a b => b.storeHealthy = a.storeHealthy) (fun _ => rfl) ?_ ?_
  · intro a b c first second
    exact second.trans first
  · intro t mem
    have ran := path.accepted mem
    simp only [step,bind_ok,Except.ok.injEq] at ran
    obtain ⟨_,_,same⟩ := ran
    rw [← same]

theorem validateKey_refuses (got : s.keys.get (hashKey key) = some metadata)
    (refused : metadata.isActive = false ∨ isPolicyExpired metadata.policy now = true) :
    (validateKey hashKey s now key).valid = false := by
  unfold validateKey
  cases checked : checkKey hashKey s now key with
  | error => rfl
  | ok =>
    simp only [checkKey,bind_ok,require_ok,someOr_ok,got,Option.some.injEq] at checked
    obtain ⟨_,_,_,rfl,_,active,_,unexpired,_⟩ := checked
    rcases refused with inactive | expired
    · cases inactive.symm.trans active
    · rw [expired] at unexpired
      cases unexpired

theorem checkScope_refuses (got : s.keys.get (hashKey key) = some metadata)
    (refused : metadata.isActive = false ∨ isPolicyExpired metadata.policy now = true) :
    (checkScope hashKey s now key request).allowed = false := by
  simp only [checkScope,got]
  rcases refused with inactive | expired
  · simp [inactive]
  · split
    · rfl
    · cases held : metadata.policy with
      | none =>
        rw [held] at expired
        cases expired
      | some =>
        rw [held] at expired
        simp [checkPolicyScope,expired]

theorem isAdminKey_exact (healthy : s.storeHealthy = true) (got : s.keys.get (hashKey key) = some metadata) :
    isAdminKey hashKey s key = false ↔ metadata.role ≠ .admin := by
  simp [isAdminKey,healthy,got]

theorem checkRateLimit_exact (got : s.keys.get (hashKey key) = some metadata) :
    (checkRateLimit hashKey windowMs s now key shared).1.allowed = false ↔
      limitOf metadata < consumed hashKey windowMs s now key metadata shared := by
  cases shared <;> simp [checkRateLimit,got,consumed,consume,result]

-- Two of the four look at the key's state; the other two go by its role and its window.
theorem refusal_exact (path : Run (step text hashKey) start ts s) (healthy : start.storeHealthy = true)
    (found : s.keys.get (hashKey key) = some metadata)
    (refused : metadata.isActive = false ∨ isPolicyExpired metadata.policy now = true) :
    Refuses hashKey windowMs s now key request shared ↔
      metadata.role ≠ .admin ∧ limitOf metadata < consumed hashKey windowMs s now key metadata shared := by
  have kept := (runs_healthy path).trans healthy
  rw [← isAdminKey_exact kept found,← checkRateLimit_exact found]
  constructor
  · rintro ⟨_,_,administration,rate⟩
    exact ⟨administration,rate⟩
  · rintro ⟨administration,rate⟩
    exact ⟨validateKey_refuses found refused,checkScope_refuses found refused,administration,rate⟩
end

namespace Sample
def start : Manager := ⟨.empty,true,.empty⟩
def windowMs : WindowMs := ⟨60000,by decide⟩

def generated (role : Role) (limit : JsNumber) : Operation := .generateKey "key" (some limit) none .free role none none

def revoked (role : Role) (limit : JsNumber) : List (Nat × Operation) := [(0,generated role limit),(1,.revokeKey "key")]
end Sample

open Sample

theorem viewer_without_allowance_refused : ∃ ts s metadata, Run (step .plain id) start ts s ∧
    s.keys.get "key" = some metadata ∧ metadata.isActive = false ∧
    Refuses id windowMs s 2 "key" ⟨none,none,none⟩ none := by
  have observed : (replay (step .plain id) start (revoked .viewer 0)).map (fun result =>
      ((result.2.keys.get "key").map (fun m => (m.isActive,m.role,decide (limitOf m < consumed id windowMs result.2 2 "key" m none))))) =
        .ok (some (false,.viewer,true)) := by decide +kernel
  obtain ⟨ts,s,path,shown⟩ := Runs.replay_observed observed
  obtain ⟨metadata,found,facts⟩ := Option.map_eq_some_iff.mp shown
  obtain ⟨inactive,facts⟩ := Prod.mk.inj facts
  obtain ⟨role,spent⟩ := Prod.mk.inj facts
  refine ⟨ts,s,metadata,path,found,inactive,?_⟩
  exact (refusal_exact path rfl found (.inl inactive)).mpr ⟨by simp [role],of_decide_eq_true spent⟩

theorem revoked_admin_still_admin : ∃ ts s metadata, Run (step .plain id) start ts s ∧
    s.keys.get "key" = some metadata ∧ metadata.isActive = false ∧ isAdminKey id s "key" = true ∧
    (checkRateLimit id windowMs s 2 "key" none).1.allowed = true ∧
    ¬ Refuses id windowMs s 2 "key" ⟨none,none,none⟩ none := by
  have observed : (replay (step .plain id) start (revoked .admin 60)).map (fun result =>
      ((result.2.keys.get "key").map ApiKeyMetadata.isActive,isAdminKey id result.2 "key",
        (checkRateLimit id windowMs result.2 2 "key" none).1.allowed)) = .ok (some false,true,true) := by decide +kernel
  obtain ⟨ts,s,path,held,facts⟩ := Runs.replay_pair observed
  obtain ⟨metadata,found,inactive⟩ := Option.map_eq_some_iff.mp held
  obtain ⟨administrates,passes⟩ := Prod.mk.inj facts
  refine ⟨ts,s,metadata,path,found,inactive,administrates,passes,?_⟩
  intro refuses
  rw [refuses.administration] at administrates
  cases administrates

end StellarPriceOracle.ApiKeys
