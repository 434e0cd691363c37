import StellarPriceOracle.Library.Runs
import StellarPriceOracle.SourceBreaker

-- oracle-sources/base.ts: the fetches of one source, without health, metrics, costs and logs.
namespace StellarPriceOracle.RecoveryTraffic
open SourceBreaker Guarded
open JsNumber (le)
open InsertionMap (get_set)
open Runs (Run replay states)
open Option (some)
open List (length_append length_drop)

inductive ProviderErrorCategory where
  | authentication | rateLimited | timeout | unavailable | invalidPayload | noPrice | budgetExhausted | circuitOpen | policyBlocked | unknown
  deriving DecidableEq

structure ProviderFailure where
  category : ProviderErrorCategory
  retryable : Bool
  deriving DecidableEq

def providerFailure (category : ProviderErrorCategory) : ProviderFailure :=
  ⟨category,category ∈ [.rateLimited,.timeout,.unavailable]⟩

structure ProviderError where
  (name code : Option String)
  status : Option Int

def classifyProviderError (e : ProviderError) : ProviderFailure :=
  if e.name = some "SsrfError" ∨ e.name = some "SandboxCredentialError" then providerFailure .policyBlocked
  else if e.status = some 401 ∨ e.status = some 403 then providerFailure .authentication
  else if e.status = some 429 then providerFailure .rateLimited
  else if e.status = some 404 then providerFailure .noPrice
  else if e.code = some "ECONNABORTED" ∨ e.code = some "ETIMEDOUT" ∨ e.status = some 408 ∨ e.status = some 504 then providerFailure .timeout
  else if e.status.any (fun status => 500 ≤ status) ∨ e.code.getD "" ∈ ["ECONNRESET","ECONNREFUSED","ENOTFOUND","EAI_AGAIN"] then
    providerFailure .unavailable
  else providerFailure .unknown

inductive SourceFailureKind where
  | transportError | invalidPayload | noPrice
  deriving DecidableEq

structure SourceFetchOutcome (π : Type) where
  price : Option π
  failureKind : Option SourceFailureKind
  failure : Option ProviderFailure

def failedOutcome {π : Type} (kind : SourceFailureKind) (failure : ProviderFailure) : SourceFetchOutcome π := ⟨none,some kind,some failure⟩

inductive Fetched (π : Type) where
  | price (value : π)
  | nothing (invalid : Bool)
  | thrown (error : ProviderError)

inductive Phase (π : Type) where
  | outstanding
  | settled (result : Fetched π)
  | backoff
  | finished

structure Fetch (π : Type) where
  asset : String
  attempt : Nat
  phase : Phase π

def Fetch.isOutstanding {π : Type} (fetch : Fetch π) : Bool :=
  match fetch.phase with
  | .outstanding => true
  | _ => false

-- `entered` and `windowed` count the fetches begun before HALF_OPEN and before the window.
structure Source (π : Type) where
  states : States
  fetches : List (Fetch π)
  outcomes : List (String × SourceFetchOutcome π)
  (entered windowed : Nat)

def Source.start {π : Type} : Source π := ⟨.empty,[],[],0,0⟩

inductive Input (π : Type) where
  | fetchWithOutcome (now : Int) (asset : String) (attempt : Nat) (isBudgetBlocked supportsAsset : Bool)
  | settle (number : Nat) (result : Fetched π)
  | resume (now : Int) (number : Nat)
  | retry (now : Int) (number : Nat) (isBudgetBlocked supportsAsset : Bool)
  | recordSuccess (now : Int)
  | recordFailure (now : Int)

inductive Stuck where
  | noSuchFetch | otherPhase
  deriving DecidableEq

section
variable {π : Type} (config : SourceCBConfig) (name : String)

def maxAttempts : Nat := 3

section
variable (s : Source π)

def Source.returns (asset : String) (outcome : SourceFetchOutcome π) : Source π :=
  {s with outcomes := s.outcomes ++ [(asset,outcome)]}

def Source.enter (number : Nat) (fetch : Fetch π) (phase : Phase π) : Source π :=
  {s with fetches := s.fetches.set number {fetch with phase := phase}}

def enters (now : Int) : Bool :=
  let entry := getOrCreate s.states name now
  entry.state = .opened && cooledDown config entry now

def Source.evaluate (now : Int) : Source π :=
  {s with
    states := (isAllowed config s.states name now).1
    entered := if enters config name s now then s.fetches.length else s.entered
    windowed := if enters config name s now || windowOver config (getOrCreate s.states name now) now then s.fetches.length else s.windowed}

def begin (now : Int) (asset : String) (attempt : Nat) (isBudgetBlocked supportsAsset : Bool) : Source π :=
  if isBudgetBlocked then s.returns asset (failedOutcome .transportError (providerFailure .budgetExhausted))
  else
    let allowed := (isAllowed config s.states name now).2
    let s := s.evaluate config name now
    if !allowed then s.returns asset (failedOutcome .transportError (providerFailure .circuitOpen))
    else if !supportsAsset then s.returns asset (failedOutcome .noPrice (providerFailure .noPrice))
    else {s with fetches := s.fetches ++ [⟨asset,attempt,.outstanding⟩]}

def conclude (now : Int) (number : Nat) (fetch : Fetch π) (result : Fetched π) : Source π :=
  match result with
  | .price value =>
    ({s.enter number fetch .finished with states := recordSuccess config s.states name now}).returns fetch.asset ⟨some value,none,none⟩
  | .nothing false => (s.enter number fetch .finished).returns fetch.asset (failedOutcome .noPrice (providerFailure .noPrice))
  | .nothing true =>
    ({s.enter number fetch .finished with states := recordFailure config s.states name now}).returns fetch.asset
      (failedOutcome .invalidPayload (providerFailure .invalidPayload))
  | .thrown error =>
    let s := {s with states := recordFailure config s.states name now}
    let failure := classifyProviderError error
    if failure.retryable ∧ fetch.attempt < maxAttempts then s.enter number fetch .backoff
    else (s.enter number fetch .finished).returns fetch.asset (failedOutcome .transportError failure)

def step (input : Input π) : Except Stuck (Source π) :=
  match input with
  | .fetchWithOutcome now asset attempt isBudgetBlocked supportsAsset => .ok (begin config name s now asset attempt isBudgetBlocked supportsAsset)
  | .settle number result => do
    let fetch ← someOr s.fetches[number]? .noSuchFetch
    match fetch.phase with
    | .outstanding => .ok (s.enter number fetch (.settled result))
    | _ => .error .otherPhase
  | .resume now number => do
    let fetch ← someOr s.fetches[number]? .noSuchFetch
    match fetch.phase with
    | .settled result => .ok (conclude config name s now number fetch result)
    | _ => .error .otherPhase
  | .retry now number isBudgetBlocked supportsAsset => do
    let fetch ← someOr s.fetches[number]? .noSuchFetch
    match fetch.phase with
    | .backoff => .ok (begin config name (s.enter number fetch .finished) now fetch.asset (fetch.attempt + 1) isBudgetBlocked supportsAsset)
    | _ => .error .otherPhase
  | .recordSuccess now => .ok {s with states := recordSuccess config s.states name now}
  | .recordFailure now => .ok {s with states := recordFailure config s.states name now}

-- The outstanding fetches since HALF_OPEN was entered, and those of the current window.
def Source.outstanding : Nat := (s.fetches.drop s.entered).countP Fetch.isOutstanding

def Source.inWindow : Nat := (s.fetches.drop s.windowed).length

def Within (count : Nat) (limit : JsNumber) : Prop := count = 0 ∨ le (.finite count) limit = true

def HalfOpen : Prop := ∃ entry, s.states.get name = some entry ∧ entry.state = .halfOpen

def Capped : Prop :=
  HalfOpen name s → Within s.outstanding config.limits.maxConcurrentHalfOpen ∧ Within s.inWindow (rateCap config)

-- The call, if it is to fetch in HALF_OPEN, comes while there is room for one more.
def Room (now : Int) : Prop :=
  let entry := getOrCreate s.states name now
  Recovering config entry now → LetsFirst config →
    le (.finite ((if enters config name s now then 0 else s.outstanding) + 1 : Nat)) config.limits.maxConcurrentHalfOpen = true ∧
    le (.finite ((if enters config name s now || windowOver config entry now then 0 else s.inWindow) + 1 : Nat)) (rateCap config) = true

end

def request : Input π → Option (Int × Bool × Bool)
  | .fetchWithOutcome now _ _ isBudgetBlocked supportsAsset | .retry now _ isBudgetBlocked supportsAsset => some (now,isBudgetBlocked,supportsAsset)
  | _ => none

def Fits (t : Runs.Transition (Source π) (Input π)) : Prop :=
  ∀ call ∈ request t.input, call.2 = (false,true) → Room config name t.before call.1

instance (s : Source π) (now : Int) : Decidable (Room config name s now) := inferInstanceAs (Decidable (_ → _ → _ ∧ _))

instance (t : Runs.Transition (Source π) (Input π)) : Decidable (Fits config name t) := inferInstanceAs (Decidable (∀ call ∈ request t.input, _ → _))

structure Uncounted (s : Source π) : Prop where
  idle : ∀ entry, s.states.get name = some entry → Idle entry
  entered : s.entered ≤ s.fetches.length
  windowed : s.windowed ≤ s.fetches.length

structure Settles (s next : Source π) : Prop where
  states : next.states = s.states ∨ ∃ now, next.states = recordSuccess config s.states name now ∨ next.states = recordFailure config s.states name now
  entered : next.entered = s.entered
  windowed : next.windowed = s.windowed
  length : next.fetches.length = s.fetches.length
  outstanding : next.outstanding ≤ s.outstanding

structure Alike (s r : Source π) : Prop where
  states : r.states = s.states
  entered : r.entered = s.entered
  windowed : r.windowed = s.windowed
  length : r.fetches.length = s.fetches.length
  outstanding : r.outstanding = s.outstanding

end

section
variable {π : Type} {config : SourceCBConfig} {name : String} {s r next : Source π} {fetch : Fetch π} {now : Int}

theorem countP_drop_set {l : List α} (got : l[n]? = some x) (quiet : p y = false) :
    ((l.set n y).drop k).countP p = (l.drop k).countP p - if k ≤ n ∧ p x = true then 1 else 0 := by
  obtain ⟨_,rfl⟩ := List.getElem?_eq_some_iff.mp got
  rw [List.drop_set]
  split
  · rename_i before
    simp [Nat.not_le.mpr before]
  · rename_i after
    have within : n - k < (l.drop k).length := by
      rw [length_drop]
      omega
    rw [List.countP_set within,List.getElem_drop]
    simp [quiet,Nat.not_lt.mp after,Nat.add_sub_cancel' (Nat.not_lt.mp after)]

section
variable {number : Nat} (got : s.fetches[number]? = some fetch)
include got

section
variable {phase : Phase π} (quiet : ({fetch with phase := phase} : Fetch π).isOutstanding = false)
include quiet

theorem enter_outstanding :
    (s.enter number fetch phase).outstanding = s.outstanding - if s.entered ≤ number ∧ fetch.isOutstanding = true then 1 else 0 :=
  countP_drop_set got quiet

theorem enter_settles : Settles config name s (s.enter number fetch phase) :=
  ⟨.inl rfl,rfl,rfl,List.length_set,by rw [enter_outstanding got quiet]; exact Nat.sub_le _ _⟩

theorem enter_alike (waiting : fetch.isOutstanding = false) : Alike s (s.enter number fetch phase) :=
  ⟨rfl,rfl,rfl,List.length_set,by simp [enter_outstanding got quiet,waiting]⟩

end

theorem conclude_settles : Settles config name s (conclude config name s now number fetch result) := by
  obtain ⟨_,entered,windowed,length,fewer⟩ : Settles config name s (s.enter number fetch .finished) := enter_settles got rfl
  unfold conclude
  cases result with
  | price => exact ⟨.inr ⟨now,.inl rfl⟩,entered,windowed,length,fewer⟩
  | nothing invalid =>
    cases invalid with
    | false => exact ⟨.inl rfl,entered,windowed,length,fewer⟩
    | true => exact ⟨.inr ⟨now,.inr rfl⟩,entered,windowed,length,fewer⟩
  | thrown =>
    dsimp only
    split
    · obtain ⟨_,entered,windowed,length,fewer⟩ : Settles config name s (s.enter number fetch .backoff) := enter_settles got rfl
      exact ⟨.inr ⟨now,.inr rfl⟩,entered,windowed,length,fewer⟩
    · exact ⟨.inr ⟨now,.inr rfl⟩,entered,windowed,length,fewer⟩

end

theorem step_cases (ran : step config name s input = .ok next) : (request input = none ∧ Settles config name s next) ∨
    ∃ now isBudgetBlocked supportsAsset asset attempt r, request input = some (now,isBudgetBlocked,supportsAsset) ∧ Alike s r ∧
      next = begin config name r now asset attempt isBudgetBlocked supportsAsset := by
  cases input with
  | fetchWithOutcome now asset attempt isBudgetBlocked supportsAsset =>
    exact .inr ⟨now,isBudgetBlocked,supportsAsset,asset,attempt,s,rfl,⟨rfl,rfl,rfl,rfl,rfl⟩,(Except.ok.inj ran).symm⟩
  | settle =>
    obtain ⟨fetch,got,ran⟩ := lookup_ok.mp ran
    split at ran
    · cases ran
      exact .inl ⟨rfl,enter_settles got rfl⟩
    · cases ran
  | resume =>
    obtain ⟨fetch,got,ran⟩ := lookup_ok.mp ran
    split at ran
    · cases ran
      exact .inl ⟨rfl,conclude_settles got⟩
    · cases ran
  | retry now _ isBudgetBlocked supportsAsset =>
    obtain ⟨fetch,got,ran⟩ := lookup_ok.mp ran
    split at ran
    · rename_i waiting
      have quiet : fetch.isOutstanding = false := by simp [Fetch.isOutstanding,waiting]
      exact .inr ⟨now,isBudgetBlocked,supportsAsset,fetch.asset,_,_,rfl,enter_alike got rfl quiet,(Except.ok.inj ran).symm⟩
    · cases ran
  | recordSuccess now =>
    cases ran
    exact .inl ⟨rfl,.inr ⟨now,.inl rfl⟩,rfl,rfl,rfl,Nat.le_refl _⟩
  | recordFailure now =>
    cases ran
    exact .inl ⟨rfl,.inr ⟨now,.inr rfl⟩,rfl,rfl,rfl,Nat.le_refl _⟩

theorem evaluate_get : (s.evaluate config name now).states.get name = some (evaluate config (getOrCreate s.states name now) now).1 :=
  get_set

section
variable (still : Uncounted name s)
include still

theorem Uncounted.current (now : Int) : Idle (getOrCreate s.states name now) := by
  unfold getOrCreate
  cases held : s.states.get name with
  | none => exact ⟨rfl,rfl,rfl⟩
  | some entry => exact still.idle entry held

theorem Settles.uncounted (settles : Settles config name s next) : Uncounted name next := by
  refine ⟨?_,by rw [settles.entered,settles.length]; exact still.entered,by rw [settles.windowed,settles.length]; exact still.windowed⟩
  intro entry held
  rcases settles.states with same | ⟨now,recorded | recorded⟩
  · rw [same] at held
    exact still.idle entry held
  · rw [recorded,recordSuccess,get_set] at held
    cases held
    exact succeed_idle (still.current now)
  · rw [recorded,recordFailure,get_set] at held
    cases held
    exact fail_idle (still.current now)

theorem Alike.uncounted (alike : Alike s r) : Uncounted name r :=
  ⟨by rw [alike.states]; exact still.idle,by rw [alike.entered,alike.length]; exact still.entered,
    by rw [alike.windowed,alike.length]; exact still.windowed⟩

theorem evaluate_uncounted (config : SourceCBConfig) (now : Int) : Uncounted name (s.evaluate config name now) := by
  refine ⟨?_,?_,?_⟩
  · intro _ held
    rw [evaluate_get] at held
    cases held
    exact (evaluate_idle config now (still.current now)).1
  · simp only [Source.evaluate]
    split
    · exact Nat.le_refl _
    · exact still.entered
  · simp only [Source.evaluate]
    split
    · exact Nat.le_refl _
    · exact still.windowed

-- The breaker counts no request of `fetchWithOutcome`, so its limits compare with zero.
theorem evaluate_half (config : SourceCBConfig) (now : Int) :
    HalfOpen name (s.evaluate config name now) ↔ Recovering config (getOrCreate s.states name now) now := by
  rw [← (evaluate_idle config now (still.current now)).2.1]
  constructor
  · rintro ⟨_,held,half⟩
    rw [evaluate_get] at held
    rw [some.inj held]
    exact half
  · intro half
    exact ⟨_,evaluate_get,half⟩

end

theorem Within.zero (limit : JsNumber) : Within 0 limit := .inl rfl

theorem within_succ : Within (n + 1) limit ↔ le (.finite (n + 1 : Nat)) limit = true := by
  simp [Within]

theorem Within.less (within : Within n limit) (fewer : m ≤ n) : Within m limit := by
  rcases within with none | within
  · exact .inl (Nat.le_zero.mp (none ▸ fewer))
  · exact .inr (JsNumber.finite_le (Rat.natCast_le_natCast.mpr fewer) within)

theorem current_half (half : (getOrCreate s.states name now).state = .halfOpen) : HalfOpen name s := by
  unfold getOrCreate at half
  cases held : s.states.get name with
  | none => simp [held,CBEntry.fresh] at half
  | some entry => exact ⟨entry,held,by simpa [held] using half⟩

theorem inWindow_same (length : next.fetches.length = s.fetches.length) (windowed : next.windowed = s.windowed) : next.inWindow = s.inWindow := by
  rw [Source.inWindow,length_drop,length,windowed,← length_drop,← Source.inWindow]

theorem Settles.capped (settles : Settles config name s next) (capped : Capped config name s) : Capped config name next := by
  intro half
  have before : HalfOpen name s := by
    obtain ⟨entry,held,state⟩ := half
    rcases settles.states with same | ⟨_,recorded | recorded⟩
    · exact ⟨entry,same ▸ held,state⟩
    · rw [recorded,recordSuccess,get_set] at held
      rw [← some.inj held] at state
      exact current_half (succeed_state state)
    · rw [recorded,recordFailure,get_set] at held
      rw [← some.inj held] at state
      exact absurd state (fail_state)
  obtain ⟨few,slow⟩ := capped before
  rw [inWindow_same settles.length settles.windowed]
  exact ⟨few.less settles.outstanding,slow⟩

theorem evaluate_outstanding : (s.evaluate config name now).outstanding = if enters config name s now then 0 else s.outstanding := by
  simp only [Source.outstanding,Source.evaluate]
  split
  · rw [List.drop_length,List.countP_nil]
  · rfl

theorem evaluate_inWindow : (s.evaluate config name now).inWindow =
      if enters config name s now || windowOver config (getOrCreate s.states name now) now then 0 else s.inWindow := by
  simp only [Source.inWindow,Source.evaluate]
  split
  · rw [List.drop_length,List.length_nil]
  · rfl

theorem evaluate_capped (now : Int) (uncounted : Uncounted name s) (capped : Capped config name s) : Capped config name (s.evaluate config name now) := by
  intro half
  rw [evaluate_outstanding,evaluate_inWindow]
  cases entering : enters config name s now with
  | true => exact ⟨.zero _,.zero _⟩
  | false =>
    have before : HalfOpen name s := by
      rcases (evaluate_half uncounted config now).mp half with already | ⟨opened,cooled⟩
      · exact current_half already
      · simp [enters,opened,cooled] at entering
    obtain ⟨few,slow⟩ := capped before
    refine ⟨few,?_⟩
    simp only [Bool.false_or]
    split
    · exact .zero _
    · exact slow

theorem begin_turned_away (away : isBudgetBlocked = true ∨ supportsAsset = false)
    (uncounted : Uncounted name s) (capped : Capped config name s) :
    Capped config name (begin config name s now asset attempt isBudgetBlocked supportsAsset) := by
  unfold begin
  split
  · exact capped
  · rename_i free
    have unsupported : supportsAsset = false := away.resolve_left free
    have evaluated := evaluate_capped now uncounted capped
    dsimp only
    split
    · exact evaluated
    · rw [unsupported,Bool.not_false,if_pos rfl]
      exact evaluated

theorem added_outstanding (fetch : Fetch π) (flies : fetch.isOutstanding = true) (inside : s.entered ≤ s.fetches.length) :
    ({s with fetches := s.fetches ++ [fetch]} : Source π).outstanding = s.outstanding + 1 := by
  simp only [Source.outstanding]
  rw [List.drop_append_of_le_length inside,List.countP_append,List.countP_singleton,if_pos flies]

theorem added_inWindow (fetch : Fetch π) (inside : s.windowed ≤ s.fetches.length) :
    ({s with fetches := s.fetches ++ [fetch]} : Source π).inWindow = s.inWindow + 1 := by
  simp only [Source.inWindow]
  rw [List.drop_append_of_le_length inside,length_append,List.length_singleton]

theorem begin_cases (config : SourceCBConfig) (name : String) (s : Source π) (now : Int) (asset : String) (attempt : Nat) :
    let evaluated := s.evaluate config name now
    ((isAllowed config s.states name now).2 = false ∧ ∃ outcome, begin config name s now asset attempt false true = evaluated.returns asset outcome) ∨
    ((isAllowed config s.states name now).2 = true ∧
      begin config name s now asset attempt false true = {evaluated with fetches := evaluated.fetches ++ [⟨asset,attempt,.outstanding⟩]}) := by
  cases allowed : (isAllowed config s.states name now).2 with
  | false => exact .inl ⟨rfl,_,by simp only [begin,allowed]; rfl⟩
  | true => exact .inr ⟨rfl,by simp [begin,allowed]⟩

theorem begin_exact (now : Int) (asset : String) (attempt : Nat) (uncounted : Uncounted name s) (capped : Capped config name s) :
    Room config name s now ↔ Capped config name (begin config name s now asset attempt false true) := by
  have fresh := evaluate_uncounted uncounted config now
  have half := evaluate_half uncounted config now
  have lets := (evaluate_idle config now (uncounted.current now)).2.2
  rcases begin_cases config name s now asset attempt with ⟨refused,_,turned⟩ | ⟨allowed,started⟩
  · rw [turned]
    refine ⟨fun _ => evaluate_capped now uncounted capped,fun _ recovering first => ?_⟩
    exact absurd ((lets recovering).mpr first) (of_decide_eq_false refused)
  · rw [started]
    have more := added_outstanding (⟨asset,attempt,.outstanding⟩ : Fetch π) rfl fresh.entered
    have longer := added_inWindow (⟨asset,attempt,.outstanding⟩ : Fetch π) fresh.windowed
    rw [evaluate_outstanding] at more
    rw [evaluate_inWindow] at longer
    simp only [Capped,more,longer,within_succ]
    constructor
    · intro room during
      have recovering := half.mp during
      exact room recovering ((lets recovering).mp (of_decide_eq_true allowed))
    · intro kept recovering _
      exact kept (half.mpr recovering)

theorem Alike.room (alike : Alike s r) : Room config name r now ↔ Room config name s now := by
  have entering : enters config name r now = enters config name s now := by rw [enters,alike.states,enters]
  rw [Room,Room,alike.states,entering,alike.outstanding,inWindow_same alike.length alike.windowed]

theorem Alike.capped (alike : Alike s r) (capped : Capped config name s) : Capped config name r := by
  intro half
  rw [alike.outstanding,inWindow_same alike.length alike.windowed]
  rw [HalfOpen,alike.states] at half
  exact capped half

theorem step_exact (ran : step config name t.before t.input = .ok t.after)
    (uncounted : Uncounted name t.before) (capped : Capped config name t.before) : Fits config name t ↔ Capped config name t.after := by
  rcases step_cases ran with ⟨silent,settles⟩ | ⟨now,isBudgetBlocked,supportsAsset,asset,attempt,r,requested,alike,begun⟩
  · refine ⟨fun _ => settles.capped capped,fun _ call requested => ?_⟩
    cases silent.symm.trans requested
  · have uncounted := alike.uncounted uncounted
    have capped := alike.capped capped
    rw [begun]
    by_cases fetches : isBudgetBlocked = false ∧ supportsAsset = true
    · obtain ⟨rfl,rfl⟩ := fetches
      rw [← begin_exact now asset attempt uncounted capped,alike.room]
      refine ⟨fun fits => fits _ requested rfl,fun room call same _ => ?_⟩
      cases requested.symm.trans same
      exact room
    · have away : isBudgetBlocked = true ∨ supportsAsset = false := by
        cases isBudgetBlocked <;> cases supportsAsset <;> simp at fetches ⊢
      refine ⟨fun _ => begin_turned_away away uncounted capped,fun _ call same free => ?_⟩
      cases requested.symm.trans same
      exact absurd (Prod.mk.inj free) fetches

end

namespace Sample
def config : SourceCBConfig := ⟨3,30000,2,none⟩

def call (now : Int) (asset : String) : Input Nat := .fetchWithOutcome now asset 1 false true

def refused (now : Int) (number : Nat) : List (Input Nat) :=
  [call now "XLM",.settle number (.thrown ⟨none,none,some 401⟩),.resume now number]

def halfOpen (s : Source Nat) : Bool := (s.states.get "coingecko").any (fun entry => entry.state = .halfOpen)
end Sample

open Sample

end StellarPriceOracle.RecoveryTraffic
