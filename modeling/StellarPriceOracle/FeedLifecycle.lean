import Mathlib.Data.List.Chain
import StellarPriceOracle.Library.Guarded
import StellarPriceOracle.Library.InsertionMap
import StellarPriceOracle.Library.Json
import StellarPriceOracle.Library.JsNumber
import StellarPriceOracle.Library.JsText
import StellarPriceOracle.Library.Runs

namespace StellarPriceOracle.FeedLifecycle
open Guarded
open Runs (Run states replay mem_snoc)
open InsertionMap (get_set get_set_ne)
open Option (some)
open Except (map ok)

-- api/src/feeds/feed-lifecycle.ts.
inductive FeedLifecycleState where
  | proposed
  | validated
  | canary
  | active
  | suspended
  | retired
  deriving DecidableEq

def FeedLifecycleState.name : FeedLifecycleState → String
  | .proposed => "proposed"
  | .validated => "validated"
  | .canary => "canary"
  | .active => "active"
  | .suspended => "suspended"
  | .retired => "retired"

inductive FeedLifecycleRole where
  | admin
  | operator
  | viewer
  deriving DecidableEq

def FeedLifecycleRole.name : FeedLifecycleRole → String
  | .admin => "admin"
  | .operator => "operator"
  | .viewer => "viewer"

inductive FeedTransition where
  | validate
  | promoteToCanary
  | activate
  | suspend
  | resume
  | retire
  | reject
  deriving DecidableEq

def FeedTransition.name : FeedTransition → String
  | .validate => "validate"
  | .promoteToCanary => "promote-to-canary"
  | .activate => "activate"
  | .suspend => "suspend"
  | .resume => "resume"
  | .retire => "retire"
  | .reject => "reject"

@[simp] def feedTransitions : FeedLifecycleState → List FeedTransition
  | .proposed => [.validate,.reject]
  | .validated => [.promoteToCanary,.reject]
  | .canary => [.activate,.suspend,.reject]
  | .active => [.suspend,.retire]
  | .suspended => [.resume,.retire]
  | .retired => []

def feedTransitionRoles : FeedTransition → FeedLifecycleRole
  | .validate => .operator
  | .promoteToCanary => .operator
  | .activate => .admin
  | .suspend => .operator
  | .resume => .operator
  | .retire => .admin
  | .reject => .operator

def roleLevel : FeedLifecycleRole → Nat
  | .viewer => 1
  | .operator => 2
  | .admin => 3

def nextStateFor : FeedTransition → FeedLifecycleState
  | .validate => .validated
  | .promoteToCanary => .canary
  | .activate => .active
  | .suspend => .suspended
  | .resume => .active
  | .retire => .retired
  | .reject => .retired

abbrev Metadata := List (String × Json JsNumber)

structure FeedChangeRecord where
  sequence : Nat
  source : Option FeedLifecycleState
  target : FeedLifecycleState
  transition : Option FeedTransition
  actor : String
  role : FeedLifecycleRole
  (time reason : String)
  metadata : Option Metadata

open FeedChangeRecord (sequence source target)

structure FeedLifecycleEntry where
  feedId : String
  state : FeedLifecycleState
  version : Nat
  (createdAt updatedAt createdBy : String)
  changeLog : List FeedChangeRecord

inductive FeedLifecycleErrorCode where
  | feedNotFound
  | invalidTransition
  | transitionNotAllowed
  | insufficientRole
  | terminalState
  deriving DecidableEq

structure FeedLifecycleError where
  code : FeedLifecycleErrorCode
  message : String
  deriving DecidableEq

abbrev FeedLifecycleStore := InsertionMap String FeedLifecycleEntry

structure RegisterFeedInput where
  (feedId actor : String)
  role : FeedLifecycleRole
  reason : Option String
  metadata : Option Metadata
  time : Option String

structure TransitionFeedInput where
  feedId : String
  transition : FeedTransition
  actor : String
  role : FeedLifecycleRole
  reason : String
  metadata : Option Metadata
  time : Option String

section
variable (text : JsText)

section
variable (store : FeedLifecycleStore)

def registerFeed (now : String) (input : RegisterFeedInput) :
    Except FeedLifecycleError (FeedLifecycleEntry × FeedChangeRecord × FeedLifecycleStore) := do
  require (input.feedId ≠ "" ∧ text.trim input.feedId ≠ "") ⟨.feedNotFound,"feedId is required"⟩
  require (¬ roleLevel input.role < roleLevel .operator) ⟨.insufficientRole,"registering a feed requires the operator role"⟩
  require ((store.get input.feedId).isNone) ⟨.invalidTransition,"feed " ++ input.feedId ++ " is already registered"⟩
  let time := input.time.getD now
  let record : FeedChangeRecord :=
    ⟨1,none,.proposed,none,input.actor,input.role,time,input.reason.getD "feed proposed",input.metadata⟩
  let entry : FeedLifecycleEntry := ⟨input.feedId,.proposed,1,time,time,input.actor,[record]⟩
  .ok (entry,record,store.set input.feedId entry)

def transitionFeed (now : String) (input : TransitionFeedInput) :
    Except FeedLifecycleError (FeedLifecycleEntry × FeedChangeRecord × FeedLifecycleStore) := do
  let entry ← someOr (store.get input.feedId) ⟨.feedNotFound,"unknown feed " ++ input.feedId⟩
  require (entry.state ≠ .retired) ⟨.terminalState,"feed " ++ input.feedId ++ " is retired and cannot change state"⟩
  require (input.transition ∈ feedTransitions entry.state)
    ⟨.invalidTransition,"transition " ++ input.transition.name ++ " is not allowed from state " ++ entry.state.name⟩
  let requiredRole := feedTransitionRoles input.transition
  require (¬ roleLevel input.role < roleLevel requiredRole)
    ⟨.insufficientRole,"transition " ++ input.transition.name ++ " requires the " ++ requiredRole.name ++ " role"⟩
  let reason := text.trim input.reason
  require (reason ≠ "") ⟨.invalidTransition,"a reason is required for every transition"⟩
  let time := input.time.getD now
  let target := nextStateFor input.transition
  let record : FeedChangeRecord :=
    ⟨entry.changeLog.length + 1,some entry.state,target,some input.transition,input.actor,input.role,time,reason,input.metadata⟩
  let updated : FeedLifecycleEntry :=
    {entry with state := target,version := entry.version + 1,updatedAt := time,changeLog := entry.changeLog ++ [record]}
  .ok (updated,record,store.set updated.feedId updated)

inductive Request where
  | register (input : RegisterFeedInput)
  | transition (input : TransitionFeedInput)

def step (call : String × Request) : Except FeedLifecycleError FeedLifecycleStore :=
  match call.2 with
  | .register input => (registerFeed text store call.1 input).map (fun r => r.2.2)
  | .transition input => (transitionFeed text store call.1 input).map (fun r => r.2.2)

end

end

structure Appends (log : List FeedChangeRecord) (state : FeedLifecycleState) (transition : FeedTransition) (record : FeedChangeRecord) : Prop where
  allowed : transition ∈ feedTransitions state
  authorised : roleLevel (feedTransitionRoles transition) ≤ roleLevel record.role
  sequence : record.sequence = log.length + 1
  source : record.source = some state
  target : record.target = nextStateFor transition
  named : record.transition = some transition

-- How a change log comes about, one record after the other, and the state it leads to.
inductive Chronicled : List FeedChangeRecord → FeedLifecycleState → Prop where
  | registered : record.sequence = 1 → record.source = none → record.target = .proposed → record.transition = none →
      Chronicled [record] .proposed
  | moved : Chronicled log state → Appends log state transition record → Chronicled (log ++ [record]) (nextStateFor transition)

-- Some administrator has activated the feed.
def Licensed (log : List FeedChangeRecord) : Prop := ∃ record ∈ log, record.transition = some .activate ∧ record.role = .admin

def leftCanary (log : List FeedChangeRecord) : Bool := log.getLast?.bind source = some .canary

@[simp] def resumesCanary (store : FeedLifecycleStore) : Request → Bool
  | .register _ => false
  | .transition input => input.transition = .resume && (store.get input.feedId).any (fun entry => leftCanary entry.changeLog)

-- A request that goes through writes one entry.
inductive Change (store : FeedLifecycleStore) : Request → FeedLifecycleStore → Prop where
  | registered : Chronicled entry.changeLog .proposed → entry.state = .proposed → Change store (.register input) (store.set entry.feedId entry)
  | moved {input : TransitionFeedInput} {prior entry : FeedLifecycleEntry} : store.get input.feedId = some prior →
      entry.feedId = prior.feedId → entry.changeLog = prior.changeLog ++ [record] →
      entry.state = nextStateFor input.transition → Appends prior.changeLog prior.state input.transition record →
      Change store (.transition input) (store.set entry.feedId entry)

theorem registerFeed_change (done : registerFeed text store now input = .ok (entry,record,next)) :
    Change store (.register input) next := by
  simp only [registerFeed,bind_ok,require_ok,Option.isNone_iff_eq_none,ok.injEq,Prod.mk.injEq] at done
  obtain ⟨_,_,_,_,_,_,made,_,rfl⟩ := done
  have key : entry.feedId = input.feedId := by rw [← made]
  rw [made,← key]
  apply Change.registered <;> rw [← made]
  exact .registered rfl rfl rfl rfl

theorem transitionFeed_change (done : transitionFeed text store now input = .ok (entry,record,next)) :
    Change store (.transition input) next := by
  simp only [transitionFeed,bind_ok,require_ok,someOr_ok,ok.injEq,Prod.mk.injEq] at done
  obtain ⟨prior,got,_,_,_,allowed,_,role,_,_,made,recorded,rfl⟩ := done
  have key : entry.feedId = prior.feedId := by rw [← made]
  rw [made,← key]
  have added : Appends prior.changeLog prior.state input.transition record := by
    rw [← recorded]
    exact ⟨allowed,Nat.le_of_not_lt role,rfl,rfl,rfl,rfl⟩
  exact .moved got key (by rw [← made,← recorded]) (by rw [← made]) added

theorem step_change (taken : step text store call = .ok next) : Change store call.2 next := by
  obtain ⟨now,request⟩ := call
  cases request with
  | register input =>
    cases done : registerFeed text store now input with
    | error => simp [step,done,map] at taken
    | ok =>
      simp only [step,done,map,ok.injEq] at taken
      subst taken
      exact registerFeed_change done
  | transition input =>
    cases done : transitionFeed text store now input with
    | error => simp [step,done,map] at taken
    | ok =>
      simp only [step,done,map,ok.injEq] at taken
      subst taken
      exact transitionFeed_change done

section
variable (chronicle : Chronicled log state)
include chronicle

theorem Chronicled.sequences : log.map sequence = List.range' 1 log.length := by
  induction chronicle with
  | registered first => simp [first]
  | moved _ added ih => simp [ih,added.sequence,List.range'_concat,Nat.add_comm]

theorem Chronicled.current : log.getLast?.map target = some state := by
  cases chronicle with
  | registered _ _ proposed => simp [proposed]
  | moved _ added => simp [added.target]

theorem Chronicled.linked : log.IsChain (fun earlier later => later.source = some earlier.target ∧ earlier.target ≠ .retired) := by
  induction chronicle with
  | registered => exact List.isChain_singleton _
  | @moved log state transition record prior added ih =>
    rw [List.isChain_append]
    refine ⟨ih,List.isChain_singleton _,?_⟩
    intro last final first here
    have ended : last.target = state := by
      have current := prior.current
      rw [Option.mem_def.mp final] at current
      exact some.inj current
    have same : record = first := by simpa using here
    refine ⟨by rw [← same,added.source,ended],?_⟩
    rw [ended]
    rintro rfl
    exact absurd added.allowed (by simp)

theorem Chronicled.unlicensed (early : state = .proposed ∨ state = .validated ∨ state = .canary) :
    ∀ record ∈ log, record.transition ≠ some .activate := by
  induction chronicle with
  | registered _ _ _ none =>
    intro record here
    rw [List.mem_singleton.mp here,none]
    nofun
  | @moved log state transition record prior added ih =>
    have before : (state = .proposed ∨ state = .validated ∨ state = .canary) ∧ transition ≠ .activate := by
      have allowed := added.allowed
      cases state <;> cases transition <;> simp_all [feedTransitions,nextStateFor]
    intro other mem
    rcases mem_snoc.mp mem with old | last
    · exact ih before.1 other old
    · rw [last,added.named]
      exact fun same => before.2 (some.inj same)

end

def Filed (store : FeedLifecycleStore) : Prop :=
  ∀ key entry, store.get key = some entry → entry.feedId = key ∧ Chronicled entry.changeLog entry.state

theorem filed_empty : Filed .empty := by
  intro _ _ got
  cases got

theorem Filed.set (filed : Filed store) (chronicle : Chronicled entry.changeLog entry.state) : Filed (store.set entry.feedId entry) := by
  intro key other got
  rcases eq_or_ne key entry.feedId with rfl | here
  · rw [get_set,some.injEq] at got
    subst got
    exact ⟨rfl,chronicle⟩
  · rw [get_set_ne here] at got
    exact filed key other got

theorem Change.filed (change : Change store request next) (filed : Filed store) : Filed next := by
  cases change with
  | registered chronicle proposed => exact filed.set (proposed ▸ chronicle)
  | moved got _ log state added =>
    apply filed.set
    rw [log,state]
    exact .moved (filed _ _ got).2 added

def Lawful (entry : FeedLifecycleEntry) : Prop :=
  (entry.state = .active → Licensed entry.changeLog) ∧
    (entry.state = .suspended → leftCanary entry.changeLog = true ∨ Licensed entry.changeLog)

theorem Licensed.append (licensed : Licensed log) : Licensed (log ++ [record]) := by
  obtain ⟨got,mem,proof⟩ := licensed
  exact ⟨got,List.mem_append_left _ mem,proof⟩

theorem Appends.activates (added : Appends log state .activate record) : Licensed (log ++ [record]) := by
  refine ⟨record,List.mem_concat_self,added.named,?_⟩
  have role := added.authorised
  cases held : record.role <;> simp_all [feedTransitionRoles,roleLevel]

theorem Appends.resumed (added : Appends log state .resume record) : state = .suspended := by
  have allowed := added.allowed
  cases state <;> simp at allowed ⊢

theorem Appends.suspended (added : Appends log state .suspend record) : state = .canary ∨ state = .active := by
  have allowed := added.allowed
  cases state <;> simp at allowed ⊢

theorem Appends.leaves (added : Appends log state transition record) : leftCanary (log ++ [record]) = true ↔ state = .canary := by
  simp [leftCanary,added.source]

theorem Appends.lawful (added : Appends prior.changeLog prior.state transition record) (lawful : Lawful prior)
    (straight : transition = .resume → leftCanary prior.changeLog = false) (log : entry.changeLog = prior.changeLog ++ [record])
    (state : entry.state = nextStateFor transition) : Lawful entry := by
  rw [Lawful,log,state]
  cases transition with
  | activate => exact ⟨fun _ => added.activates,nofun⟩
  | resume =>
    refine ⟨fun _ => ?_,nofun⟩
    exact ((lawful.2 added.resumed).resolve_left (by simp [straight rfl])).append
  | suspend =>
    refine ⟨nofun,fun _ => ?_⟩
    rcases added.suspended with trial | active
    · exact .inl (added.leaves.mpr trial)
    · exact .inr (lawful.1 active).append
  | validate | promoteToCanary | retire | reject => exact ⟨nofun,nofun⟩

def AllLawful (store : FeedLifecycleStore) : Prop := ∀ key entry, store.get key = some entry → Lawful entry

theorem Change.lawful (change : Change store request next) (lawful : AllLawful store) (straight : resumesCanary store request = false) :
    AllLawful next := by
  have written (entry : FeedLifecycleEntry) (good : Lawful entry) : AllLawful (store.set entry.feedId entry) := by
    intro key other got
    rcases eq_or_ne key entry.feedId with rfl | here
    · rw [get_set,some.injEq] at got
      exact got ▸ good
    · rw [get_set_ne here] at got
      exact lawful key other got
  cases change with
  | registered _ proposed =>
    apply written
    simp [Lawful,proposed]
  | moved got _ log state added =>
    apply written
    refine added.lawful (lawful _ _ got) ?_ log state
    intro resumes
    simpa [resumes,got] using straight

theorem Chronicled.suspended_on_trial (chronicle : Chronicled log state) (suspended : state = .suspended) (left : leftCanary log = true) :
    ∀ record ∈ log, record.transition ≠ some .activate := by
  cases chronicle with
  | registered => cases suspended
  | moved prior added =>
    have trial := added.leaves.mp left
    intro other mem
    rcases mem_snoc.mp mem with old | last
    · exact prior.unlicensed (.inr (.inr trial)) other old
    · rw [last,added.named]
      rintro activated
      cases activated
      cases suspended

theorem Change.unlicensed (change : Change store request next) (filed : Filed store) (resumes : resumesCanary store request = true) :
    ∃ key entry, next.get key = some entry ∧ entry.state = .active ∧ ¬ Licensed entry.changeLog := by
  cases change with
  | registered => cases resumes
  | @moved _ input prior entry got same log state added =>
    obtain ⟨resume,left⟩ : input.transition = .resume ∧ leftCanary prior.changeLog = true := by
      simpa [got] using resumes
    rw [resume] at state added
    refine ⟨entry.feedId,entry,get_set,state,?_⟩
    rintro ⟨other,among,activated,_⟩
    rw [log] at among
    rcases mem_snoc.mp among with old | last
    · exact (filed _ _ got).2.suspended_on_trial added.resumed left other old activated
    · rw [last,added.named] at activated
      cases activated

structure Recorded (entry : FeedLifecycleEntry) : Prop where
  sequences : entry.changeLog.map sequence = List.range' 1 entry.changeLog.length
  linked : entry.changeLog.IsChain (fun earlier later => later.source = some earlier.target)
  current : entry.changeLog.getLast?.map target = some entry.state
  terminal : entry.changeLog.IsChain (fun earlier _ => earlier.target ≠ .retired)

theorem Chronicled.recorded (chronicle : Chronicled entry.changeLog entry.state) : Recorded entry where
  sequences := chronicle.sequences
  linked := chronicle.linked.imp (fun _ _ both => both.1)
  current := chronicle.current
  terminal := chronicle.linked.imp (fun _ _ both => both.2)

section
variable {text : JsText} {ts : List (Runs.Transition FeedLifecycleStore (String × Request))} {store s : FeedLifecycleStore}

theorem runs_filed (path : Run (step text) .empty ts s) : ∀ store ∈ states .empty ts, Filed store := by
  apply path.always (fun _ _ => trivial) filed_empty
  intro t _ taken filed
  exact (step_change taken).filed filed

-- Every live feed was activated by an administrator, exactly when none is resumed from its trial.
theorem live_by_admin_exact (path : Run (step text) .empty ts s) :
    (∀ store ∈ states .empty ts, ∀ key entry, store.get key = some entry → Recorded entry) ∧
    ((∀ store ∈ states .empty ts, ∀ key entry, store.get key = some entry → entry.state = .active → Licensed entry.changeLog) ↔
      ∀ t ∈ ts, resumesCanary t.before t.input.2 = false) := by
  have filed := runs_filed path
  refine ⟨fun store visited key entry found => (filed store visited key entry found).2.recorded,?_⟩
  constructor
  · intro licensed t present
    rw [Bool.eq_false_iff]
    intro resumes
    have change := step_change (path.accepted present)
    obtain ⟨key,entry,found,active,unlicensed⟩ := change.unlicensed (filed _ (path.before_visited present)) resumes
    exact unlicensed (licensed _ (Runs.after_visited present) key entry found active)
  · intro straight store visited key entry found active
    have lawful := path.always (P := AllLawful) straight (by nofun) (fun t good taken => fun before => (step_change taken).lawful before good)
    exact (lawful store visited key entry found).1 active

end

namespace Sample

def register : String × Request := ("t0",.register ⟨"btc-usd","alice",.operator,none,none,none⟩)

def move (transition : FeedTransition) (role : FeedLifecycleRole) : String × Request :=
  ("t1",.transition ⟨"btc-usd",transition,"alice",role,"ready",none,none⟩)

def detour : List (String × Request) :=
  [register,move .validate .operator,move .promoteToCanary .operator,move .suspend .operator,move .resume .operator]

def lifecycle : List (String × Request) :=
  [register,move .validate .operator,move .promoteToCanary .operator,move .activate .admin,move .suspend .operator,
    move .resume .operator,move .retire .admin]

end Sample

open Sample

theorem reviewed_feed_licensed : ∃ ts s, Run (step JsText.plain) .empty ts s ∧ ts.map Runs.Transition.input = lifecycle ∧
    ∀ store ∈ states .empty ts, ∀ key entry, store.get key = some entry → entry.state = .active → Licensed entry.changeLog := by
  have observed : (replay (step JsText.plain) .empty lifecycle).map
      (fun r => r.1.all (fun t => !resumesCanary t.before t.input.2)) = .ok true := by decide +kernel
  obtain ⟨ts,s,path,inputs,straight⟩ := Runs.replay_steps observed
  refine ⟨ts,s,path,inputs,(live_by_admin_exact path).2.mpr ?_⟩
  intro t present
  simpa using List.all_eq_true.mp straight t present

theorem operator_puts_feed_live : ∃ ts s entry, Run (step JsText.plain) .empty ts s ∧ s.get "btc-usd" = some entry ∧
    entry.state = .active ∧ ¬ Licensed entry.changeLog := by
  have observed : (replay (step JsText.plain) .empty detour).map
      (fun r => (r.2.get "btc-usd").map (fun entry => (entry.state,entry.changeLog.map FeedChangeRecord.role))) =
        .ok (some (.active,[.operator,.operator,.operator,.operator,.operator])) := by decide +kernel
  obtain ⟨ts,s,path,shown⟩ := Runs.replay_observed observed
  obtain ⟨entry,found,both⟩ := Option.map_eq_some_iff.mp shown
  simp only [Prod.mk.injEq] at both
  refine ⟨ts,s,entry,path,found,both.1,?_⟩
  rintro ⟨_,present,_,admin⟩
  have among := List.mem_map_of_mem (f := FeedChangeRecord.role) present
  rw [both.2,admin] at among
  exact absurd among (by decide)

end StellarPriceOracle.FeedLifecycle
