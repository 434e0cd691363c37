import StellarPriceOracle.Types
import StellarPriceOracle.Library.InsertionMap
import StellarPriceOracle.Library.Runs

namespace StellarPriceOracle.ProposalService
open Guarded
open Runs (Transition Run total)
open List

-- proposal-service.ts, the token-based half, in whole seconds.
abbrev Instant := {seconds : Nat // seconds ≤ 8640000000000}

-- `new Date(seconds * 1000).toISOString()` throws beyond the last time value.
def toISOString (seconds : Nat) : Option Instant :=
  if within : seconds ≤ 8640000000000 then some ⟨seconds,within⟩ else none

structure GovernanceConfig where
  token : String
  (votingPeriod timelockDelay : Nat)
  (quorum proposalThreshold : Int)
  guardian : String

structure GovernanceProposal (α : Type) where
  id : Nat
  proposer : String
  action : α
  description : String
  (votesFor votesAgainst : Nat)
  (votingStart votingEnd executionTime : Instant)
  status : ProposalStatus

inductive ServiceError where
  | governanceNotInitialized | proposalNotFound | votingNotActive | alreadyVoted | proposalDefeated
  | proposalAlreadyExecuted | proposalCancelled | timeLockNotElapsed | guardianOnly | invalidTimeValue
  deriving DecidableEq

-- A vote's key is the proposal id, a colon and the voter; the pair says the same.
structure Service (α : Type) where
  govConfig : Option GovernanceConfig
  govProposalCount : Nat
  governanceProposals : InsertionMap Nat (GovernanceProposal α)
  votes : InsertionMap (Nat × String) Bool

-- A call that throws keeps what it wrote before, so both outcomes carry the state.
abbrev Result (α β : Type) := Except (ServiceError × Service α) β

abbrev Reply (α : Type) := GovernanceProposal α × Service α

def after : Result α (Reply α) → Service α
  | .ok (_,s) => s
  | .error (_,s) => s

def initGovernance (config : GovernanceConfig) : Service α := ⟨some config,0,.empty,.empty⟩

section
variable (s : Service α)

def store (id : Nat) (proposal : GovernanceProposal α) : Service α :=
  {s with governanceProposals := s.governanceProposals.set id proposal}

def createGovernanceProposal (now : Instant) (proposer : String) (action : α) (description : String) : Result α (Reply α) := do
  let config ← someOr s.govConfig (.governanceNotInitialized,s)
  let id := s.govProposalCount + 1
  let s := {s with govProposalCount := id}
  let votingEnd ← someOr (toISOString (now + config.votingPeriod)) (.invalidTimeValue,s)
  let executionTime ← someOr (toISOString (now + config.votingPeriod + config.timelockDelay)) (.invalidTimeValue,s)
  let proposal := ⟨id,proposer,action,description,0,0,now,votingEnd,executionTime,.active⟩
  .ok (proposal,store s id proposal)

def votingPower : Nat := 100000

def addVotes (proposal : GovernanceProposal α) (support : Bool) : GovernanceProposal α :=
  if support then {proposal with votesFor := proposal.votesFor + votingPower}
  else {proposal with votesAgainst := proposal.votesAgainst + votingPower}

def castVote (now : Instant) (voter : String) (proposalId : Nat) (support : Bool) : Result α (Reply α) := do
  let _ ← someOr s.govConfig (.governanceNotInitialized,s)
  let proposal ← someOr (s.governanceProposals.get proposalId) (.proposalNotFound,s)
  require (proposal.status = .active) (.votingNotActive,s)
  require (¬ (proposal.votingEnd : Nat) ≤ now) (.votingNotActive,s)
  require (s.votes.get (proposalId,voter) = none) (.alreadyVoted,s)
  let voted := addVotes proposal support
  .ok (voted,store {s with votes := s.votes.set (proposalId,voter) support} proposalId voted)

def won (config : GovernanceConfig) (proposal : GovernanceProposal α) : Bool :=
  config.quorum ≤ proposal.votesFor + proposal.votesAgainst ∧ proposal.votesAgainst < proposal.votesFor

def queueProposal (now : Instant) (proposalId : Nat) : Result α (Reply α) := do
  let config ← someOr s.govConfig (.governanceNotInitialized,s)
  let proposal ← someOr (s.governanceProposals.get proposalId) (.proposalNotFound,s)
  require (proposal.status = .active) (.votingNotActive,s)
  require (¬ (now : Nat) < proposal.votingEnd) (.votingNotActive,s)
  let defeated := {proposal with status := .defeated}
  require (won config proposal) (.proposalDefeated,store s proposalId defeated)
  let queued := {proposal with status := .queued}
  .ok (queued,store s proposalId queued)

end

-- It writes to the object that the map holds, whatever the call does next.
def resolveActive (config : GovernanceConfig) (s : Service α) (now : Instant) (proposalId : Nat)
    (proposal : GovernanceProposal α) : Result α (Reply α) :=
  if proposal.status = .active ∧ (proposal.votingEnd : Nat) ≤ now then do
    let defeated := {proposal with status := .defeated}
    require (won config proposal) (.proposalDefeated,store s proposalId defeated)
    let queued := {proposal with status := .queued, executionTime := now}
    .ok (queued,store s proposalId queued)
  else .ok (proposal,s)

section
variable (s : Service α)

def executeGovernanceProposal (now again : Instant) (proposalId : Nat) : Result α (Reply α) := do
  let config ← someOr s.govConfig (.governanceNotInitialized,s)
  let proposal ← someOr (s.governanceProposals.get proposalId) (.proposalNotFound,s)
  require (proposal.status ≠ .executed) (.proposalAlreadyExecuted,s)
  require (proposal.status ≠ .cancelled) (.proposalCancelled,s)
  require (proposal.status ≠ .defeated) (.proposalDefeated,s)
  let (proposal,s) ← resolveActive config s now proposalId proposal
  require (¬ (proposal.status ≠ .queued ∧ proposal.status ≠ .ready)) (.votingNotActive,s)
  require (¬ (again : Nat) < proposal.executionTime) (.timeLockNotElapsed,s)
  let executed := {proposal with status := .executed}
  .ok (executed,store s proposalId executed)

def cancelProposal (_caller : String) (proposalId : Nat) : Result α (Reply α) := do
  let _ ← someOr s.govConfig (.governanceNotInitialized,s)
  let proposal ← someOr (s.governanceProposals.get proposalId) (.proposalNotFound,s)
  require (proposal.status ≠ .executed) (.proposalAlreadyExecuted,s)
  require (proposal.status ≠ .cancelled) (.proposalCancelled,s)
  let cancelled := {proposal with status := .cancelled}
  .ok (cancelled,store s proposalId cancelled)

def emergencyExecute (guardian : String) (proposalId : Nat) : Result α (Reply α) := do
  let config ← someOr s.govConfig (.governanceNotInitialized,s)
  require (config.guardian = guardian) (.guardianOnly,s)
  let proposal ← someOr (s.governanceProposals.get proposalId) (.proposalNotFound,s)
  require (proposal.status ≠ .executed) (.proposalAlreadyExecuted,s)
  require (proposal.status ≠ .cancelled) (.proposalCancelled,s)
  let executed := {proposal with status := .executed}
  .ok (executed,store s proposalId executed)

inductive Call (α : Type) where
  | createGovernanceProposal (proposer : String) (action : α) (description : String)
  | castVote (voter : String) (proposalId : Nat) (support : Bool)
  | queueProposal (proposalId : Nat)
  | executeGovernanceProposal (proposalId : Nat)
  | cancelProposal (caller : String) (proposalId : Nat)
  | emergencyExecute (guardian : String) (proposalId : Nat)

structure Request (α : Type) where
  (now again : Instant)
  call : Call α

def respond (request : Request α) : Result α (Reply α) :=
  match request.call with
  | .createGovernanceProposal proposer action description =>
    createGovernanceProposal s request.now proposer action description
  | .castVote voter proposalId support => castVote s request.now voter proposalId support
  | .queueProposal proposalId => queueProposal s request.now proposalId
  | .executeGovernanceProposal proposalId => executeGovernanceProposal s request.now request.again proposalId
  | .cancelProposal caller proposalId => cancelProposal s caller proposalId
  | .emergencyExecute guardian proposalId => emergencyExecute s guardian proposalId

def next (request : Request α) : Service α := after (respond s request)

end

abbrev Trace (α : Type) := List (Transition (Service α) (Request α))

def readings (ts : Trace α) : List Nat := ts.flatMap (fun t => [(t.input.now : Nat),t.input.again])

def Clocked (ts : Trace α) : Prop := (readings ts).Pairwise (· ≤ ·)

instance (ts : Trace α) : Decidable (Clocked ts) := inferInstanceAs (Decidable (Pairwise _ _))

def Timelocked (config : GovernanceConfig) (s : Service α) : Prop :=
  ∀ id p, s.governanceProposals.get id = some p → p.status ≠ .executed →
    (p.executionTime : Nat) = p.votingEnd + config.timelockDelay

inductive Written (config : GovernanceConfig) (s : Service α) (id : Nat) (q : GovernanceProposal α) : Prop where
  | created : (q.executionTime : Nat) = q.votingEnd + config.timelockDelay → Written config s id q
  | revised : s.governanceProposals.get id = some p → p.status ≠ .executed → q.votingEnd = p.votingEnd →
      q.executionTime = p.executionTime → Written config s id q
  | executed : q.status = .executed → Written config s id q

inductive Effect (config : GovernanceConfig) (s s' : Service α) : Prop where
  | none : s'.govConfig = s.govConfig → s'.governanceProposals = s.governanceProposals → Effect config s s'
  | wrote {id : Nat} : s'.govConfig = s.govConfig → s'.governanceProposals = s.governanceProposals.set id q →
      Written config s id q → Effect config s s'

section Effects
variable {s kept : Service α} {config : GovernanceConfig} {failure : ServiceError} {now again : Instant} {request : Request α}

theorem after_stateOf : after outcome = stateOf outcome := by
  cases outcome <;> rfl

theorem after_require {P : Service α → Prop} [Decidable condition] (failed : P kept) (passed : condition → P (after (rest ()))) :
    P (after (require condition (failure,kept) >>= rest)) := by
  simp only [after_stateOf] at passed ⊢
  exact stateOf_require failed passed

theorem after_someOr {P : Service α → Prop} (failed : P kept) (passed : ∀ got, value = some got → P (after (rest got))) :
    P (after (someOr value (failure,kept) >>= rest)) := by
  simp only [after_stateOf] at passed ⊢
  exact stateOf_someOr failed passed

theorem Effect.unchanged : Effect config s s := .none rfl rfl

theorem toISOString_exact (dated : toISOString seconds = some instant) : (instant : Nat) = seconds := by
  unfold toISOString at dated
  split at dated
  · cases dated
    rfl
  · cases dated

theorem create_effect (conf : s.govConfig = some config) :
    Effect config s (after (createGovernanceProposal s now proposer action description)) := by
  apply after_someOr .unchanged
  intro _ got
  cases conf.symm.trans got
  apply after_someOr (.none rfl rfl)
  intro votingEnd ends
  apply after_someOr (.none rfl rfl)
  intro executionTime executes
  refine .wrote rfl rfl (.created ?_)
  change (executionTime : Nat) = votingEnd + config.timelockDelay
  rw [toISOString_exact ends,toISOString_exact executes]

theorem vote_effect : Effect config s (after (castVote s now voter proposalId support)) := by
  apply after_someOr .unchanged
  intro _ _
  apply after_someOr .unchanged
  intro p got
  apply after_require .unchanged
  intro active
  apply after_require .unchanged
  intro _
  apply after_require .unchanged
  intro _
  refine .wrote rfl rfl (.revised got (by simp [active]) ?_ ?_)
  · cases support <;> rfl
  · cases support <;> rfl

theorem queue_effect : Effect config s (after (queueProposal s now proposalId)) := by
  apply after_someOr .unchanged
  intro _ _
  apply after_someOr .unchanged
  intro p got
  apply after_require .unchanged
  intro active
  have live : p.status ≠ .executed := by simp [active]
  apply after_require .unchanged
  intro _
  apply after_require (.wrote rfl rfl (.revised got live rfl rfl))
  intro _
  exact .wrote rfl rfl (.revised got live rfl rfl)

theorem cancel_effect (caller : String) : Effect config s (after (cancelProposal s caller proposalId)) := by
  apply after_someOr .unchanged
  intro _ _
  apply after_someOr .unchanged
  intro p got
  apply after_require .unchanged
  intro live
  apply after_require .unchanged
  intro _
  exact .wrote rfl rfl (.revised got live rfl rfl)

theorem emergency_effect : Effect config s (after (emergencyExecute s guardian proposalId)) := by
  apply after_someOr .unchanged
  intro _ _
  apply after_require .unchanged
  intro _
  apply after_someOr .unchanged
  intro p _
  apply after_require .unchanged
  intro _
  apply after_require .unchanged
  intro _
  exact .wrote rfl rfl (.executed rfl)

def Lapsed (config : GovernanceConfig) (now : Instant) (p : GovernanceProposal α) : Prop :=
  p.status = .active ∧ (p.votingEnd : Nat) ≤ now ∧ won config p = true

instance : Decidable (Lapsed config now p) := inferInstanceAs (Decidable (_ ∧ _ ∧ _))

theorem execute_lapsed (conf : s.govConfig = some config) (got : s.governanceProposals.get proposalId = some p)
    (lapsed : Lapsed config now p) (ordered : (now : Nat) ≤ again) :
    executeGovernanceProposal s now again proposalId =
      .ok ({p with status := .executed, executionTime := now},
        store s proposalId {p with status := .executed, executionTime := now}) := by
  obtain ⟨active,closed,passed⟩ := lapsed
  have early : ¬ (again : Nat) < now := Nat.not_lt.mpr ordered
  simp [executeGovernanceProposal,resolveActive,conf,got,active,closed,passed,early,someOr,require,store,
    InsertionMap.set_set,bind,Except.bind]

theorem execute_parts (done : executeGovernanceProposal s now again proposalId = .ok (q,s')) :
    ∃ config p, s.govConfig = some config ∧ s.governanceProposals.get proposalId = some p ∧ p.status ≠ .executed ∧
      q.votingEnd = p.votingEnd ∧ (Lapsed config now p ∨ (p.executionTime : Nat) ≤ again) := by
  simp only [executeGovernanceProposal,bind_ok,someOr_ok,require_ok] at done
  obtain ⟨config,conf,p,got,_,live,_,_,_,_,⟨r,_⟩,resolved,_,_,_,elapsed,done⟩ := done
  obtain ⟨rfl,_⟩ := Prod.mk.inj (Except.ok.inj done)
  refine ⟨config,p,conf,got,live,?_⟩
  unfold resolveActive at resolved
  split at resolved
  · rename_i lapsed
    obtain ⟨passed,resolved⟩ := guard_ok.mp resolved
    cases resolved
    exact ⟨rfl,.inl ⟨lapsed.1,lapsed.2,passed⟩⟩
  · cases resolved
    exact ⟨rfl,.inr (Nat.not_lt.mp elapsed)⟩

theorem execute_effect (conf : s.govConfig = some config) (ordered : (now : Nat) ≤ again) :
    Effect config s (after (executeGovernanceProposal s now again proposalId)) := by
  cases got : s.governanceProposals.get proposalId with
  | none =>
    simp only [executeGovernanceProposal,conf,got,someOr]
    exact .unchanged
  | some p =>
    by_cases lapsed : p.status = .active ∧ (p.votingEnd : Nat) ≤ now
    · by_cases passed : won config p = true
      · rw [execute_lapsed conf got ⟨lapsed.1,lapsed.2,passed⟩ ordered]
        exact .wrote rfl rfl (.executed rfl)
      · have defeated : executeGovernanceProposal s now again proposalId =
            .error (.proposalDefeated,store s proposalId {p with status := .defeated}) := by
          simp [executeGovernanceProposal,resolveActive,conf,got,lapsed.1,lapsed.2,passed,someOr,require,
            bind,Except.bind]
        rw [defeated]
        exact .wrote rfl rfl (.revised got (by simp [lapsed.1]) rfl rfl)
    · have kept : resolveActive config s now proposalId p = .ok (p,s) := if_neg lapsed
      simp only [executeGovernanceProposal,conf,got,someOr,ok_bind]
      apply after_require .unchanged
      intro _
      apply after_require .unchanged
      intro _
      apply after_require .unchanged
      intro _
      rw [kept,ok_bind]
      apply after_require .unchanged
      intro _
      apply after_require .unchanged
      intro _
      exact .wrote rfl rfl (.executed rfl)

theorem next_effect (conf : s.govConfig = some config) (ordered : (request.now : Nat) ≤ request.again) :
    Effect config s (next s request) := by
  obtain ⟨_,_,call⟩ := request
  cases call with
  | createGovernanceProposal => exact create_effect conf
  | castVote => exact vote_effect
  | queueProposal => exact queue_effect
  | executeGovernanceProposal => exact execute_effect conf ordered
  | cancelProposal caller => exact cancel_effect caller
  | emergencyExecute => exact emergency_effect

end Effects

theorem Effect.keeps_config (effect : Effect config s s') : s'.govConfig = s.govConfig := by
  cases effect with
  | none same _ | wrote same _ _ => exact same

theorem Effect.timelocked (effect : Effect config s s') (locked : Timelocked config s) : Timelocked config s' := by
  cases effect with
  | none _ same =>
    intro id p got live
    exact locked id p (same ▸ got) live
  | wrote _ same written =>
    intro other p got live
    rw [same] at got
    rcases InsertionMap.get_set_some.mp got with ⟨rfl,rfl⟩ | ⟨_,got⟩
    · cases written with
      | created due => exact due
      | revised prior pending ends executes => rw [executes,ends]; exact locked other _ prior pending
      | executed done => exact absurd done live
    · exact locked other p got live

theorem runs_timelocked (path : Run (total next) (initGovernance config : Service α) ts s)
    (ordered : ∀ t ∈ ts, (t.input.now : Nat) ≤ t.input.again) : s.govConfig = some config ∧ Timelocked config s := by
  apply path.invariant_of ordered
  · refine ⟨rfl,?_⟩
    intro _ p got
    cases got
  · intro t inOrder ran valid
    have effect := next_effect valid.1 inOrder
    rw [Except.ok.inj ran] at effect
    exact ⟨effect.keeps_config.trans valid.1,effect.timelocked valid.2⟩

theorem Clocked.ordered (clocked : Clocked ts) (mem : t ∈ ts) : (t.input.now : Nat) ≤ t.input.again := by
  obtain ⟨_,_,rfl⟩ := append_of_mem mem
  simp only [Clocked,readings,flatMap_append,flatMap_cons] at clocked
  have here := (pairwise_append.mp (pairwise_append.mp clocked).2.1).1
  simpa using here

def HonoursTimelock (config : GovernanceConfig) (t : Transition (Service α) (Request α)) : Prop :=
  ∀ id p s', t.input.call = .executeGovernanceProposal id →
    executeGovernanceProposal t.before t.input.now t.input.again id = .ok (p,s') →
    (p.votingEnd : Nat) + config.timelockDelay ≤ t.input.again

-- An execution that finds the won vote over but not queued, before the delay is over.
def SkipsQueue (config : GovernanceConfig) (t : Transition (Service α) (Request α)) : Bool :=
  match t.input.call with
  | .executeGovernanceProposal id => (t.before.governanceProposals.get id).any (fun p =>
    Lapsed config t.input.now p ∧ (t.input.again : Nat) < p.votingEnd + config.timelockDelay)
  | _ => false

theorem skipsQueue_exact : SkipsQueue config t = true ↔
    ∃ id p, t.input.call = .executeGovernanceProposal id ∧ t.before.governanceProposals.get id = some p ∧
      Lapsed config t.input.now p ∧ (t.input.again : Nat) < p.votingEnd + config.timelockDelay := by
  unfold SkipsQueue
  split
  · rename_i id asked
    simp [Option.any_eq_true,asked]
  · rename_i other
    simp only [Bool.false_eq_true,false_iff]
    rintro ⟨id,p,asked,_⟩
    exact other id asked

theorem timelock_exact (path : Run (total next) (initGovernance config : Service α) ts s) (clocked : Clocked ts) :
    (∀ t ∈ ts, HonoursTimelock config t) ↔ ∀ t ∈ ts, SkipsQueue config t = false := by
  apply forall₂_congr
  intro t present
  obtain ⟨_,_,rfl,reached,_⟩ := path.member present
  obtain ⟨configured,locked⟩ := runs_timelocked reached
    (fun t old => clocked.ordered (mem_append_left _ old))
  constructor
  · intro honours
    apply Bool.eq_false_iff.mpr
    intro skips
    obtain ⟨id,p,asked,found,lapsed,early⟩ := skipsQueue_exact.mp skips
    have due := honours id _ _ asked (execute_lapsed configured found lapsed (clocked.ordered present))
    exact absurd due (Nat.not_le.mpr early)
  · intro waits id q _ asked done
    obtain ⟨_,p,current,found,live,ends,lapsed | elapsed⟩ := execute_parts done
    · cases Option.some.inj (configured.symm.trans current)
      rw [ends]
      apply Nat.not_lt.mp
      intro early
      exact Bool.eq_false_iff.mp waits (skipsQueue_exact.mpr ⟨id,p,asked,found,lapsed,early⟩)
    · rw [ends,← locked id p found live]
      exact elapsed

namespace Sample
def config : GovernanceConfig := ⟨"token",10,100,100000,0,"guardian"⟩

def request (now : Nat) (call : Call Unit) : Request Unit :=
  let reading := (toISOString now).getD ⟨0,Nat.zero_le _⟩
  ⟨reading,reading,call⟩

def run (requests : List (Request Unit)) : Except Empty (Trace Unit × Service Unit) :=
  Runs.replay (total next) (initGovernance config) requests

def voted : List (Request Unit) :=
  [request 0 (.createGovernanceProposal "alice" () "raise the threshold"),request 1 (.castVote "bob" 1 true)]

def executesEarly (t : Transition (Service Unit) (Request Unit)) : Bool :=
  match t.input.call with
  | .executeGovernanceProposal id =>
    match executeGovernanceProposal t.before t.input.now t.input.again id with
    | .ok (p,_) => (t.input.again : Nat) < p.votingEnd + config.timelockDelay
    | .error _ => false
  | _ => false
end Sample

open Sample

theorem queued_execution_waits : ∃ ts s, Run (total next) (initGovernance config : Service Unit) ts s ∧
    Clocked ts ∧ (∀ t ∈ ts, HonoursTimelock config t) ∧
    (s.governanceProposals.get 1).map GovernanceProposal.status = some .executed := by
  have replayed : (run (voted ++ [request 10 (.queueProposal 1),
      request 110 (.executeGovernanceProposal 1)])).map (fun result =>
        (decide (Clocked result.1),decide (∀ t ∈ result.1, SkipsQueue config t = false),
          (result.2.governanceProposals.get 1).map GovernanceProposal.status)) = .ok (true,true,some .executed) := by rfl
  obtain ⟨ts,s,path,clocked,queued,executed⟩ := Runs.replay_triple replayed
  have clocked := of_decide_eq_true clocked
  exact ⟨ts,s,path,clocked,(timelock_exact path clocked).mpr (of_decide_eq_true queued),executed⟩

theorem execution_without_delay : ∃ ts s t id p s',
    Run (total next) (initGovernance config : Service Unit) ts s ∧ Clocked ts ∧ t ∈ ts ∧
    t.input.call = .executeGovernanceProposal id ∧
    executeGovernanceProposal t.before t.input.now t.input.again id = .ok (p,s') ∧
    (t.input.again : Nat) < p.votingEnd + config.timelockDelay := by
  have replayed : (run (voted ++ [request 10 (.executeGovernanceProposal 1)])).map (fun result =>
      (decide (Clocked result.1),result.1.any executesEarly)) = .ok (true,true) := by rfl
  obtain ⟨ts,s,path,clocked,early⟩ := Runs.replay_pair replayed
  obtain ⟨t,present,early⟩ := any_eq_true.mp early
  unfold executesEarly at early
  split at early
  · rename_i id asked
    split at early
    · rename_i p s' done
      exact ⟨ts,s,t,id,p,s',path,of_decide_eq_true clocked,present,asked,done,of_decide_eq_true early⟩
    · cases early
  · cases early

end StellarPriceOracle.ProposalService
