import StellarPriceOracle.Storage
import StellarPriceOracle.Library.Runs

namespace StellarPriceOracle.Governance
open Guarded Storage
open KeyedStore (get_set_ne)
open Except (ok)

-- GovernanceContract keeps its own storage; the accessors are the shared ones.
def requireGov (s : Storage) : Outcome GovernanceConfig := okOr (getGovConfig s) .governanceNotInitialized

def votingPower (env : Env) (config : GovernanceConfig) (account : Address) : Int := env.balance config.token account

def resolveProposal (env : Env) (proposal : GovernanceProposal) (config : GovernanceConfig) : Outcome GovernanceProposal :=
  if proposal.status = .active ∧ proposal.votingEnd ≤ env.timestamp then do
    let cast ← addI128 proposal.votesFor proposal.votesAgainst
    if config.quorum ≤ cast ∧ proposal.votesAgainst < proposal.votesFor then do
      let executionTime ← addU64 proposal.votingEnd config.timelockDelay
      .ok {proposal with status := .queued, executionTime := executionTime}
    else .ok {proposal with status := .defeated}
  else .ok proposal

inductive Resolution (env : Env) (config : GovernanceConfig) (p : GovernanceProposal) : GovernanceProposal → Prop where
  | unchanged : ¬ (p.status = .active ∧ p.votingEnd ≤ env.timestamp) → Resolution env config p p
  | passed : p.status = .active → p.votingEnd ≤ env.timestamp → config.quorum ≤ p.votesFor + p.votesAgainst →
      p.votesAgainst < p.votesFor → Resolution env config p
        {p with status := .queued, executionTime := p.votingEnd + config.timelockDelay}
  | defeated : p.status = .active → p.votingEnd ≤ env.timestamp →
      ¬ (config.quorum ≤ p.votesFor + p.votesAgainst ∧ p.votesAgainst < p.votesFor) →
      Resolution env config p {p with status := .defeated}

theorem resolve_parts (resolved : resolveProposal env p config = .ok q) : Resolution env config p q := by
  unfold resolveProposal at resolved
  split at resolved
  · rename_i closed
    simp only [bind_ok,addWithin_ok] at resolved
    obtain ⟨_,⟨_,rfl⟩,resolved⟩ := resolved
    split at resolved
    · rename_i won
      simp only [bind_ok,addBelow_ok,ok.injEq] at resolved
      obtain ⟨_,⟨_,rfl⟩,rfl⟩ := resolved
      exact .passed closed.1 closed.2 won.1 won.2
    · rename_i lost
      cases resolved
      exact .defeated closed.1 closed.2 lost
  · rename_i still
    cases resolved
    exact .unchanged still

theorem resolution_same (resolved : Resolution env config p q) : q.id = p.id ∧ q.action = p.action ∧
    q.votesFor = p.votesFor ∧ q.votesAgainst = p.votesAgainst ∧ q.votingEnd = p.votingEnd := by
  cases resolved <;> exact ⟨rfl,rfl,rfl,rfl,rfl⟩

def applyAction (s : Storage) : ProposalAction → Outcome Storage
  | .setAdmin newAdmin | .transferAdmin newAdmin => .ok (setAdmin s newAdmin)
  | .addOracleSource source name | .addSource source name => addSource s source name
  | .removeOracleSource source | .removeSource source => .ok (removeSource s source)
  | .setTrustedAsset asset trusted => .ok (setTrustedAsset s asset trusted)
  | .updateGovernanceConfig newConfig => .ok (setGovConfig s newConfig)
  | _ => .ok s

def Touches : ProposalAction → DataKey → Prop
  | .setAdmin _,k | .transferAdmin _,k => k = .admin
  | .addOracleSource source _,k | .addSource source _,k | .removeOracleSource source,k | .removeSource source,k =>
    k = .source source ∨ k = .sourceName source ∨ k = .sourceCount
  | .setTrustedAsset asset _,k => k = .trustedAsset asset
  | .updateGovernanceConfig _,k => k = .governanceConfig
  | _,_ => False

theorem applyAction_get (ran : applyAction s action = .ok next) (out : ¬ Touches action k) : next.get k = s.get k := by
  cases action with
  | addOracleSource source name | addSource source name =>
    simp only [Touches,not_or] at out
    exact addSource_get ran out.1 out.2.1 out.2.2
  | removeOracleSource source | removeSource source =>
    simp only [Touches,not_or] at out
    cases ran
    exact removeSource_get out.1 out.2.1 out.2.2
  | setAdmin newAdmin | transferAdmin newAdmin | setTrustedAsset asset trusted | updateGovernanceConfig newConfig =>
    cases ran
    exact get_set_ne out
  | _ =>
    cases ran
    rfl

-- The keys of the vote, which no action touches.
def Ballot (k : DataKey) : Prop :=
  (∃ id, k = .governanceProposal id) ∨ (∃ id voter, k = .vote id voter) ∨ k = .governanceProposalCount

theorem Ballot.untouched (ballot : Ballot k) : ¬ Touches action k := by
  rcases ballot with ⟨_,rfl⟩ | ⟨_,_,rfl⟩ | rfl <;> cases action <;> simp [Touches]

@[simp] theorem touches_count : ¬ Touches action .governanceProposalCount := Ballot.untouched (Or.inr (Or.inr rfl))

@[simp] theorem touches_vote {id : Nat} : ¬ Touches action (.vote id voter) :=
  Ballot.untouched (Or.inr (Or.inl ⟨id,voter,rfl⟩))

def installs : ProposalAction → Option GovernanceConfig
  | .updateGovernanceConfig newConfig => some newConfig
  | _ => none

theorem applyAction_config (ran : applyAction s action = .ok next) : getGovConfig next = (installs action).or (getGovConfig s) := by
  cases action with
  | updateGovernanceConfig =>
    cases ran
    simp [installs,getGovConfig,setGovConfig]
  | _ => exact applyAction_get ran (by simp [Touches])

def validateConfig (config : GovernanceConfig) : Outcome Unit :=
  ensure (¬ (config.votingPeriod = 0 ∨ config.quorum ≤ 0 ∨ config.proposalThreshold ≤ 0)) .invalidGovernanceConfig

-- `initialize` in the source; the word is reserved here.
def initializeGovernance (env : Env) (s : Storage) (admin : Address) (config : GovernanceConfig) : Outcome Storage := do
  requireAuth env admin
  ensure ((getGovConfig s).isSome = false) .governanceAlreadyInitialized
  validateConfig config
  .ok (setGovConfig (setAdmin s admin) config)

def propose (env : Env) (s : Storage) (proposer : Address) (action : ProposalAction) (description : Str) :
    Outcome (Nat × Storage) := do
  requireAuth env proposer
  let config ← requireGov s
  ensure (config.proposalThreshold ≤ votingPower env config proposer) .insufficientVotingPower
  let (id,s) ← incrementProposalCount s
  let now := env.timestamp
  let votingEnd ← addU64 now config.votingPeriod
  let executionTime ← addU64 votingEnd config.timelockDelay
  .ok (id,setGovProposal s ⟨id,proposer,action,description,0,0,now,votingEnd,executionTime,.active⟩)

def addVotes (proposal : GovernanceProposal) (support : Bool) (power : Int) : Outcome GovernanceProposal :=
  if support then do
    let votes ← addI128 proposal.votesFor power
    .ok {proposal with votesFor := votes}
  else do
    let votes ← addI128 proposal.votesAgainst power
    .ok {proposal with votesAgainst := votes}

def vote (env : Env) (s : Storage) (voter : Address) (id : Nat) (support : Bool) : Outcome Storage := do
  requireAuth env voter
  let config ← requireGov s
  let proposal ← okOr (getGovProposal s id) .proposalNotFound
  ensure (proposal.status = .active ∧ proposal.votingStart ≤ env.timestamp ∧ env.timestamp < proposal.votingEnd)
    .votingNotActive
  ensure (hasVoted s id voter = false) .alreadyVoted
  let proposal ← addVotes proposal support (votingPower env config voter)
  .ok (setGovProposal (recordVote s id voter support) proposal)

def counted (p : GovernanceProposal) (support : Bool) (power : Int) : GovernanceProposal :=
  if support then {p with votesFor := p.votesFor + power} else {p with votesAgainst := p.votesAgainst + power}

theorem counted_id : (counted p support power).id = p.id := by
  cases support <;> rfl

theorem addVotes_counted (added : addVotes p support power = .ok q) : q = counted p support power := by
  cases support with
  | true =>
    simp only [addVotes,if_true,bind_ok,addWithin_ok,ok.injEq] at added
    obtain ⟨_,⟨_,rfl⟩,rfl⟩ := added
    rfl
  | false =>
    simp only [addVotes,Bool.false_eq_true,if_false,bind_ok,addWithin_ok,ok.injEq] at added
    obtain ⟨_,⟨_,rfl⟩,rfl⟩ := added
    rfl

theorem vote_parts {id : Nat} (ran : vote env s voter id support = .ok next) : ∃ config p,
    getGovConfig s = some config ∧ getGovProposal s id = some p ∧ p.status = .active ∧
    env.timestamp < p.votingEnd ∧ hasVoted s id voter = false ∧
    next = setGovProposal (recordVote s id voter support) (counted p support (votingPower env config voter)) := by
  simp only [vote,requireGov,bind_ok,require_ok,someOr_ok,ok.injEq] at ran
  obtain ⟨_,_,config,conf,p,got,_,⟨active,_,early⟩,_,fresh,q,added,rfl⟩ := ran
  rw [addVotes_counted added]
  exact ⟨config,p,conf,got,active,early,fresh,rfl⟩

def ensureQueued (proposal : GovernanceProposal) : Outcome Unit :=
  match proposal.status with
  | .queued | .ready => .ok ()
  | .executed => .error (.code .proposalAlreadyExecuted)
  | .cancelled => .error (.code .proposalCancelled)
  | .defeated => .error (.code .proposalDefeated)
  | .active => .error (.code .votingNotActive)

@[simp] theorem ensureQueued_ok : ensureQueued proposal = .ok u ↔ proposal.status = .queued ∨ proposal.status = .ready := by
  cases status : proposal.status <;> simp [ensureQueued,status]

def queue (env : Env) (s : Storage) (id : Nat) : Outcome Storage := do
  let config ← requireGov s
  let proposal ← okOr (getGovProposal s id) .proposalNotFound
  let proposal ← resolveProposal env proposal config
  ensureQueued proposal
  .ok (setGovProposal s proposal)

def execute (env : Env) (s : Storage) (id : Nat) : Outcome Storage := do
  let config ← requireGov s
  let proposal ← okOr (getGovProposal s id) .proposalNotFound
  let proposal ← resolveProposal env proposal config
  ensureQueued proposal
  ensure (proposal.executionTime ≤ env.timestamp) .timeLockNotElapsed
  applyAction (setGovProposal s {proposal with status := .executed}) proposal.action

theorem queue_parts {id : Nat} (ran : queue env s id = .ok next) : ∃ config p q,
    getGovConfig s = some config ∧ getGovProposal s id = some p ∧ Resolution env config p q ∧
    (q.status = .queued ∨ q.status = .ready) ∧ next = setGovProposal s q := by
  simp only [queue,requireGov,bind_ok,someOr_ok,ensureQueued_ok,ok.injEq] at ran
  obtain ⟨config,conf,p,got,q,resolved,_,queued,rfl⟩ := ran
  exact ⟨config,p,q,conf,got,resolve_parts resolved,queued,rfl⟩

theorem execute_parts {id : Nat} (ran : execute env s id = .ok next) : ∃ config p q,
    getGovConfig s = some config ∧ getGovProposal s id = some p ∧ Resolution env config p q ∧
    (q.status = .queued ∨ q.status = .ready) ∧ q.executionTime ≤ env.timestamp ∧
    applyAction (setGovProposal s {q with status := .executed}) q.action = .ok next := by
  simp only [execute,requireGov,bind_ok,someOr_ok,ensureQueued_ok,require_ok] at ran
  obtain ⟨config,conf,p,got,q,resolved,_,queued,_,elapsed,applied⟩ := ran
  exact ⟨config,p,q,conf,got,resolve_parts resolved,queued,elapsed,applied⟩

def ensureOpen (proposal : GovernanceProposal) : Outcome Unit := do
  ensure (proposal.status ≠ .executed) .proposalAlreadyExecuted
  ensure (proposal.status ≠ .cancelled) .proposalCancelled

@[simp] theorem ensureOpen_ok : ensureOpen proposal = .ok u ↔ proposal.status ≠ .executed ∧ proposal.status ≠ .cancelled := by
  simp [ensureOpen]

def cancel (env : Env) (s : Storage) (caller : Address) (id : Nat) : Outcome Storage := do
  requireAuth env caller
  let _ ← requireGov s
  let proposal ← okOr (getGovProposal s id) .proposalNotFound
  ensureOpen proposal
  ensure (proposal.proposer = caller ∨ (verifyAdmin s caller).toBool = true) .adminOnly
  .ok (setGovProposal s {proposal with status := .cancelled})

def emergencyExecute (env : Env) (s : Storage) (guardian : Address) (id : Nat) : Outcome Storage := do
  requireAuth env guardian
  let config ← requireGov s
  ensure (guardian = config.guardian) .guardianOnly
  let proposal ← okOr (getGovProposal s id) .proposalNotFound
  ensureOpen proposal
  applyAction (setGovProposal s {proposal with status := .executed}) proposal.action

theorem cancel_parts {id : Nat} (ran : cancel env s caller id = .ok next) : ∃ p,
    getGovProposal s id = some p ∧ p.status ≠ .executed ∧ p.status ≠ .cancelled ∧
    next = setGovProposal s {p with status := .cancelled} := by
  simp only [cancel,bind_ok,someOr_ok,ensureOpen_ok,ok.injEq] at ran
  obtain ⟨_,_,_,_,p,got,_,live,_,_,rfl⟩ := ran
  exact ⟨p,got,live.1,live.2,rfl⟩

theorem emergencyExecute_parts {id : Nat} (ran : emergencyExecute env s guardian id = .ok next) : ∃ p,
    getGovProposal s id = some p ∧ p.status ≠ .executed ∧ p.status ≠ .cancelled ∧
    applyAction (setGovProposal s {p with status := .executed}) p.action = .ok next := by
  simp only [emergencyExecute,bind_ok,someOr_ok,ensureOpen_ok] at ran
  obtain ⟨_,_,_,_,_,_,p,got,_,live,applied⟩ := ran
  exact ⟨p,got,live.1,live.2,applied⟩

def getProposal (env : Env) (s : Storage) (id : Nat) : Outcome (Option GovernanceProposal) :=
  match getGovProposal s id with
  | none => .ok none
  | some proposal =>
    if proposal.status = .active then
      match getGovConfig s with
      | some config => do
        let proposal ← resolveProposal env proposal config
        .ok (some proposal)
      | none => .ok (some proposal)
    else .ok (some proposal)

inductive Call where
  | initializeGovernance (admin : Address) (config : GovernanceConfig)
  | propose (proposer : Address) (action : ProposalAction) (description : Str)
  | vote (voter : Address) (id : Nat) (support : Bool)
  | queue (id : Nat)
  | execute (id : Nat)
  | cancel (caller : Address) (id : Nat)
  | emergencyExecute (guardian : Address) (id : Nat)
  deriving DecidableEq

def step (s : Storage) : Env × Call → Outcome Storage
  | (env,.initializeGovernance admin config) => initializeGovernance env s admin config
  | (env,.propose proposer action description) => do
    let (_,next) ← propose env s proposer action description
    .ok next
  | (env,.vote voter id support) => vote env s voter id support
  | (env,.queue id) => queue env s id
  | (env,.execute id) => execute env s id
  | (env,.cancel caller id) => cancel env s caller id
  | (env,.emergencyExecute guardian id) => emergencyExecute env s guardian id

def Writes (s : Storage) : Call → DataKey → Prop
  | .initializeGovernance _ _,k => k = .admin ∨ k = .governanceConfig
  | .propose _ _ _,k => k = .governanceProposalCount ∨ k = .governanceProposal (getProposalCount s + 1)
  | .vote voter id _,k => k = .vote id voter ∨ k = .governanceProposal id
  | .queue id,k | .cancel _ id,k => k = .governanceProposal id
  | .execute id,k | .emergencyExecute _ id,k =>
    k = .governanceProposal id ∨ ∃ p, getGovProposal s id = some p ∧ Touches p.action k

theorem apply_frame (ran : applyAction (setGovProposal s q) action = .ok next) (own : q.id = target)
    (other : k ≠ .governanceProposal target) (outside : ¬ Touches action k) : next.get k = s.get k := by
  rw [applyAction_get ran outside]
  exact get_set_ne (own ▸ other)

-- Stored under another id, a proposal would be written back elsewhere than its call says.
theorem step_frame_of (own : ∀ id p, getGovProposal s id = some p → k ≠ .governanceProposal id →
    k ≠ .governanceProposal p.id) (ran : step s (env,call) = .ok next) (out : ¬ Writes s call k) :
    next.get k = s.get k := by
  cases call with
  | initializeGovernance =>
    simp only [Writes,not_or] at out
    simp only [step,initializeGovernance,bind_ok,ok.injEq] at ran
    obtain ⟨_,_,_,_,_,_,rfl⟩ := ran
    simp [setGovConfig,setAdmin,out.1,out.2]
  | propose =>
    simp only [Writes,not_or] at out
    simp only [step,propose,incrementProposalCount,bind_ok,addBelow_ok,ok.injEq] at ran
    obtain ⟨_,⟨_,_,_,_,_,_,_,⟨_,⟨_,rfl⟩,rfl⟩,_,_,_,_,rfl⟩,rfl⟩ := ran
    simp [setGovProposal,out.1,out.2]
  | vote _ target =>
    simp only [Writes,not_or] at out
    obtain ⟨_,p,_,has,_,_,_,rfl⟩ := vote_parts ran
    have other := own target p has out.2
    simp [setGovProposal,recordVote,counted_id,out.1,other]
  | queue target =>
    obtain ⟨_,p,_,_,has,resolved,_,rfl⟩ := queue_parts ran
    apply get_set_ne
    rw [(resolution_same resolved).1]
    exact own target p has out
  | execute target =>
    simp only [Writes,not_or,not_exists,not_and] at out
    obtain ⟨_,p,q,_,has,resolved,_,_,applied⟩ := execute_parts ran
    obtain ⟨sameId,sameAction,_⟩ := resolution_same resolved
    rw [sameAction] at applied
    exact apply_frame applied sameId (own target p has out.1) (out.2 p has)
  | cancel _ target =>
    obtain ⟨p,has,_,_,rfl⟩ := cancel_parts ran
    exact get_set_ne (own target p has out)
  | emergencyExecute _ target =>
    simp only [Writes,not_or,not_exists,not_and] at out
    obtain ⟨p,has,_,_,applied⟩ := emergencyExecute_parts ran
    exact apply_frame applied rfl (own target p has out.1) (out.2 p has)

theorem step_frame (keyed : ∀ id p, getGovProposal s id = some p → p.id = id)
    (ran : step s (env,call) = .ok next) (out : ¬ Writes s call k) : next.get k = s.get k := by
  refine step_frame_of ?_ ran out
  intro id p has other
  rw [keyed id p has]
  exact other

end StellarPriceOracle.Governance
