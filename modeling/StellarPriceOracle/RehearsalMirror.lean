import StellarPriceOracle.Rehearsal
import StellarPriceOracle.Governance
import StellarPriceOracle.Library.Lockstep
import StellarPriceOracle.Library.TokenSupply

namespace StellarPriceOracle.RehearsalMirror
open Guarded Storage Lockstep TokenSupply
open KeyedStore (empty get_set_ne get_set)
open List (map_cons sum_cons)
open Finset (mem_filter mem_insert mem_range range)
open Governance (Ballot Call Touches applyAction ensureOpen initializeGovernance)
open Rehearsal
open Double
open Answers

variable {id : Nat} {supply : Int}

def oracleError : RehearsalErrorCode → OracleError
  | .proposalNotFound => .proposalNotFound
  | .votingNotActive => .votingNotActive
  | .alreadyVoted => .alreadyVoted
  | .insufficientVotingPower => .insufficientVotingPower
  | .proposalDefeated => .proposalDefeated
  | .timeLockNotElapsed => .timeLockNotElapsed
  | .guardianOnly => .guardianOnly
  | .adminOnly => .adminOnly
  | .proposalAlreadyExecuted => .proposalAlreadyExecuted
  | .proposalCancelled => .proposalCancelled

def SameName (code : RehearsalErrorCode) (failure : Failure) : Prop := failure = .code (oracleError code)

-- Fixed on both sides: configuration and balances agree, and accounts sign their own calls.
structure Setting (supply : Int) where
  env : Env
  admin : Address
  config : GovernanceConfig
  token : Token Address supply
  rehearsal : RehearsalSimulationConfig
  bounded : supply < 2^127
  signed : ∀ account, env.authorized account = true
  held : ∀ account, env.balance config.token account = token.balance account
  power : ∀ account, powerOf rehearsal account = token.balance account
  period : rehearsal.votingPeriodSeconds = config.votingPeriod
  delay : rehearsal.timelockDelaySeconds = config.timelockDelay
  quorum : rehearsal.quorum = config.quorum
  threshold : rehearsal.proposalThreshold = config.proposalThreshold
  guardian : rehearsal.guardian = config.guardian
  owner : rehearsal.admin = admin

section
variable (setting : Setting supply)

def Setting.view (now : Nat) : Env := {setting.env with timestamp := now}

structure Chain where
  storage : Storage
  timestamp : Nat

def invoke (chain : Chain) (call : Call) : Outcome Chain := do
  let storage ← Governance.step chain.storage (setting.view chain.timestamp,call)
  .ok {chain with storage := storage}

def chainStep (chain : Chain) : Command → Outcome Chain
  | .propose proposer action description => invoke setting chain (.propose proposer action description)
  | .vote voter id support => invoke setting chain (.vote voter id support)
  | .queue id => invoke setting chain (.queue id)
  | .execute id => invoke setting chain (.execute id)
  | .cancel caller id => invoke setting chain (.cancel caller id)
  | .emergencyExecute guardian id => invoke setting chain (.emergencyExecute guardian id)
  | .advance seconds => .ok {chain with timestamp := chain.timestamp + seconds}

@[simp] def chainStart : Chain :=
  ⟨setGovConfig (setAdmin empty setting.admin) setting.config,nowSeconds (start setting.rehearsal)⟩

end

theorem initialize_starts (ran : initializeGovernance env empty setting.admin setting.config = .ok s) :
    (chainStart setting).storage = s := by
  simp only [initializeGovernance,bind_ok,Except.ok.injEq] at ran
  obtain ⟨_,_,_,_,_,_,same⟩ := ran
  exact same

structure Report where
  (votesFor votesAgainst : Int)
  (votingEnd executionTime : Nat)
  status : ProposalStatus
  deriving DecidableEq

def viewed (v : RehearsalProposalView) : Report := ⟨v.votesFor,v.votesAgainst,v.votingEnd,v.executionTime,v.status⟩

def reported (p : GovernanceProposal) : Report := ⟨p.votesFor,p.votesAgainst,p.votingEnd,p.executionTime,p.status⟩

def SameReports (setting : Setting supply) (sim : GovernanceSimulation) (chain : Chain) : Prop :=
  ∀ id, (Governance.getProposal (setting.view chain.timestamp) chain.storage id).map (Option.map reported) =
    .ok ((getProposal setting.rehearsal sim id).toOption.map viewed)

def Mirrored (setting : Setting supply) (commands : List Command) : Prop :=
  List.Forall₂ (Agrees SameName (SameReports setting))
    (attempts (step setting.rehearsal) (start setting.rehearsal) commands)
    (attempts (chainStep setting) (chainStart setting) commands)

def Ordinary : ProposalAction → Prop
  | .setAdmin _ | .transferAdmin _ | .updateGovernanceConfig _ => False
  | _ => True

def Admitted : Command → Prop
  | .propose _ action _ => Ordinary action
  | _ => True

def proposed : Command → Nat
  | .propose _ _ _ => 1
  | _ => 0

def seconds : Command → Nat
  | .advance seconds => seconds
  | _ => 0

def clockAfter (sim : GovernanceSimulation) (commands : List Command) : Nat :=
  sim.clockMs + (commands.map seconds).sum * 1000

-- The proposal counter does not overflow, and the engine computes with safe integers.
structure Fits (setting : Setting supply) (commands : List Command) (sim : GovernanceSimulation) : Prop where
  admitted : ∀ command ∈ commands, Admitted command
  proposals : sim.proposalCount + (commands.map proposed).sum < 2^32
  clock : clockAfter sim commands < 2^53
  deadlines : clockAfter sim commands / 1000 + setting.config.votingPeriod + setting.config.timelockDelay < 2^53

def stored (p : SimulatedProposal) : GovernanceProposal :=
  ⟨p.id,p.proposer,p.action,p.description,p.votesFor,p.votesAgainst,p.votingStart,p.votingEnd,p.executionTime,
    p.storedStatus⟩

-- The votes are the balances of those who voted, so they never exceed the supply.
structure Sound (setting : Setting supply) (count id : Nat) (p : SimulatedProposal) : Prop where
  own : p.id = id
  positive : 0 < id
  numbered : id ≤ count
  ordinary : Ordinary p.action
  deadline : p.executionTime = p.votingEnd + setting.config.timelockDelay
  safe : p.executionTime < 2^53
  votesFor : 0 ≤ p.votesFor
  votesAgainst : 0 ≤ p.votesAgainst
  tally : p.votesFor + p.votesAgainst = ∑ voter ∈ p.voterSet, setting.token.balance voter

def executed (sim : GovernanceSimulation) : Finset Nat :=
  (range sim.proposalCount).filter
    (fun n => (sim.proposals.get (n + 1)).map SimulatedProposal.storedStatus = some .executed)

-- Sources are only added by executed proposals, one each, so their u32 counter has room.
structure Mirrors (setting : Setting supply) (sim : GovernanceSimulation) (chain : Chain) : Prop where
  clock : chain.timestamp = nowSeconds sim
  config : getGovConfig chain.storage = some setting.config
  admin : chain.storage.get .admin = some setting.admin
  count : getProposalCount chain.storage = sim.proposalCount
  same : ∀ id, getGovProposal chain.storage id = (sim.proposals.get id).map stored
  sound : ∀ id p, sim.proposals.get id = some p → Sound setting sim.proposalCount id p
  voted : ∀ id p voter, sim.proposals.get id = some p → (hasVoted chain.storage id voter = true ↔ voter ∈ p.voterSet)
  unvoted : ∀ id voter, sim.proposalCount < id → hasVoted chain.storage id voter = false
  sources : getSourceCount chain.storage ≤ (executed sim).card

theorem start_mirrors (setting : Setting supply) : Mirrors setting (start setting.rehearsal) (chainStart setting) := by
  refine ⟨rfl,?_,?_,?_,?_,?_,?_,?_,?_⟩
  · simp [getGovConfig,setGovConfig]
  · simp [setGovConfig,setAdmin]
  · simp [getProposalCount,setGovConfig,setAdmin,start]
  · intro id
    simp [getGovProposal,setGovConfig,setAdmin,start]
  · intro id p got
    simp [start] at got
  · intro id p voter got
    simp [start] at got
  · intro _ _ _
    simp [hasVoted,setGovConfig,setAdmin]
  · simp [getSourceCount,setGovConfig,setAdmin]

section Proposals
theorem Setting.tally_lt (setting : Setting supply) (voters : Finset Address) :
    ∑ voter ∈ voters, setting.token.balance voter < 2^127 :=
  Int.lt_of_le_of_lt (setting.token.sum_le voters) setting.bounded

-- Resolution only changes the status: `resolve_proposal` computes the same execution time.
theorem resolve_stored (sound : Sound setting count id p) (now : Nat) :
    Governance.resolveProposal (setting.view now) (stored p) setting.config =
      .ok (stored {p with storedStatus := resolvedStatus setting.rehearsal now p}) := by
  have total := setting.tally_lt p.voterSet
  have cast : addI128 p.votesFor p.votesAgainst = .ok (p.votesFor + p.votesAgainst) := by
    have low := sound.votesFor
    have high := sound.votesAgainst
    have tally := sound.tally
    rw [addWithin_ok]
    exact ⟨⟨by omega,by omega⟩,rfl⟩
  have later : addU64 p.votingEnd setting.config.timelockDelay = .ok p.executionTime := by
    have deadline := sound.deadline
    have safe := sound.safe
    rw [addBelow_ok]
    exact ⟨by omega,by omega⟩
  by_cases active : p.storedStatus = .active
  · by_cases closed : p.votingEnd ≤ now
    · have late : ¬ now < p.votingEnd := by omega
      by_cases won : setting.config.quorum ≤ p.votesFor + p.votesAgainst ∧ p.votesAgainst < p.votesFor
      · simp [Governance.resolveProposal,stored,Setting.view,resolvedStatus,active,closed,late,cast,later,won,
          setting.quorum,bind,Except.bind]
      · simp [Governance.resolveProposal,stored,Setting.view,resolvedStatus,active,closed,late,cast,won,
          setting.quorum,bind,Except.bind]
    · have early : now < p.votingEnd := by omega
      simp [Governance.resolveProposal,stored,Setting.view,resolvedStatus,active,closed,early]
  · simp [Governance.resolveProposal,stored,Setting.view,resolvedStatus,active]

end Proposals

section Updates
theorem Mirrors.reports (mirrors : Mirrors setting sim chain) : SameReports setting sim chain := by
  intro id
  have same := mirrors.same id
  cases got : sim.proposals.get id with
  | none =>
    rw [got] at same
    simp [Governance.getProposal,getProposal,same,got,someOr,bind,Except.bind,Except.map,Except.toOption]
  | some p =>
    rw [got] at same
    have resolved := resolve_stored (mirrors.sound id p got) chain.timestamp
    have read : Governance.getProposal (setting.view chain.timestamp) chain.storage id =
        .ok (some (stored {p with storedStatus := resolvedStatus setting.rehearsal chain.timestamp p})) := by
      by_cases active : p.storedStatus = .active
      · have opened : (stored p).status = .active := active
        simp [Governance.getProposal,same,opened,mirrors.config,resolved,bind,Except.bind]
      · have closed : (stored p).status ≠ .active := active
        simp [Governance.getProposal,same,closed,resolvedStatus,active]
    rw [read]
    simp [getProposal,got,someOr,bind,Except.bind,Except.map,Except.toOption,reported,viewed,stored,
      mirrors.clock]

theorem executed_le : (executed sim).card ≤ sim.proposalCount := by
  have bound := Finset.card_filter_le (range sim.proposalCount)
    (fun n => (sim.proposals.get (n + 1)).map SimulatedProposal.storedStatus = some .executed)
  rw [Finset.card_range] at bound
  exact bound

theorem executed_store (got : sim.proposals.get id = some p) (live : p.storedStatus ≠ .executed) (positive : 0 < id)
    (numbered : id ≤ sim.proposalCount) : (executed (store sim id q)).card =
      (executed sim).card + if q.storedStatus = .executed then 1 else 0 := by
  have other : ∀ n, n + 1 ≠ id → ((store sim id q).proposals.get (n + 1) = sim.proposals.get (n + 1)) := by
    intro n ne
    exact get_set_ne ne
  have here : (store sim id q).proposals.get id = some q := get_set
  have absent : id - 1 ∉ executed sim := by
    have back : id - 1 + 1 = id := by omega
    simp [executed,back,got,live]
  split
  · rename_i done
    rw [← Finset.card_insert_of_notMem absent]
    congr 1
    ext n
    by_cases own : n + 1 = id
    · have first : n = id - 1 := by omega
      have low : id - 1 < sim.proposalCount := by omega
      simp only [executed,mem_filter,mem_range,mem_insert,own,here]
      simp [first,done,store,low]
    · have ne : n ≠ id - 1 := by omega
      simp only [executed,mem_filter,mem_range,mem_insert,other n own]
      simp [ne,store]
  · rename_i undone
    rw [Nat.add_zero]
    congr 1
    ext n
    by_cases own : n + 1 = id
    · simp only [executed,mem_filter,mem_range,own,here,got]
      simp [undone,live]
    · simp only [executed,mem_filter,mem_range,other n own]
      simp [store]

theorem store_parts (held : (store sim id q).proposals.get n = some r) : n = id ∧ r = q ∨ n ≠ id ∧ sim.proposals.get n = some r := by
  rcases eq_or_ne n id with rfl | here
  · rw [store,get_set] at held
    exact Or.inl ⟨rfl,(Option.some.inj held).symm⟩
  · rw [store,get_set_ne here] at held
    exact Or.inr ⟨here,held⟩

-- One proposal is written anew; its execution may add a source.
structure Rewrites (s next : Storage) (id : Nat) (q : SimulatedProposal) : Prop where
  config : getGovConfig next = getGovConfig s
  admin : next.get .admin = s.get .admin
  count : getProposalCount next = getProposalCount s
  written : getGovProposal next id = some (stored q)
  others : ∀ n, n ≠ id → getGovProposal next n = getGovProposal s n
  voted : ∀ voter, hasVoted next id voter = true ↔ voter ∈ q.voterSet
  elsewhere : ∀ n voter, n ≠ id → hasVoted next n voter = hasVoted s n voter
  sources : getSourceCount next ≤ getSourceCount s + if q.storedStatus = .executed then 1 else 0

theorem set_rewrites (base : ∀ k, (∀ voter, k ≠ .vote id voter) → middle.get k = s.get k) (own : q.id = id)
    (voted : ∀ voter, hasVoted middle id voter = true ↔ voter ∈ q.voterSet) :
    Rewrites s (setGovProposal middle (stored q)) id q := by
  have key : (stored q).id = id := own
  have frame : ∀ k, k ≠ .governanceProposal id → (∀ voter, k ≠ .vote id voter) →
      (setGovProposal middle (stored q)).get k = s.get k := by
    intro k other unvoted
    rw [← base k unvoted]
    exact get_set_ne (key ▸ other)
  have count : getSourceCount (setGovProposal middle (stored q)) = getSourceCount s := by
    rw [getSourceCount,frame _ (by simp) (by simp),getSourceCount]
  refine ⟨?_,?_,?_,?_,?_,?_,?_,?_⟩
  · exact frame _ (by simp) (by simp)
  · exact frame _ (by simp) (by simp)
  · rw [getProposalCount,frame _ (by simp) (by simp),getProposalCount]
  · rw [setGovProposal_read,key,if_pos rfl]
  · intro n ne
    exact frame _ (by simpa using ne) (by simp)
  · intro voter
    rw [← voted voter]
    simp [hasVoted,setGovProposal]
  · intro n _ ne
    rw [hasVoted,frame _ (by simp) (by simp [ne]),hasVoted]
  · rw [count]
    exact Nat.le_add_right _ _

theorem Mirrors.update (mirrors : Mirrors setting sim chain) (got : sim.proposals.get id = some p)
    (live : p.storedStatus ≠ .executed) (sound : Sound setting sim.proposalCount id q)
    (rewrites : Rewrites chain.storage next id q) :
    Mirrors setting (store sim id q) {chain with storage := next} := by
  refine ⟨mirrors.clock,?_,?_,?_,?_,?_,?_,?_,?_⟩
  · exact rewrites.config.trans mirrors.config
  · exact rewrites.admin.trans mirrors.admin
  · exact rewrites.count.trans mirrors.count
  · intro n
    rcases eq_or_ne n id with rfl | here
    · simpa [store] using rewrites.written
    · simpa [store,here] using (rewrites.others n here).trans (mirrors.same n)
  · intro n r held
    rcases store_parts held with ⟨rfl,rfl⟩ | ⟨_,old⟩
    · exact sound
    · exact mirrors.sound n r old
  · intro n r voter held
    rcases store_parts held with ⟨rfl,rfl⟩ | ⟨other,old⟩
    · exact rewrites.voted voter
    · rw [rewrites.elsewhere n voter other]
      exact mirrors.voted n r voter old
  · intro n voter high
    have other : n ≠ id := by
      have low := sound.numbered
      simp only [store] at high
      omega
    rw [rewrites.elsewhere n voter other]
    exact mirrors.unvoted n voter high
  · rw [executed_store got live sound.positive sound.numbered]
    exact rewrites.sources.trans (Nat.add_le_add_right mirrors.sources _)

end Updates

section Actions
theorem addSource_total (room : getSourceCount s + 1 < 2^32) :
    ∃ next, addSource s source name = .ok next ∧ getSourceCount next ≤ getSourceCount s + 1 := by
  by_cases mem : isAuthorizedSource s source = true
  · refine ⟨s.set (.source source) true,by simp [addSource,mem],?_⟩
    simp [getSourceCount]
  · have added : addU32 (getSourceCount ((s.set (.source source) true).set (.sourceName source) name)) 1 =
        .ok (getSourceCount s + 1) := by
      rw [addBelow_ok]
      simpa [getSourceCount] using room
    refine ⟨((s.set (.source source) true).set (.sourceName source) name).set .sourceCount (getSourceCount s + 1),?_,?_⟩
    · simp [addSource,mem,added,bind,Except.bind]
    · simp [getSourceCount]

theorem removeSource_count : getSourceCount (removeSource s source) ≤ getSourceCount s := by
  unfold removeSource
  split
  · dsimp only
    split <;> simp [getSourceCount]
  · exact Nat.le_refl _

theorem applyAction_total (room : getSourceCount s + 1 < 2^32) :
    ∃ next, applyAction s action = .ok next ∧ getSourceCount next ≤ getSourceCount s + 1 := by
  cases action with
  | addSource source name | addOracleSource source name => exact addSource_total room
  | removeSource source | removeOracleSource source =>
    exact ⟨_,rfl,Nat.le_succ_of_le removeSource_count⟩
  | setAdmin newAdmin | transferAdmin newAdmin =>
    refine ⟨_,rfl,?_⟩
    simp [getSourceCount,setAdmin]
  | setTrustedAsset =>
    refine ⟨_,rfl,?_⟩
    simp [getSourceCount,setTrustedAsset]
  | updateGovernanceConfig =>
    refine ⟨_,rfl,?_⟩
    simp [getSourceCount,setGovConfig]
  | _ => exact ⟨s,rfl,Nat.le_succ _⟩

theorem ordinary_admin (ordinary : Ordinary action) : ¬ Touches action .admin := by
  cases action <;> simp_all [Ordinary,Touches]

theorem ordinary_config (ordinary : Ordinary action) : ¬ Touches action .governanceConfig := by
  cases action <;> simp_all [Ordinary,Touches]

theorem Rewrites.apply (rewrites : Rewrites s middle id q) (ordinary : Ordinary action)
    (applied : applyAction middle action = .ok next)
    (sources : getSourceCount next ≤ getSourceCount s + if q.storedStatus = .executed then 1 else 0) :
    Rewrites s next id q := by
  have frame : ∀ k, ¬ Touches action k → next.get k = middle.get k :=
    fun k out => Governance.applyAction_get applied out
  have proposals : ∀ n, getGovProposal next n = getGovProposal middle n :=
    fun n => frame _ (Ballot.untouched (Or.inl ⟨n,rfl⟩))
  have votes : ∀ n voter, hasVoted next n voter = hasVoted middle n voter := by
    intro n voter
    rw [hasVoted,frame _ Governance.touches_vote,hasVoted]
  refine ⟨?_,?_,?_,?_,?_,?_,?_,sources⟩
  · exact (frame _ (ordinary_config ordinary)).trans rewrites.config
  · exact (frame _ (ordinary_admin ordinary)).trans rewrites.admin
  · rw [← rewrites.count,getProposalCount,frame _ Governance.touches_count,getProposalCount]
  · exact (proposals id).trans rewrites.written
  · intro n other
    exact (proposals n).trans (rewrites.others n other)
  · intro voter
    rw [votes]
    exact rewrites.voted voter
  · intro n voter other
    rw [votes]
    exact rewrites.elsewhere n voter other

-- The engine marks the proposal, the contract marks it and applies its action.
theorem Mirrors.applied (mirrors : Mirrors setting sim chain) (small : sim.proposalCount < 2^32)
    (got : sim.proposals.get id = some p) (live : p.storedStatus ≠ .executed)
    (sound : Sound setting sim.proposalCount id q) (done : q.storedStatus = .executed) (voters : q.voterSet = p.voterSet) :
    ∃ next, applyAction (setGovProposal chain.storage (stored q)) q.action = .ok next ∧
      Mirrors setting (store sim id q) {chain with storage := next} := by
  have more := executed_store (q := q) got live sound.positive sound.numbered
  have most : (executed (store sim id q)).card ≤ sim.proposalCount := executed_le
  have few := mirrors.sources
  have same : getSourceCount (setGovProposal chain.storage (stored q)) = getSourceCount chain.storage := by
    simp [getSourceCount,setGovProposal]
  have room : getSourceCount (setGovProposal chain.storage (stored q)) + 1 < 2^32 := by
    rw [if_pos done] at more
    omega
  obtain ⟨next,applied,_⟩ := applyAction_total room
  refine ⟨next,applied,mirrors.update got live sound ?_⟩
  have set := set_rewrites (fun _ _ => rfl) sound.own (fun voter => voters ▸ mirrors.voted id p voter got)
  apply set.apply sound.ordinary applied
  rw [if_pos done]
  omega

end Actions

section Steps

theorem Fits.later (fits : Fits setting (command :: rest) sim) (count : next.proposalCount ≤ sim.proposalCount + proposed command)
    (clock : next.clockMs ≤ sim.clockMs + seconds command * 1000) : Fits setting rest next := by
  obtain ⟨admitted,proposals,_⟩ := fits
  have sooner : clockAfter next rest ≤ clockAfter sim (command :: rest) := by
    simp only [clockAfter,map_cons,sum_cons]
    omega
  simp only [map_cons,sum_cons] at proposals
  refine ⟨?_,by omega,by omega,?_⟩
  · intro c mem
    exact admitted c (List.mem_cons_of_mem _ mem)
  · have bound := Nat.div_le_div_right (c := 1000) sooner
    omega

theorem Fits.quiet (fits : Fits setting (command :: rest) sim) (count : next.proposalCount = sim.proposalCount)
    (clock : next.clockMs = sim.clockMs) : Fits setting rest next := by
  apply fits.later
  · rw [count]
    exact Nat.le_add_right _ _
  · rw [clock]
    exact Nat.le_add_right _ _

theorem Fits.count_lt (fits : Fits setting rest sim) : sim.proposalCount < 2^32 := by
  have bound := fits.proposals
  omega

structure Follows (setting : Setting supply) (rest : List Command) (sim : GovernanceSimulation) (chain : Chain) : Prop where
  fits : Fits setting rest sim
  mirrors : Mirrors setting sim chain

theorem invoke_answers (answered : Answers SameName (fun next s => R next {chain with storage := s}) x
      (Governance.step chain.storage (setting.view chain.timestamp,call))) :
    Answers SameName R x (invoke setting chain call) := by
  unfold invoke
  generalize Governance.step chain.storage (setting.view chain.timestamp,call) = y at answered ⊢
  cases answered with
  | done related => exact .done related
  | failed named => exact .failed named

theorem Setting.authorizes (setting : Setting supply) (now : Nat) (account : Address) :
    requireAuth (setting.view now) account = .ok () := requireAuth_ok.mpr (setting.signed account)

theorem Mirrors.requireGov (mirrors : Mirrors setting sim chain) :
    Governance.requireGov chain.storage = .ok setting.config := someOr_ok.mpr mirrors.config

theorem Setting.votingPower (setting : Setting supply) (now : Nat) (account : Address) :
    Governance.votingPower (setting.view now) setting.config account = powerOf setting.rehearsal account :=
  (setting.held account).trans (setting.power account).symm

theorem addVotes_voters : (addVotes p voter support power).voterSet = insert voter p.voterSet := by
  cases support <;> rfl

theorem Sound.vote (sound : Sound setting count id p) (fresh : voter ∉ p.voterSet) (support : Bool) :
    Sound setting count id (addVotes p voter support (powerOf setting.rehearsal voter)) ∧
      Governance.addVotes (stored p) support (powerOf setting.rehearsal voter) =
        .ok (stored (addVotes p voter support (powerOf setting.rehearsal voter))) := by
  have power := setting.power voter
  have positive := setting.token.nonneg voter
  have more := Finset.sum_insert (f := setting.token.balance) fresh
  have total := setting.tally_lt (insert voter p.voterSet)
  have tally := sound.tally
  have votesFor := sound.votesFor
  have votesAgainst := sound.votesAgainst
  have added : ∀ votes, 0 ≤ votes → votes ≤ p.votesFor + p.votesAgainst →
      addI128 votes (powerOf setting.rehearsal voter) = .ok (votes + powerOf setting.rehearsal voter) := by
    intro _ _ _
    rw [addWithin_ok]
    exact ⟨⟨by omega,by omega⟩,rfl⟩
  cases support with
  | true =>
    have counted := added p.votesFor votesFor (by omega)
    constructor
    · refine {sound with votesFor := ?_, tally := ?_}
      · simp only [addVotes,if_true]
        omega
      · simp only [addVotes,if_true]
        omega
    · simp [Governance.addVotes,stored,counted,addVotes,bind,Except.bind]
  | false =>
    have counted := added p.votesAgainst votesAgainst (by omega)
    constructor
    · refine {sound with votesAgainst := ?_, tally := ?_}
      · simp only [addVotes,Bool.false_eq_true,if_false]
        omega
      · simp only [addVotes,Bool.false_eq_true,if_false]
        omega
    · simp [Governance.addVotes,stored,counted,addVotes,bind,Except.bind]

theorem resolved_live (resolved : resolvedStatus config now p = status) (other : status ≠ .executed) :
    p.storedStatus ≠ .executed := by
  intro done
  apply other
  rw [← resolved]
  simp [resolvedStatus,done]

theorem verifyAdmin_toBool (owned : s.get .admin = some admin) : (verifyAdmin s caller).toBool = true ↔ admin = caller := by
  by_cases same : admin = caller <;> simp [verifyAdmin,owned,same,someOr,require,bind,Except.bind,Except.toBool]

section
variable {setting : Setting supply} {sim : GovernanceSimulation} {chain : Chain} (mirrors : Mirrors setting sim chain)
include mirrors

theorem vote_answers (fits : Fits setting (.vote voter id support :: rest) sim) :
    Answers SameName (Follows setting rest) (step setting.rehearsal sim (.vote voter id support))
      (chainStep setting chain (.vote voter id support)) := by
  apply invoke_answers
  simp only [step,Governance.step,Rehearsal.vote,Governance.vote,setting.authorizes,mirrors.requireGov,ok_bind,
    mirrors.same id,← mirrors.clock]
  apply lookup (E := SameName) rfl
  intro p got
  apply guard (E := SameName) ?_ rfl
  · intro inWindow
    apply guard (E := SameName) ?_ rfl
    · intro fresh
      obtain ⟨kept,added⟩ := (mirrors.sound id p got).vote fresh support
      rw [setting.votingPower,added,ok_bind]
      apply done
      refine ⟨fits.quiet rfl rfl,mirrors.update got ?_ kept (set_rewrites ?_ kept.own ?_)⟩
      · intro done
        rw [done] at inWindow
        exact inWindow (Or.inl (by decide))
      · intro k unvoted
        exact get_set_ne (unvoted voter)
      · intro other
        rw [addVotes_voters,mem_insert,← mirrors.voted id p other got]
        rcases eq_or_ne other voter with rfl | same
        · simp [hasVoted,recordVote]
        · simp [same,hasVoted,recordVote]
    · rw [← mirrors.voted id p voter got,Bool.not_eq_true]
  · simp [Setting.view,stored,not_or,Decidable.not_not]

theorem queue_answers (fits : Fits setting (.queue id :: rest) sim) :
    Answers SameName (Follows setting rest) (step setting.rehearsal sim (.queue id))
      (chainStep setting chain (.queue id)) := by
  apply invoke_answers
  simp only [step,Governance.step,queue,Governance.queue,mirrors.requireGov,ok_bind,mirrors.same id,
    ← mirrors.clock,bind_assoc]
  apply lookup (E := SameName) rfl
  intro p got
  have sound := mirrors.sound id p got
  have again : add p.votingEnd setting.rehearsal.timelockDelaySeconds = p.executionTime := by
    rw [setting.delay,sound.deadline]
    exact add_safe (sound.deadline ▸ sound.safe)
  have queued : ∀ status, p.storedStatus ≠ .executed →
      Follows setting rest (store sim id {p with storedStatus := status})
        ⟨setGovProposal chain.storage (stored {p with storedStatus := status}),chain.timestamp⟩ := by
    intro _ live
    refine ⟨fits.quiet rfl rfl,mirrors.update got live {sound with} (set_rewrites (fun _ _ => rfl) sound.own ?_)⟩
    exact fun voter => mirrors.voted id p voter got
  simp only [resolve_stored sound,ok_bind,again]
  cases resolved : resolvedStatus setting.rehearsal chain.timestamp p with
  | queued => exact .done (queued .queued (resolved_live resolved (by decide)))
  | ready => exact .done (queued .ready (resolved_live resolved (by decide)))
  | active | executed | cancelled | defeated => exact .failed rfl

theorem execute_answers (fits : Fits setting (.execute id :: rest) sim) :
    Answers SameName (Follows setting rest) (step setting.rehearsal sim (.execute id))
      (chainStep setting chain (.execute id)) := by
  apply invoke_answers
  simp only [step,Governance.step,execute,Governance.execute,mirrors.requireGov,ok_bind,mirrors.same id,
    ← mirrors.clock]
  apply lookup (E := SameName) rfl
  intro p got
  have sound := mirrors.sound id p got
  have kept : Sound setting sim.proposalCount id {p with storedStatus := .executed} := {sound with}
  have timed : p.storedStatus ≠ .executed → Answers SameName
      (fun next s => Follows setting rest next {chain with storage := s})
      (require (¬ chain.timestamp < p.executionTime) .timeLockNotElapsed >>= fun _ =>
        .ok (store sim id {p with storedStatus := .executed}))
      (ensure (p.executionTime ≤ chain.timestamp) .timeLockNotElapsed >>= fun _ =>
        applyAction (setGovProposal chain.storage (stored {p with storedStatus := .executed})) p.action) := by
    intro live
    apply guard (E := SameName) Nat.not_lt rfl
    intro _
    obtain ⟨next,applied,followed⟩ := mirrors.applied fits.count_lt got live kept rfl rfl
    rw [applied]
    exact .done ⟨fits.quiet rfl rfl,followed⟩
  simp only [resolve_stored sound,ok_bind]
  -- The two sides test the statuses in different orders; each status fails one test.
  cases resolved : resolvedStatus setting.rehearsal chain.timestamp p with
  | queued | ready => exact timed (resolved_live resolved (by decide))
  | active | executed | cancelled | defeated => exact .failed rfl

theorem cancel_answers (fits : Fits setting (.cancel caller id :: rest) sim) :
    Answers SameName (Follows setting rest) (step setting.rehearsal sim (.cancel caller id))
      (chainStep setting chain (.cancel caller id)) := by
  apply invoke_answers
  simp only [step,Governance.step,cancel,Governance.cancel,setting.authorizes,mirrors.requireGov,ok_bind,
    mirrors.same id,ensureOpen,bind_assoc]
  apply lookup (E := SameName) rfl
  intro p got
  have sound := mirrors.sound id p got
  apply guard (E := SameName) Iff.rfl rfl
  intro live
  apply guard (E := SameName) Iff.rfl rfl
  intro _
  apply guard (E := SameName) ?_ rfl
  · intro _
    have kept : Sound setting sim.proposalCount id {p with storedStatus := .cancelled} := {sound with}
    have set := set_rewrites (fun _ _ => rfl) kept.own (fun voter => mirrors.voted id p voter got)
    exact .done ⟨fits.quiet rfl rfl,mirrors.update got live kept set⟩
  · rw [verifyAdmin_toBool mirrors.admin,setting.owner,not_and_or,Decidable.not_not,Decidable.not_not]
    exact or_congr eq_comm eq_comm

theorem emergency_answers (fits : Fits setting (.emergencyExecute guardian id :: rest) sim) :
    Answers SameName (Follows setting rest) (step setting.rehearsal sim (.emergencyExecute guardian id))
      (chainStep setting chain (.emergencyExecute guardian id)) := by
  apply invoke_answers
  simp only [step,Governance.step,emergencyExecute,Governance.emergencyExecute,setting.authorizes,
    mirrors.requireGov,ok_bind,mirrors.same id,ensureOpen,bind_assoc,setting.guardian]
  apply guard (E := SameName) Iff.rfl rfl
  intro _
  apply lookup (E := SameName) rfl
  intro p got
  have sound := mirrors.sound id p got
  apply guard (E := SameName) Iff.rfl rfl
  intro live
  apply guard (E := SameName) Iff.rfl rfl
  intro _
  have kept : Sound setting sim.proposalCount id {p with storedStatus := .executed} := {sound with}
  obtain ⟨next,applied,followed⟩ := mirrors.applied fits.count_lt got live kept rfl rfl
  have same : applyAction (setGovProposal chain.storage {stored p with status := .executed}) (stored p).action =
      .ok next := applied
  rw [same]
  exact .done ⟨fits.quiet rfl rfl,followed⟩

theorem Mirrors.create (sound : Sound setting (sim.proposalCount + 1) (sim.proposalCount + 1) q)
    (unvoted : q.voterSet = ∅) :
    Mirrors setting (store {sim with proposalCount := sim.proposalCount + 1} (sim.proposalCount + 1) q)
      {chain with storage :=
        setGovProposal (chain.storage.set .governanceProposalCount (sim.proposalCount + 1)) (stored q)} := by
  have key : (stored q).id = sim.proposalCount + 1 := sound.own
  have frame : ∀ k, k ≠ .governanceProposalCount → k ≠ .governanceProposal (sim.proposalCount + 1) →
      (setGovProposal (chain.storage.set .governanceProposalCount (sim.proposalCount + 1)) (stored q)).get k =
        chain.storage.get k := by
    intro k counter other
    rw [setGovProposal,get_set_ne (key ▸ other),get_set_ne counter]
  have votes : ∀ n voter, hasVoted (setGovProposal (chain.storage.set .governanceProposalCount (sim.proposalCount + 1))
      (stored q)) n voter = hasVoted chain.storage n voter := by
    intro n voter
    rw [hasVoted,frame _ (by simp) (by simp),hasVoted]
  refine ⟨mirrors.clock,?_,?_,?_,?_,?_,?_,?_,?_⟩
  · exact (frame _ (by simp) (by simp)).trans mirrors.config
  · exact (frame _ (by simp) (by simp)).trans mirrors.admin
  · simp [getProposalCount,setGovProposal,store]
  · intro n
    rw [setGovProposal_read,key]
    by_cases here : n = sim.proposalCount + 1
    · simp [here,store]
    · simpa [here,store,getGovProposal] using mirrors.same n
  · intro n r held
    rcases store_parts held with ⟨rfl,rfl⟩ | ⟨_,old⟩
    · exact sound
    · have before := mirrors.sound n r old
      exact {before with numbered := Nat.le_succ_of_le before.numbered}
  · intro n r voter held
    rw [votes]
    rcases store_parts held with ⟨rfl,rfl⟩ | ⟨_,old⟩
    · rw [unvoted,mirrors.unvoted _ voter (Nat.lt_succ_self _)]
      simp
    · exact mirrors.voted n r voter old
  · intro n voter high
    rw [votes]
    exact mirrors.unvoted n voter (Nat.lt_of_succ_lt high)
  · have sources : getSourceCount (setGovProposal (chain.storage.set .governanceProposalCount (sim.proposalCount + 1))
        (stored q)) = getSourceCount chain.storage := by
      rw [getSourceCount,frame _ (by simp) (by simp),getSourceCount]
    rw [sources]
    apply mirrors.sources.trans
    apply Finset.card_le_card
    intro n old
    simp only [executed,mem_filter,mem_range] at old ⊢
    have other : n + 1 ≠ sim.proposalCount + 1 := by omega
    refine ⟨?_,?_⟩
    · simp only [store]
      omega
    · rw [store,get_set_ne other]
      exact old.2

theorem propose_answers (fits : Fits setting (.propose proposer action description :: rest) sim) :
    Answers SameName (Follows setting rest) (step setting.rehearsal sim (.propose proposer action description))
      (chainStep setting chain (.propose proposer action description)) := by
  have deadlines : chain.timestamp + setting.config.votingPeriod + setting.config.timelockDelay < 2^53 := by
    have soon : nowSeconds sim ≤ clockAfter sim (.propose proposer action description :: rest) / 1000 :=
      Nat.div_le_div_right (Nat.le_add_right _ _)
    have bound := fits.deadlines
    rw [mirrors.clock]
    omega
  have room : sim.proposalCount + 1 < 2^32 := by
    have bound := fits.proposals
    simp only [map_cons,sum_cons,proposed] at bound
    omega
  have number : add sim.proposalCount 1 = sim.proposalCount + 1 := add_safe (by omega)
  have votingEnd : add chain.timestamp setting.config.votingPeriod =
      chain.timestamp + setting.config.votingPeriod := add_safe (by omega)
  have executionTime : add (chain.timestamp + setting.config.votingPeriod) setting.config.timelockDelay =
      chain.timestamp + setting.config.votingPeriod + setting.config.timelockDelay := add_safe deadlines
  have counted : incrementProposalCount chain.storage =
      .ok (sim.proposalCount + 1,chain.storage.set .governanceProposalCount (sim.proposalCount + 1)) := by
    have added : addU32 sim.proposalCount 1 = .ok (sim.proposalCount + 1) := addBelow_ok.mpr ⟨room,rfl⟩
    rw [incrementProposalCount,mirrors.count,added]
    rfl
  have ends : addU64 chain.timestamp setting.config.votingPeriod =
      .ok (chain.timestamp + setting.config.votingPeriod) := addBelow_ok.mpr ⟨by omega,rfl⟩
  have executes : addU64 (chain.timestamp + setting.config.votingPeriod) setting.config.timelockDelay =
      .ok (chain.timestamp + setting.config.votingPeriod + setting.config.timelockDelay) :=
    addBelow_ok.mpr ⟨by omega,rfl⟩
  apply invoke_answers
  simp only [step,Governance.step,propose,Governance.propose,setting.authorizes,mirrors.requireGov,ok_bind,
    setting.votingPower,bind_assoc,← mirrors.clock,number,votingEnd,executionTime,setting.period,setting.delay,
    setting.threshold]
  apply guard (E := SameName) Int.not_lt rfl
  intro _
  have timestamp : (setting.view chain.timestamp).timestamp = chain.timestamp := rfl
  simp only [counted,ok_bind,timestamp,ends,executes]
  apply done
  constructor
  · exact fits.later (Nat.le_refl _) (Nat.le_add_right _ _)
  · apply mirrors.create _ rfl
    exact {
      own := rfl
      positive := Nat.succ_pos _
      numbered := Nat.le_refl _
      ordinary := fits.admitted _ List.mem_cons_self
      deadline := rfl
      safe := deadlines
      votesFor := Int.le_refl 0
      votesAgainst := Int.le_refl 0
      tally := rfl }

theorem advance_answers (fits : Fits setting (.advance elapsed :: rest) sim) :
    Answers SameName (Follows setting rest) (step setting.rehearsal sim (.advance elapsed))
      (chainStep setting chain (.advance elapsed)) := by
  have bound : sim.clockMs + elapsed * 1000 < 2^53 := by
    apply Nat.lt_of_le_of_lt _ fits.clock
    simp only [clockAfter,map_cons,sum_cons]
    exact Nat.add_le_add_left (Nat.mul_le_mul_right 1000 (Nat.le_add_right elapsed _)) _
  have scaled : mul elapsed 1000 = elapsed * 1000 := mul_safe (by omega)
  have added : add sim.clockMs (elapsed * 1000) = sim.clockMs + elapsed * 1000 := add_safe bound
  simp only [step,chainStep,advance,scaled,added]
  apply done
  constructor
  · refine fits.later ?_ ?_
    · exact Nat.le_add_right _ _
    · simp [seconds]
  · refine {mirrors with clock := ?_}
    rw [mirrors.clock,nowSeconds,nowSeconds,Nat.add_mul_div_right _ _ (by decide)]

end

theorem step_answers (command : Command) (rest : List Command) (sim : GovernanceSimulation) (chain : Chain)
    (follows : Follows setting (command :: rest) sim chain) :
    Answers SameName (Follows setting rest) (step setting.rehearsal sim command) (chainStep setting chain command) := by
  obtain ⟨fits,mirrors⟩ := follows
  cases command with
  | propose => exact propose_answers mirrors fits
  | vote => exact vote_answers mirrors fits
  | queue => exact queue_answers mirrors fits
  | execute => exact execute_answers mirrors fits
  | cancel => exact cancel_answers mirrors fits
  | emergencyExecute => exact emergency_answers mirrors fits
  | advance => exact advance_answers mirrors fits

end Steps

theorem rehearsal_mirrors (setting : Setting supply) (commands : List Command)
    (admitted : ∀ command ∈ commands, Admitted command) (proposals : (commands.map proposed).sum < 2^32)
    (clock : clockAfter (start setting.rehearsal) commands < 2^53)
    (deadlines : clockAfter (start setting.rehearsal) commands / 1000 + setting.config.votingPeriod +
      setting.config.timelockDelay < 2^53) : Mirrored setting commands := by
  have fits : Fits setting commands (start setting.rehearsal) :=
    ⟨admitted,(Nat.zero_add _).symm ▸ proposals,clock,deadlines⟩
  apply attempts_agree (R := Follows setting)
  · intro _ _ _ follows
    exact follows.mirrors.reports
  · intro _ _ _ _ follows
    exact ⟨follows.fits.quiet rfl rfl,follows.mirrors⟩
  · exact step_answers
  · exact ⟨fits,start_mirrors setting⟩

namespace Sample

def proposer : Address := Address.repeated 80
def delegatee : Address := Address.repeated 68
def guardian : Address := Address.repeated 71
def admin : Address := Address.repeated 65

def balance (account : Address) : Int :=
  if account = proposer then 500000 else if account = delegatee then 750000 else 0

def token : Token Address 1250000 where
  balance := balance
  holders := {proposer,delegatee}
  nonneg := by
    intro account
    unfold balance
    split
    · decide
    · split <;> decide
  absent := by
    intro account outside
    simp only [mem_insert,Finset.mem_singleton,not_or] at outside
    simp [balance,outside.1,outside.2]
  total := by decide

def setting (votingPeriod timelockDelay : Nat) (nowMs : Option Nat) : Setting 1250000 where
  env := ⟨0,fun _ => true,admin,fun _ account => balance account,fun _ _ _ _ => false⟩
  admin := admin
  config := ⟨admin,votingPeriod,timelockDelay,200000,10000,guardian⟩
  token := token
  rehearsal := ⟨votingPeriod,timelockDelay,200000,10000,guardian,admin,fun account => some (balance account),nowMs⟩
  bounded := by decide
  signed := fun _ => rfl
  held := fun _ => rfl
  power := fun _ => rfl
  period := rfl
  delay := rfl
  quorum := rfl
  threshold := rfl
  guardian := rfl
  owner := rfl

def happyPath : List Command :=
  [.propose proposer (.setDeviationThreshold 500) [],.vote proposer 1 true,.vote delegatee 1 true,.execute 1,
    .advance 259201,.queue 1,.execute 1,.advance 172801,.execute 1]

end Sample

open Sample

theorem happy_path_mirrors :
    ((attempts (step (setting 259200 172800 none).rehearsal) (start (setting 259200 172800 none).rehearsal)
      happyPath).map Prod.snd =
        [none,none,none,some .votingNotActive,none,none,some .timeLockNotElapsed,none,none]) ∧
    Mirrored (setting 259200 172800 none) happyPath := by
  refine ⟨by decide +kernel,rehearsal_mirrors _ _ ?_ (by decide) (by decide) (by decide)⟩
  simp [happyPath,Admitted,Ordinary]

-- 2^53 + 1 is no double: the engine has 2^53, the contract the exact sum.
theorem long_vote_rounded :
    (Governance.initializeGovernance (setting (2^53) 0 (some 1000)).env empty admin
      (setting (2^53) 0 (some 1000)).config).toBool = true ∧
    (∀ command ∈ [Command.propose proposer (.setDeviationThreshold 500) []],Admitted command) ∧
    ¬ Mirrored (setting (2^53) 0 (some 1000)) [.propose proposer (.setDeviationThreshold 500) []] := by
  refine ⟨by decide +kernel,by simp [Admitted,Ordinary],?_⟩
  intro mirrored
  cases mirrored with
  | cons first =>
    have read := congrArg Except.toOption (first.states 1)
    revert read
    decide +kernel

end StellarPriceOracle.RehearsalMirror
