import StellarPriceOracle.Types
import StellarPriceOracle.Library.JsNumber
import Mathlib.Data.Finset.Card

namespace StellarPriceOracle.Rehearsal
open Guarded
open Double

-- transparency/rehearsal.ts. Its numbers are doubles, its votes are bigints.
inductive RehearsalErrorCode where
  | proposalNotFound | votingNotActive | alreadyVoted | insufficientVotingPower | proposalDefeated
  | timeLockNotElapsed | guardianOnly | adminOnly | proposalAlreadyExecuted | proposalCancelled
  deriving DecidableEq

structure SimulatedProposal where
  id : Nat
  proposer : Address
  action : ProposalAction
  description : Str
  (votesFor votesAgainst : Int)
  voterSet : Finset Address
  (votingStart votingEnd executionTime : Nat)
  storedStatus : ProposalStatus

structure RehearsalSimulationConfig where
  (votingPeriodSeconds timelockDelaySeconds : Nat)
  (quorum proposalThreshold : Int)
  (guardian admin : Address)
  balances : Address → Option Int
  nowMs : Option Nat

structure GovernanceSimulation where
  (clockMs proposalCount : Nat)
  proposals : KeyedStore Nat (fun _ => SimulatedProposal)

abbrev Result := Except RehearsalErrorCode

section
variable (config : RehearsalSimulationConfig)

def start : GovernanceSimulation :=
  ⟨config.nowMs.getD 1767225600000,0,KeyedStore.empty⟩

-- For a safe clockMs the floor is that of the exact quotient.
def nowSeconds (sim : GovernanceSimulation) : Nat := sim.clockMs / 1000

def advance (sim : GovernanceSimulation) (seconds : Nat) : GovernanceSimulation :=
  {sim with clockMs := add sim.clockMs (mul seconds 1000)}

def powerOf (account : Address) : Int := (config.balances account).getD 0

def store (sim : GovernanceSimulation) (id : Nat) (proposal : SimulatedProposal) : GovernanceSimulation :=
  {sim with proposals := sim.proposals.set id proposal}

def propose (sim : GovernanceSimulation) (proposer : Address)
    (action : ProposalAction) (description : Str) : Result (Nat × GovernanceSimulation) := do
  require (¬ powerOf config proposer < config.proposalThreshold) .insufficientVotingPower
  let id := add sim.proposalCount 1
  let now := nowSeconds sim
  let votingEnd := add now config.votingPeriodSeconds
  .ok (id,store {sim with proposalCount := id} id
    ⟨id,proposer,action,description,0,0,∅,now,votingEnd,add votingEnd config.timelockDelaySeconds,.active⟩)

def addVotes (proposal : SimulatedProposal) (voter : Address) (support : Bool) (power : Int) : SimulatedProposal :=
  if support then {proposal with votesFor := proposal.votesFor + power, voterSet := insert voter proposal.voterSet}
  else {proposal with votesAgainst := proposal.votesAgainst + power, voterSet := insert voter proposal.voterSet}

def vote (sim : GovernanceSimulation) (voter : Address) (proposalId : Nat) (support : Bool) : Result GovernanceSimulation := do
  let proposal ← someOr (sim.proposals.get proposalId) .proposalNotFound
  let now := nowSeconds sim
  require (¬ (proposal.storedStatus ≠ .active ∨ now < proposal.votingStart ∨ proposal.votingEnd ≤ now)) .votingNotActive
  require (¬ voter ∈ proposal.voterSet) .alreadyVoted
  .ok (store sim proposalId (addVotes proposal voter support (powerOf config voter)))

def resolvedStatus (now : Nat) (proposal : SimulatedProposal) : ProposalStatus :=
  if proposal.storedStatus ≠ .active then proposal.storedStatus
  else if now < proposal.votingEnd then .active
  else if config.quorum ≤ proposal.votesFor + proposal.votesAgainst ∧ proposal.votesAgainst < proposal.votesFor then
    .queued
  else .defeated

section
variable (sim : GovernanceSimulation)

def queue (proposalId : Nat) : Result (ProposalStatus × GovernanceSimulation) := do
  let proposal ← someOr (sim.proposals.get proposalId) .proposalNotFound
  let resolved := resolvedStatus config (nowSeconds sim) proposal
  require (resolved ≠ .defeated) .proposalDefeated
  require (resolved ≠ .executed) .proposalAlreadyExecuted
  require (resolved ≠ .cancelled) .proposalCancelled
  require (resolved ≠ .active) .votingNotActive
  let status := if resolved = .ready then .ready else .queued
  let executionTime := add proposal.votingEnd config.timelockDelaySeconds
  .ok (status,store sim proposalId {proposal with storedStatus := status, executionTime := executionTime})

def execute (proposalId : Nat) : Result GovernanceSimulation := do
  let proposal ← someOr (sim.proposals.get proposalId) .proposalNotFound
  let resolved := resolvedStatus config (nowSeconds sim) proposal
  require (resolved ≠ .active) .votingNotActive
  require (resolved ≠ .executed) .proposalAlreadyExecuted
  require (resolved ≠ .cancelled) .proposalCancelled
  require (resolved ≠ .defeated) .proposalDefeated
  require (¬ nowSeconds sim < proposal.executionTime) .timeLockNotElapsed
  .ok (store sim proposalId {proposal with storedStatus := .executed})

def cancel (caller : Address) (proposalId : Nat) : Result GovernanceSimulation := do
  let proposal ← someOr (sim.proposals.get proposalId) .proposalNotFound
  require (proposal.storedStatus ≠ .executed) .proposalAlreadyExecuted
  require (proposal.storedStatus ≠ .cancelled) .proposalCancelled
  require (¬ (caller ≠ proposal.proposer ∧ caller ≠ config.admin)) .adminOnly
  .ok (store sim proposalId {proposal with storedStatus := .cancelled})

def emergencyExecute (guardian : Address) (proposalId : Nat) : Result GovernanceSimulation := do
  require (guardian = config.guardian) .guardianOnly
  let proposal ← someOr (sim.proposals.get proposalId) .proposalNotFound
  require (proposal.storedStatus ≠ .executed) .proposalAlreadyExecuted
  require (proposal.storedStatus ≠ .cancelled) .proposalCancelled
  .ok (store sim proposalId {proposal with storedStatus := .executed})

end

structure RehearsalProposalView where
  id : Nat
  proposer : Address
  action : ProposalAction
  description : Str
  (votesFor votesAgainst : Int)
  (votingStart votingEnd executionTime : Nat)
  status : ProposalStatus
  voters : Nat

def getProposal (sim : GovernanceSimulation) (proposalId : Nat) : Result RehearsalProposalView := do
  let proposal ← someOr (sim.proposals.get proposalId) .proposalNotFound
  .ok ⟨proposal.id,proposal.proposer,proposal.action,proposal.description,proposal.votesFor,proposal.votesAgainst,
    proposal.votingStart,proposal.votingEnd,proposal.executionTime,resolvedStatus config (nowSeconds sim) proposal,
    proposal.voterSet.card⟩

inductive Command where
  | propose (proposer : Address) (action : ProposalAction) (description : Str)
  | vote (voter : Address) (proposalId : Nat) (support : Bool)
  | queue (proposalId : Nat)
  | execute (proposalId : Nat)
  | cancel (caller : Address) (proposalId : Nat)
  | emergencyExecute (guardian : Address) (proposalId : Nat)
  | advance (seconds : Nat)
  deriving DecidableEq

def step (sim : GovernanceSimulation) : Command → Result GovernanceSimulation
  | .propose proposer action description => do
    let (_,next) ← propose config sim proposer action description
    .ok next
  | .vote voter proposalId support => vote config sim voter proposalId support
  | .queue proposalId => do
    let (_,next) ← queue config sim proposalId
    .ok next
  | .execute proposalId => execute config sim proposalId
  | .cancel caller proposalId => cancel config sim caller proposalId
  | .emergencyExecute guardian proposalId => emergencyExecute config sim guardian proposalId
  | .advance seconds => .ok (advance sim seconds)

end

end StellarPriceOracle.Rehearsal
