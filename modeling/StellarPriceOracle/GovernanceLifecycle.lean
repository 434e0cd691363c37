import StellarPriceOracle.Governance

namespace StellarPriceOracle.GovernanceLifecycle
open Guarded Storage Governance
open Runs (Transition Run mem_snoc)
open KeyedStore (empty)
open Except (ok)

variable {id : Nat}

abbrev Trace := List (Transition Storage (Env × Call))

@[simp] def subject : Call → Option Nat
  | .vote _ id _ | .queue id | .execute id | .cancel _ id | .emergencyExecute _ id => some id
  | _ => none

def applies : Call → Option Nat
  | .execute id | .emergencyExecute _ id => some id
  | _ => none

def cancels : Call → Option Nat
  | .cancel _ id => some id
  | _ => none

-- Ids are handed out in order. A call that finds a proposal defeated fails, so Defeated is never stored.
structure WellFormed (s : Storage) : Prop where
  keyed : ∀ id p, getGovProposal s id = some p → p.id = id
  numbered : ∀ id p, getGovProposal s id = some p → id ≤ getProposalCount s
  undefeated : ∀ id p, getGovProposal s id = some p → p.status ≠ .defeated

-- What a call that goes through does to the proposal with one id.
inductive Move (env : Env) (s : Storage) (id : Nat) : Call → Option GovernanceProposal → Prop where
  | keep : subject call ≠ some id → Move env s id call (getGovProposal s id)
  | create : getGovProposal s id = none → id = getProposalCount s + 1 → p.id = id → p.status = .active →
      p.votesFor = 0 → p.votesAgainst = 0 → Move env s id (.propose proposer action description) (some p)
  | vote : getGovProposal s id = some p → getGovConfig s = some config → p.status = .active →
      env.timestamp < p.votingEnd → hasVoted s id voter = false →
      Move env s id (.vote voter id support) (some (counted p support (votingPower env config voter)))
  | queue : getGovProposal s id = some p → getGovConfig s = some config → Resolution env config p q →
      q.status = .queued ∨ q.status = .ready → Move env s id (.queue id) (some q)
  | execute : getGovProposal s id = some p → getGovConfig s = some config → Resolution env config p q →
      q.status = .queued ∨ q.status = .ready → q.executionTime ≤ env.timestamp →
      Move env s id (.execute id) (some {q with status := .executed})
  | cancel : getGovProposal s id = some p → p.status ≠ .executed → p.status ≠ .cancelled →
      Move env s id (.cancel caller id) (some {p with status := .cancelled})
  | emergency : getGovProposal s id = some p → p.status ≠ .executed → p.status ≠ .cancelled →
      Move env s id (.emergencyExecute guardian id) (some {p with status := .executed})

theorem counted_status : (counted p support power).status = p.status := by
  cases support <;> rfl

theorem apply_read (applied : applyAction s action = .ok next) (id : Nat) :
    getGovProposal next id = getGovProposal s id := applyAction_get applied (Ballot.untouched (Or.inl ⟨id,rfl⟩))

-- A write of one proposal leaves the others as they were.
theorem moves_write (has : getGovProposal s target = some p) (valid : WellFormed s)
    (here : Move env s target call (some q)) (same : q.id = p.id) (about : subject call = some target)
    (reads : ∀ n, getGovProposal base n = getGovProposal s n) (id : Nat) :
    Move env s id call (getGovProposal (setGovProposal base q) id) := by
  rw [setGovProposal_read,same,valid.keyed target p has,reads]
  split
  · rename_i equal
    exact equal ▸ here
  · rename_i other
    refine .keep ?_
    rw [about]
    intro equal
    exact other (Option.some.inj equal).symm

theorem step_moves (valid : WellFormed s) (ran : step s (env,call) = .ok next) (id : Nat) :
    Move env s id call (getGovProposal next id) := by
  cases call with
  | initializeGovernance admin config =>
    simp only [step,initializeGovernance,bind_ok,ok.injEq] at ran
    obtain ⟨_,_,_,_,_,_,rfl⟩ := ran
    have kept : getGovProposal (setGovConfig (setAdmin s admin) config) id = getGovProposal s id := by
      simp [getGovProposal,setGovConfig,setAdmin]
    rw [kept]
    exact .keep (by simp)
  | propose =>
    simp only [step,propose,incrementProposalCount,bind_ok,addBelow_ok,ok.injEq] at ran
    obtain ⟨_,⟨_,_,config,_,_,_,_,⟨_,⟨_,rfl⟩,rfl⟩,_,⟨_,rfl⟩,_,⟨_,rfl⟩,rfl⟩,rfl⟩ := ran
    rw [setGovProposal_read]
    split
    · rename_i fresh
      refine .create ?_ fresh fresh.symm rfl rfl rfl
      -- The new id is beyond every stored one.
      cases has : getGovProposal s id with
      | none => rfl
      | some p =>
        have low := valid.numbered id p has
        simp only at fresh
        omega
    · have kept : getGovProposal (s.set .governanceProposalCount (getProposalCount s + 1)) id = getGovProposal s id := by
        simp [getGovProposal]
      rw [kept]
      exact .keep (by simp)
  | vote =>
    obtain ⟨config,p,conf,has,active,early,fresh,rfl⟩ := vote_parts ran
    refine moves_write has valid (.vote has conf active early fresh) counted_id rfl ?_ id
    intro n
    simp [getGovProposal,recordVote]
  | queue =>
    obtain ⟨config,p,q,conf,has,resolved,queued,rfl⟩ := queue_parts ran
    exact moves_write has valid (.queue has conf resolved queued) (resolution_same resolved).1 rfl
      (fun _ => rfl) id
  | execute =>
    obtain ⟨config,p,q,conf,has,resolved,queued,elapsed,applied⟩ := execute_parts ran
    rw [apply_read applied]
    exact moves_write has valid (.execute has conf resolved queued elapsed)
      (resolution_same resolved).1 rfl (fun _ => rfl) id
  | cancel =>
    obtain ⟨p,has,unexecuted,uncancelled,rfl⟩ := cancel_parts ran
    exact moves_write has valid (.cancel has unexecuted uncancelled) rfl rfl (fun _ => rfl) id
  | emergencyExecute =>
    obtain ⟨p,has,unexecuted,uncancelled,applied⟩ := emergencyExecute_parts ran
    rw [apply_read applied]
    exact moves_write has valid (.emergency has unexecuted uncancelled) rfl rfl (fun _ => rfl) id

theorem step_count (valid : WellFormed s) (ran : step s (env,call) = .ok next) : getProposalCount next = match call with
    | .propose _ _ _ => getProposalCount s + 1
    | _ => getProposalCount s := by
  cases call with
  | propose =>
    simp only [step,propose,incrementProposalCount,bind_ok,addBelow_ok,ok.injEq] at ran
    obtain ⟨_,⟨_,_,_,_,_,_,_,⟨_,⟨_,rfl⟩,rfl⟩,_,_,_,_,rfl⟩,rfl⟩ := ran
    simp [getProposalCount,setGovProposal]
  | _ =>
    have same : next.get .governanceProposalCount = s.get .governanceProposalCount :=
      step_frame valid.keyed ran (by simp [Writes])
    simp [getProposalCount,same]

theorem empty_wellFormed : WellFormed empty := by
  refine ⟨?_,?_,?_⟩ <;> simp [getGovProposal]

theorem step_wellFormed (ran : step s (env,call) = .ok next) (valid : WellFormed s) : WellFormed next := by
  have counts := step_count valid ran
  have grows : getProposalCount s ≤ getProposalCount next := by
    rw [counts]
    cases call <;> simp
  have each : ∀ id p, getGovProposal next id = some p →
      p.id = id ∧ id ≤ getProposalCount next ∧ p.status ≠ .defeated := by
    intro id p has
    have move := step_moves valid ran id
    rw [has] at move
    have named : ∀ q, getGovProposal s id = some q → q.id = id ∧ id ≤ getProposalCount next :=
      fun q before => ⟨valid.keyed id q before,Nat.le_trans (valid.numbered id q before) grows⟩
    generalize after : some p = r at move
    cases move with
    | keep => exact ⟨(named p after.symm).1,(named p after.symm).2,valid.undefeated id p after.symm⟩
    | create _ _ own active =>
      cases after
      simp only at counts
      exact ⟨own,by omega,by simp [active]⟩
    | vote before _ active =>
      cases after
      exact ⟨counted_id.trans (named _ before).1,(named _ before).2,by simp [counted_status,active]⟩
    | queue before _ resolved queued =>
      cases after
      refine ⟨(resolution_same resolved).1.trans (named _ before).1,(named _ before).2,?_⟩
      rcases queued with queued | queued <;> simp [queued]
    | execute before _ resolved =>
      cases after
      exact ⟨(resolution_same resolved).1.trans (named _ before).1,(named _ before).2,by simp⟩
    | cancel before | emergency before =>
      cases after
      have kept := named _ before
      exact ⟨kept.1,kept.2,by simp⟩
  exact ⟨fun id p has => (each id p has).1,fun id p has => (each id p has).2.1,
    fun id p has => (each id p has).2.2⟩

section
variable (move : Move env s id call after)
include move

-- Executed and Cancelled are final, so no later call applies or cancels.
theorem move_terminal (has : getGovProposal s id = some p) (done : p.status = .executed ∨ p.status = .cancelled) :
    after = some p ∧ applies call ≠ some id ∧ cancels call ≠ some id := by
  cases move with
  | keep other =>
    refine ⟨has,?_,?_⟩ <;> intro about <;> apply other <;>
      cases call <;> simp_all [applies,cancels,subject]
  | create absent => cases absent.symm.trans has
  | vote before _ active =>
    cases before.symm.trans has
    simp [active] at done
  | queue before _ resolved queued | execute before _ resolved queued =>
    cases before.symm.trans has
    cases resolved with
    | unchanged => rcases done with done | done <;> simp [done] at queued
    | passed active => simp [active] at done
    | defeated => simp at queued
  | cancel before unexecuted uncancelled | emergency before unexecuted uncancelled =>
    cases before.symm.trans has
    exact (done.elim unexecuted uncancelled).elim

theorem move_applies (about : id ∈ applies call) : ∃ p, after = some p ∧ p.status = .executed := by
  cases move with
  | keep => cases call <;> simp_all [applies,subject]
  | execute | emergency => exact ⟨_,rfl,rfl⟩
  | create | vote | queue | cancel => simp [applies] at about

theorem move_cancels (about : id ∈ cancels call) : ∃ p, after = some p ∧ p.status = .cancelled := by
  cases move with
  | keep => cases call <;> simp_all [cancels,subject]
  | cancel => exact ⟨_,rfl,rfl⟩
  | create | vote | queue | execute | emergency => simp [cancels] at about

theorem move_inactive (has : getGovProposal s id = some p)
    (left : p.status ≠ .active) : ∃ q, after = some q ∧ q.status ≠ .active := by
  cases move with
  | keep => exact ⟨p,has,left⟩
  | create absent => cases absent.symm.trans has
  | vote before _ active =>
    cases before.symm.trans has
    exact (left active).elim
  | queue _ _ _ queued => exact ⟨_,rfl,by rcases queued with queued | queued <;> simp [queued]⟩
  | execute | cancel | emergency => exact ⟨_,rfl,by simp⟩

end

def Installs (t : Transition Storage (Env × Call)) (newConfig : GovernanceConfig) : Prop :=
  ∃ id ∈ applies t.input.2, ∃ p, getGovProposal t.before id = some p ∧ installs p.action = some newConfig

theorem apply_config (conf : getGovConfig s = some config) (about : id ∈ applies call)
    (has : getGovProposal s id = some p) (applied : applyAction (setGovProposal s q) p.action = .ok next) :
    getGovConfig next = some config ∨
      ∃ newConfig, Installs ⟨s,(env,call),next⟩ newConfig ∧ getGovConfig next = some newConfig := by
  have same : getGovConfig (setGovProposal s q) = some config := by simpa [getGovConfig,setGovProposal] using conf
  have r := applyAction_config applied
  rw [same] at r
  cases new : installs p.action with
  | none =>
    rw [new] at r
    exact Or.inl r
  | some newConfig =>
    rw [new] at r
    exact Or.inr ⟨newConfig,⟨id,about,p,has,new⟩,r⟩

theorem step_config (valid : WellFormed s) (ran : step s (env,call) = .ok next)
    (conf : getGovConfig s = some config) : getGovConfig next = some config ∨
      ∃ newConfig, Installs ⟨s,(env,call),next⟩ newConfig ∧ getGovConfig next = some newConfig := by
  cases call with
  | initializeGovernance =>
    simp only [step,initializeGovernance,bind_ok,require_ok] at ran
    obtain ⟨_,_,_,unset,_⟩ := ran
    simp [conf] at unset
  | execute =>
    obtain ⟨_,p,q,_,has,resolved,_,_,applied⟩ := execute_parts ran
    rw [(resolution_same resolved).2.1] at applied
    exact apply_config conf rfl has applied
  | emergencyExecute =>
    obtain ⟨p,has,_,_,applied⟩ := emergencyExecute_parts ran
    exact apply_config conf rfl has applied
  | _ =>
    have same : next.get .governanceConfig = s.get .governanceConfig :=
      step_frame valid.keyed ran (by simp [Writes])
    exact Or.inl (same.trans conf)

def LeftActive (t : Transition Storage (Env × Call)) (id : Nat) : Prop :=
  (∃ p, getGovProposal t.before id = some p ∧ p.status = .active) ∧
    ∃ q, getGovProposal t.after id = some q ∧ q.status ≠ .active

-- The timelock and the quorum are those in force when the vote was over.
def Passed (ts : Trace) (id : Nat) (p : GovernanceProposal) : Prop :=
  ∃ u ∈ ts, LeftActive u id ∧ ∃ config, getGovConfig u.before = some config ∧
    p.executionTime = p.votingEnd + config.timelockDelay ∧ p.votesAgainst < p.votesFor ∧
    config.quorum ≤ p.votesFor + p.votesAgainst

theorem Passed.extend (passed : Passed ts id p) : Passed (ts ++ more) id p := by
  obtain ⟨u,mem,facts⟩ := passed
  exact ⟨u,List.mem_append_left _ mem,facts⟩

-- What the calls so far say about the proposals that are stored now.
structure Kept (ts : Trace) (s : Storage) : Prop where
  wellFormed : WellFormed s
  queued : ∀ id p, getGovProposal s id = some p → p.status = .queued ∨ p.status = .ready → Passed ts id p
  applied : ∀ t ∈ ts, ∀ id ∈ applies t.input.2, ∃ p, getGovProposal s id = some p ∧ p.status = .executed
  cancelled : ∀ t ∈ ts, ∀ id ∈ cancels t.input.2, ∃ p, getGovProposal s id = some p ∧ p.status = .cancelled
  left : ∀ t ∈ ts, ∀ id, LeftActive t id → ∃ p, getGovProposal s id = some p ∧ p.status ≠ .active

-- The vote was found passed by an earlier call or is by this one.
theorem resolution_passed (kept : Kept ts s) (has : getGovProposal s id = some p)
    (conf : getGovConfig s = some config) (resolved : Resolution env config p q)
    (queued : q.status = .queued ∨ q.status = .ready)
    (left : getGovProposal next id = some r) (final : r.status ≠ .active) :
    Passed (ts ++ [⟨s,(env,call),next⟩]) id q := by
  cases resolved with
  | unchanged => exact (kept.queued id p has queued).extend
  | passed active _ quorum majority =>
    exact ⟨_,List.mem_concat_self,⟨⟨p,has,active⟩,r,left,final⟩,config,conf,
      rfl,majority,quorum⟩
  | defeated => simp at queued

theorem step_kept (ran : step s (env,call) = .ok next) (kept : Kept ts s) : Kept (ts ++ [⟨s,(env,call),next⟩]) next := by
  have moves := step_moves kept.wellFormed ran
  refine ⟨step_wellFormed ran kept.wellFormed,?_,?_,?_,?_⟩
  · intro id p has queued
    have move := moves id
    rw [has] at move
    generalize after : some p = r at move
    cases move with
    | keep => exact (kept.queued id p after.symm queued).extend
    | create _ _ _ active =>
      cases after
      simp [active] at queued
    | vote _ _ active =>
      cases after
      simp [counted_status,active] at queued
    | queue before conf resolved passed =>
      cases after
      refine resolution_passed kept before conf resolved queued has ?_
      rcases passed with passed | passed <;> simp [passed]
    | execute | cancel | emergency =>
      cases after
      simp at queued
  · intro t mem id about
    rcases mem_snoc.mp mem with old | rfl
    · obtain ⟨p,has,done⟩ := kept.applied t old id about
      exact ⟨p,(move_terminal (moves id) has (Or.inl done)).1,done⟩
    · exact move_applies (moves id) about
  · intro t mem id about
    rcases mem_snoc.mp mem with old | rfl
    · obtain ⟨p,has,done⟩ := kept.cancelled t old id about
      exact ⟨p,(move_terminal (moves id) has (Or.inr done)).1,done⟩
    · exact move_cancels (moves id) about
  · intro t mem id leaving
    rcases mem_snoc.mp mem with old | rfl
    · obtain ⟨p,has,inactive⟩ := kept.left t old id leaving
      exact move_inactive (moves id) has inactive
    · exact leaving.2

theorem runs_kept (path : Run step empty ts s) : Kept ts s := by
  induction path with
  | nil =>
    refine ⟨empty_wellFormed,?_,?_,?_,?_⟩
    · simp [getGovProposal]
    · simp
    · simp
    · simp
  | snoc _ ran ih => exact step_kept ran ih

theorem application_first (ran : step s (env,call) = .ok next) (kept : Kept ts s) (about : id ∈ applies call) :
    ∀ t ∈ ts, id ∉ applies t.input.2 ∧ id ∉ cancels t.input.2 := by
  intro t mem
  have move := step_moves kept.wellFormed ran id
  refine ⟨?_,?_⟩
  · intro before
    obtain ⟨p,has,done⟩ := kept.applied t mem id before
    exact (move_terminal move has (Or.inl done)).2.1 about
  · intro before
    obtain ⟨p,has,done⟩ := kept.cancelled t mem id before
    exact (move_terminal move has (Or.inr done)).2.1 about

section
variable (path : Run step empty ts s)
include path

theorem applied_once : (ts.filterMap (fun t => applies t.input.2)).Nodup := by
  induction path with
  | nil => exact List.nodup_nil
  | @snoc ts s input next prior ran ih =>
    obtain ⟨_,call⟩ := input
    rw [List.filterMap_append]
    cases about : applies call with
    | none => simpa [about] using ih
    | some id =>
      refine List.nodup_append.mpr ⟨ih,by simp [about],?_⟩
      intro earlier old _ new repeated
      subst repeated
      obtain ⟨t,mem,before⟩ := List.mem_filterMap.mp old
      have same : earlier = id := by simpa [about] using new
      subst same
      exact (application_first ran (runs_kept prior) about t mem).1 before

theorem cancelled_never_applied : ts.Pairwise (fun earlier later => ∀ id ∈ cancels earlier.input.2, id ∉ applies later.input.2) := by
  induction path with
  | nil => exact List.Pairwise.nil
  | snoc prior ran ih =>
    refine List.pairwise_append.mpr ⟨ih,List.pairwise_singleton _ _,?_⟩
    intro earlier old _ new _ before about
    cases List.mem_singleton.mp new
    exact (application_first ran (runs_kept prior) about earlier old).2 before

theorem left_once : ts.Pairwise (fun earlier later => ∀ id, LeftActive earlier id → ¬ LeftActive later id) := by
  induction path with
  | nil => exact List.Pairwise.nil
  | snoc prior _ ih =>
    refine List.pairwise_append.mpr ⟨ih,List.pairwise_singleton _ _,?_⟩
    rintro earlier old later new id before ⟨⟨p,has,active⟩,_⟩
    cases List.mem_singleton.mp new
    obtain ⟨q,same,inactive⟩ := (runs_kept prior).left earlier old id before
    cases has.symm.trans same
    exact inactive active

end

theorem execute_passed (ran : step s (env,.execute id) = .ok next) (kept : Kept ts s) :
    ∃ p, getGovProposal s id = some p ∧ ∃ u ∈ ts ++ [⟨s,(env,.execute id),next⟩], LeftActive u id ∧
      ∃ config, getGovConfig u.before = some config ∧ p.votingEnd + config.timelockDelay ≤ env.timestamp ∧
        p.votesAgainst < p.votesFor ∧ config.quorum ≤ p.votesFor + p.votesAgainst := by
  have move := step_moves kept.wellFormed ran id
  generalize after : getGovProposal next id = r at move
  cases move with
  | keep other => simp at other
  | @execute p config q has conf resolved queued elapsed =>
    have passed : Passed (ts ++ [⟨s,(env,.execute id),next⟩]) id q :=
      resolution_passed kept has conf resolved queued after (by simp)
    obtain ⟨u,mem,left,inForce,set,schedule,majority,quorum⟩ := passed
    obtain ⟨_,_,sameFor,sameAgainst,sameEnd⟩ := resolution_same resolved
    rw [sameFor,sameAgainst] at majority quorum
    rw [schedule,sameEnd] at elapsed
    exact ⟨p,has,u,mem,left,inForce,set,elapsed,majority,quorum⟩

theorem move_votes (move : Move env s id call after) (before : getGovProposal s id = some p) (gives : after = some q)
    (changed : q.votesFor ≠ p.votesFor ∨ q.votesAgainst ≠ p.votesAgainst) :
    ∃ voter support, call = .vote voter id support := by
  subst gives
  generalize r : some q = final at move
  cases move with
  | vote => exact ⟨_,_,rfl⟩
  | keep =>
    cases before.symm.trans r.symm
    simp at changed
  | create absent => cases absent.symm.trans before
  | queue has _ resolved | execute has _ resolved =>
    cases before.symm.trans has
    cases r
    obtain ⟨_,_,sameFor,sameAgainst,_⟩ := resolution_same resolved
    simp [sameFor,sameAgainst] at changed
  | cancel has | emergency has =>
    cases before.symm.trans has
    cases r
    simp at changed

structure Disciplined (ts : Trace) : Prop where
  once : (ts.filterMap (fun t => applies t.input.2)).Nodup
  uncancelled : ts.Pairwise (fun earlier later => ∀ id ∈ cancels earlier.input.2, id ∉ applies later.input.2)
  leftOnce : ts.Pairwise (fun earlier later => ∀ id, LeftActive earlier id → ¬ LeftActive later id)
  executed : ∀ earlier t later, ts = earlier ++ t :: later → ∀ id, t.input.2 = .execute id →
    ∃ p, getGovProposal t.before id = some p ∧ ∃ u ∈ earlier ++ [t], LeftActive u id ∧
      ∃ config, getGovConfig u.before = some config ∧ p.votingEnd + config.timelockDelay ≤ t.input.1.timestamp ∧
        p.votesAgainst < p.votesFor ∧ config.quorum ≤ p.votesFor + p.votesAgainst
  voted : ∀ t ∈ ts, ∀ voter id support, t.input.2 = .vote voter id support →
    ∃ p, getGovProposal t.before id = some p ∧ t.input.1.timestamp < p.votingEnd
  counted : ∀ t ∈ ts, ∀ id p q, getGovProposal t.before id = some p → getGovProposal t.after id = some q →
    q.votesFor ≠ p.votesFor ∨ q.votesAgainst ≠ p.votesAgainst → ∃ voter support, t.input.2 = .vote voter id support

theorem execution_disciplined (path : Run step empty ts s) : Disciplined ts := by
  refine ⟨applied_once path,cancelled_never_applied path,left_once path,?_,?_,?_⟩
  · rintro _ ⟨before,⟨env,call⟩,after⟩ _ rfl id executing
    cases executing
    obtain ⟨prior,accepted⟩ := path.split
    exact execute_passed accepted (runs_kept prior)
  · rintro ⟨before,⟨env,call⟩,after⟩ present _ id _ voting
    cases voting
    obtain ⟨_,p,_,stored,_,early,_⟩ := vote_parts (path.accepted present)
    exact ⟨p,stored,early⟩
  · rintro ⟨before,⟨env,call⟩,after⟩ present id p q stored result changed
    obtain ⟨_,_,_,prior,accepted⟩ := path.member present
    exact move_votes (step_moves (runs_kept prior).wellFormed accepted id) stored result changed

namespace Sample
def alice : Address := .repeated 0x41
def bob : Address := .repeated 0x42
def config (quorum : Int) : GovernanceConfig := ⟨.repeated 0x54,100,50,quorum,1,.repeated 0x47⟩

def env (now : Nat) : Env :=
  ⟨now,fun _ => true,.repeated 0x43,fun _ holder => if holder = alice then 100 else if holder = bob then 50 else 0,
    fun _ _ _ _ => true⟩

def run (inputs : List (Nat × Call)) : Outcome (Trace × Storage) :=
  Runs.replay step empty (inputs.map (fun (now,call) => (env now,call)))

def passing : List (Nat × Call) :=
  [(0,.initializeGovernance alice (config 100)),(0,.propose alice (.setTrustedAsset [0x58] true) []),
    (10,.vote alice 1 true),(20,.vote bob 1 false),(100,.queue 1),(150,.execute 1)]
end Sample

theorem passing_disciplined : ∃ ts s, Run step empty ts s ∧ Disciplined ts ∧
    (getGovProposal s 1).map GovernanceProposal.status = some .executed := by
  have replayed : (Sample.run Sample.passing).map (fun result =>
      (getGovProposal result.2 1).map GovernanceProposal.status) = .ok (some .executed) := by rfl
  obtain ⟨ts,last,path,observed⟩ := Runs.replay_observed replayed
  exact ⟨ts,last,path,execution_disciplined path,observed⟩

end StellarPriceOracle.GovernanceLifecycle
