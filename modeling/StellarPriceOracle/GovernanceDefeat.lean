import StellarPriceOracle.GovernanceLifecycle

namespace StellarPriceOracle.GovernanceDefeat
open Guarded Storage Governance GovernanceLifecycle
open Except (map ok)

variable {id : Nat}

-- A Defeated report is computed on read from a proposal still stored as Active.
theorem reported_parts (valid : WellFormed r) (reported : getProposal env r id = .ok (some q))
    (defeated : q.status = .defeated) : ∃ p config, getGovProposal r id = some p ∧ getGovConfig r = some config ∧
      p.status = .active ∧ p.votingEnd ≤ env.timestamp ∧ q.votesFor = p.votesFor ∧ q.votesAgainst = p.votesAgainst ∧
      ¬ (config.quorum ≤ p.votesFor + p.votesAgainst ∧ p.votesAgainst < p.votesFor) := by
  unfold getProposal at reported
  cases stored : getGovProposal r id with
  | none => simp [stored] at reported
  | some p =>
    simp only [stored] at reported
    split at reported
    · rename_i active
      cases configured : getGovConfig r with
      | none =>
        simp only [configured,ok.injEq,Option.some.injEq] at reported
        subst reported
        simp [active] at defeated
      | some config =>
        simp only [configured,bind_ok,ok.injEq,Option.some.injEq] at reported
        obtain ⟨_,resolved,rfl⟩ := reported
        cases resolve_parts resolved with
        | unchanged => simp [active] at defeated
        | passed => simp at defeated
        | defeated _ closed lost => exact ⟨p,config,rfl,rfl,active,closed,rfl,rfl,lost⟩
    · cases reported
      exact (valid.undefeated id q stored defeated).elim

-- The majority stands, and a configuration installed since asks for no more votes.
def Revived (since : Trace) (p : GovernanceProposal) : Prop := p.votesAgainst < p.votesFor ∧
  ∃ w ∈ since, ∃ newConfig, Installs w newConfig ∧ newConfig.quorum ≤ p.votesFor + p.votesAgainst

theorem Revived.extend (revived : Revived since p) : Revived (since ++ more) p := by
  obtain ⟨majority,w,mem,facts⟩ := revived
  exact ⟨majority,w,List.mem_append_left _ mem,facts⟩

structure Since (config : GovernanceConfig) (p : GovernanceProposal) (id : Nat) (since : Trace) (s : Storage) : Prop where
  wellFormed : WellFormed s
  stored : ∃ q, getGovProposal s id = some q ∧ q.votesFor = p.votesFor ∧ q.votesAgainst = p.votesAgainst ∧
    q.votingEnd = p.votingEnd ∧ (q.status = .queued ∨ q.status = .ready → Revived since p)
  configured : ∃ current, getGovConfig s = some current ∧ (current = config ∨ ∃ w ∈ since, Installs w current)

section
variable {config : GovernanceConfig} {p : GovernanceProposal} (lost : ¬ (config.quorum ≤ p.votesFor + p.votesAgainst ∧ p.votesAgainst < p.votesFor))
include lost

theorem resolution_revived (kept : Since config p id since s)
    (stored : getGovProposal s id = some q) (configured : getGovConfig s = some current)
    (resolved : Resolution env current q final) (queued : final.status = .queued ∨ final.status = .ready) :
    Revived since p := by
  obtain ⟨q,same,sameFor,sameAgainst,_,before⟩ := kept.stored
  cases stored.symm.trans same
  cases resolved with
  | unchanged => exact before queued
  | passed _ _ quorum majority =>
    rw [sameFor,sameAgainst] at quorum majority
    obtain ⟨_,got,origin⟩ := kept.configured
    cases configured.symm.trans got
    rcases origin with rfl | ⟨w,mem,installed⟩
    · exact (lost ⟨quorum,majority⟩).elim
    · exact ⟨majority,w,mem,current,installed,quorum⟩
  | defeated => simp at queued

theorem step_since (ran : step s (env,call) = .ok next) (late : p.votingEnd ≤ env.timestamp)
    (kept : Since config p id since s) : Since config p id (since ++ [⟨s,(env,call),next⟩]) next := by
  refine ⟨step_wellFormed ran kept.wellFormed,?_,?_⟩
  · obtain ⟨q,stored,sameFor,sameAgainst,sameEnd,before⟩ := kept.stored
    have move := step_moves kept.wellFormed ran id
    generalize getGovProposal next id = r at move
    cases move with
    | keep => exact ⟨q,stored,sameFor,sameAgainst,sameEnd,fun queued => (before queued).extend⟩
    | create absent => cases absent.symm.trans stored
    | vote got =>
      cases got.symm.trans stored
      omega
    | queue got configured resolved queued =>
      cases got.symm.trans stored
      obtain ⟨_,_,nowFor,nowAgainst,nowEnd⟩ := resolution_same resolved
      exact ⟨_,rfl,nowFor.trans sameFor,nowAgainst.trans sameAgainst,nowEnd.trans sameEnd,
        fun queued => (resolution_revived lost kept stored configured resolved queued).extend⟩
    | execute got _ resolved =>
      cases got.symm.trans stored
      obtain ⟨_,_,nowFor,nowAgainst,nowEnd⟩ := resolution_same resolved
      exact ⟨_,rfl,nowFor.trans sameFor,nowAgainst.trans sameAgainst,nowEnd.trans sameEnd,by simp⟩
    | cancel got | emergency got =>
      cases got.symm.trans stored
      exact ⟨_,rfl,sameFor,sameAgainst,sameEnd,by simp⟩
  · obtain ⟨current,configured,origin⟩ := kept.configured
    rcases step_config kept.wellFormed ran configured with same | ⟨newConfig,installed,set⟩
    · refine ⟨current,same,origin.imp_right ?_⟩
      rintro ⟨w,mem,installed⟩
      exact ⟨w,List.mem_append_left _ mem,installed⟩
    · exact ⟨newConfig,set,Or.inr ⟨_,List.mem_concat_self,installed⟩⟩

theorem runs_since (later : Runs.Run step r since s) (advancing : ∀ t ∈ since, p.votingEnd ≤ t.input.1.timestamp)
    (start : Since config p id [] r) : Since config p id since s := by
  induction later with
  | nil => exact start
  | snoc _ ran ih =>
    have kept := ih (fun t mem => advancing t (List.mem_append_left _ mem))
    exact step_since lost ran (advancing _ List.mem_concat_self) kept

end

def clock (t : Runs.Transition Storage (Env × Call)) : Nat := t.input.1.timestamp

-- A run in which the proposal was reported Defeated at some moment and executed later.
structure ExecutedAfterDefeat (env now : Env) (id : Nat) (earlier since : Trace) (r s next : Storage)
    (q : GovernanceProposal) : Prop where
  path : Runs.Run step KeyedStore.empty earlier r
  reported : getProposal env r id = .ok (some q)
  defeated : q.status = .defeated
  later : Runs.Run step r since s
  advancing : (earlier.map clock ++ env.timestamp :: (since.map clock ++ [now.timestamp])).Pairwise (· ≤ ·)
  executed : step s (now,.execute id) = .ok next

theorem ExecutedAfterDefeat.afterwards (run : ExecutedAfterDefeat env now id earlier since r s next q) :
    ∀ t ∈ since, env.timestamp ≤ t.input.1.timestamp := by
  intro t mem
  have onward := (List.pairwise_cons.mp (List.pairwise_append.mp run.advancing).2.1).1
  exact onward (clock t) (List.mem_append_left _ (List.mem_map_of_mem mem))

theorem defeat_final_unless_lowered (run : ExecutedAfterDefeat env now id earlier since r s next q) : Revived since q := by
  have valid := (runs_kept run.path).wellFormed
  obtain ⟨p,config,stored,configured,active,closed,sameFor,sameAgainst,lost⟩ :=
    reported_parts valid run.reported run.defeated
  have start : Since config p id [] r :=
    ⟨valid,⟨p,stored,rfl,rfl,rfl,by simp [active]⟩,config,configured,Or.inl rfl⟩
  have late : ∀ t ∈ since, p.votingEnd ≤ t.input.1.timestamp :=
    fun t present => Nat.le_trans closed (run.afterwards t present)
  have kept := runs_since lost run.later late start
  obtain ⟨_,_,_,found,before,resolved,queued,_⟩ := execute_parts run.executed
  have revived := resolution_revived lost kept before found resolved queued
  rwa [Revived,← sameFor,← sameAgainst] at revived

namespace Sample
open GovernanceLifecycle.Sample

-- 100 of the 120 votes asked for; the second proposal asks for 100.
def losing : List (Nat × Call) :=
  [(0,.initializeGovernance alice (config 120)),(0,.propose alice (.setTrustedAsset [0x58] true) []),
    (0,.propose alice (.updateGovernanceConfig (config 100)) []),(10,.vote alice 1 true),(10,.vote alice 2 true),
    (10,.vote bob 2 true)]

def observe (lowering : List (Nat × Call)) (result : Trace × Storage) : Outcome (Option ProposalStatus) × Outcome (Bool × Bool) :=
  ((getProposal (env 100) result.2 1).map (Option.map GovernanceProposal.status),
    (Runs.replay step result.2 (lowering.map (fun (now,call) => (env now,call)))).map (fun after =>
      (decide ((result.1.map clock ++ 100 :: (after.1.map clock ++ [150])).Pairwise (· ≤ ·)),(step after.2 (env 150,.execute 1)).toBool)))

theorem observed_run (seen : (run losing).map (observe lowering) = .ok (.ok (some .defeated),.ok (true,true))) :
    ∃ earlier since r s next q, ExecutedAfterDefeat (env 100) (env 150) 1 earlier since r s next q := by
  obtain ⟨earlier,r,path,report,again⟩ := Runs.replay_pair seen
  obtain ⟨since,s,later,advancing,done⟩ := Runs.replay_pair again
  cases reported : getProposal (env 100) r 1 with
  | error => simp [reported,map] at report
  | ok got =>
    cases got with
    | none => simp [reported,map] at report
    | some q =>
      obtain ⟨next,executed⟩ := ok_of_toBool done
      refine ⟨earlier,since,r,s,next,q,path,reported,?_,later,?_,executed⟩
      · simpa [reported,map] using report
      · exact of_decide_eq_true advancing
end Sample

open Sample

theorem guardian_lowered_revives : ∃ earlier since r s next q,
    ExecutedAfterDefeat (GovernanceLifecycle.Sample.env 100) (GovernanceLifecycle.Sample.env 150) 1 earlier since r s next q ∧
      Revived since q := by
  obtain ⟨earlier,since,r,s,next,q,run⟩ := observed_run
    (show (GovernanceLifecycle.Sample.run losing).map (observe
      [(120,.emergencyExecute (.repeated 0x47) 2)]) = _ by decide +kernel)
  exact ⟨earlier,since,r,s,next,q,run,defeat_final_unless_lowered run⟩

-- The second proposal passes, and with it the one already reported Defeated.
theorem defeated_then_executed : ∃ earlier since r s next q,
    ExecutedAfterDefeat (GovernanceLifecycle.Sample.env 100) (GovernanceLifecycle.Sample.env 150) 1 earlier since r s next q :=
  observed_run (show (GovernanceLifecycle.Sample.run losing).map (observe
    [(150,.execute 2)]) = _ by decide +kernel)

end StellarPriceOracle.GovernanceDefeat
