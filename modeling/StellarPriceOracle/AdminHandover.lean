import StellarPriceOracle.OracleContract

namespace StellarPriceOracle.AdminHandover
open Guarded Storage MultiSigActions OracleContract
open KeyedStore (get_set_ne empty)
open Except (ok)

variable {id : Nat}

def handover (s : Storage) : Call → Option (Option Address)
  | .proposeAdmin _ newAdmin => some (some newAdmin)
  | .executeProposal _ id =>
    match (getMultisigProposal s id).map MultiSigProposal.action with
    | some (.transferAdmin newAdmin) => some (some newAdmin)
    | _ => none
  | .cancelAdminTransfer _ | .acceptAdmin _ => some none
  | _ => none

def handovers (ts : List (Runs.Transition Storage (Env × Call))) : List (Option Address) :=
  ts.filterMap (fun t => handover t.before t.input.2)

theorem handovers_last : (handovers (ts ++ [t])).getLast? = (handover t.before t.input.2).or (handovers ts).getLast? := by
  cases staged : handover t.before t.input.2 <;> simp [handovers,staged]

-- `create_proposal` refuses SetAdmin, so that arm of the executor is never reached.
def Supported (s : Storage) : Prop :=
  ∀ id p, getMultisigProposal s id = some p → ensureActionSupported p.action = .ok ()

theorem write_supported (supported : Supported s) (allowed : ensureActionSupported p.action = .ok ()) :
    Supported (setMultisigProposal s p) := by
  intro id q has
  rw [setMultisigProposal_read] at has
  split at has
  · cases has
    exact allowed
  · exact supported id q has

theorem supported_congr (supported : Supported s) (same : ∀ id, next.get (.multiSigProposal id) = s.get (.multiSigProposal id)) :
    Supported next := by
  intro id p has
  apply supported id p
  rw [← has]
  exact (same id).symm

theorem count_supported (supported : Supported s) : Supported (setMsigProposalCount s count) := by
  apply supported_congr supported
  intro _
  exact get_set_ne (by simp)

theorem touches_proposal : ¬ MultiSigActions.Touches action (.multiSigProposal id) := by
  cases action <;> simp [MultiSigActions.Touches]

theorem step_supported (supported : Supported s) (accepted : step host verify s (env,call) = .ok next) : Supported next := by
  cases call with
  | createProposal =>
    simp only [step,createProposal,bind_ok,ok.injEq] at accepted
    obtain ⟨_,⟨_,_,_,allowed,_,_,rfl⟩,rfl⟩ := accepted
    apply count_supported
    apply write_supported supported
    exact allowed
  | approveProposal _ id =>
    simp only [step,approveProposal,bind_ok,someOr_ok,ok.injEq] at accepted
    obtain ⟨_,_,p,has,_,_,_,_,rfl⟩ := accepted
    exact write_supported supported (supported id p has)
  | cancelProposal _ id =>
    simp only [step,cancelProposal,bind_ok,someOr_ok,ok.injEq] at accepted
    obtain ⟨_,_,p,has,_,_,_,_,_,_,_,_,rfl⟩ := accepted
    exact write_supported supported (supported id p has)
  | cancelProposalAsSigner _ id =>
    simp only [step,cancelProposalAsSigner,bind_ok,someOr_ok,ok.injEq] at accepted
    obtain ⟨_,_,_,_,p,has,_,_,_,_,_,_,rfl⟩ := accepted
    exact write_supported supported (supported id p has)
  | expireProposal _ id =>
    simp only [step,expireProposal,bind_ok,someOr_ok,ok.injEq] at accepted
    obtain ⟨_,_,p,has,_,_,_,_,_,_,_,_,_,_,rfl⟩ := accepted
    exact write_supported supported (supported id p has)
  | executeProposal _ id =>
    obtain ⟨p,applied,has,ran,rfl⟩ := executeProposal_parts accepted
    have kept : Supported applied := by
      apply supported_congr supported
      intro id
      exact applyProposalAction_get ran touches_proposal
    change Supported (setMultisigProposal applied {p with executed := 1})
    apply write_supported kept
    exact supported id p has
  | _ =>
    apply supported_congr supported
    intro _
    apply step_frame accepted
    simp [OracleContract.Touches,DataKey.BatchSlot]

@[simp] def pending (s : Storage) : Option Address := (getPendingAdmin s).map Prod.fst

theorem pending_congr (same : next.get .pendingAdmin = s.get .pendingAdmin) : pending next = pending s := by
  simp [getPendingAdmin,same]

theorem pending_staged : pending (setPendingAdmin s newAdmin deadline) = some newAdmin := by
  simp [getPendingAdmin,setPendingAdmin]

theorem pending_cleared : pending (clearPendingAdmin s) = none := by
  simp [getPendingAdmin,clearPendingAdmin]

theorem execute_pending (supported : Supported s) (accepted : step host verify s (env,.executeProposal signer id) = .ok next) :
    pending next = (handover s (.executeProposal signer id)).getD (pending s) := by
  obtain ⟨p,applied,has,ran,rfl⟩ := executeProposal_parts accepted
  have allowed := supported id p has
  have written : pending (applied.set (.multiSigProposal p.id) {p with executed := 1}) = pending applied :=
    pending_congr (get_set_ne (by simp))
  rw [written]
  simp only [handover,has,Option.map_some]
  cases chosen : p.action with
  | transferAdmin =>
    rw [chosen] at ran
    simp only [applyProposalAction,stageAdmin,bind_ok,ok.injEq] at ran
    obtain ⟨_,_,_,_,rfl⟩ := ran
    exact pending_staged
  | setAdmin =>
    rw [chosen] at allowed
    cases allowed
  | _ =>
    apply pending_congr
    apply applyProposalAction_get ran
    simp [chosen,MultiSigActions.Touches]

theorem step_pending (supported : Supported s) (ran : step host verify s (env,call) = .ok next) :
    pending next = (handover s call).getD (pending s) := by
  cases call with
  | proposeAdmin =>
    simp only [step,Admin.proposeAdmin,bind_ok,ok.injEq] at ran
    obtain ⟨_,_,_,_,rfl⟩ := ran
    exact pending_staged
  | acceptAdmin =>
    simp only [step,Admin.acceptAdmin,bind_ok,ok.injEq] at ran
    obtain ⟨_,_,_,_,_,_,_,_,rfl⟩ := ran
    exact pending_cleared
  | cancelAdminTransfer =>
    simp only [step,Admin.cancelAdminTransfer,bind_ok,ok.injEq] at ran
    obtain ⟨_,_,_,_,_,_,rfl⟩ := ran
    exact pending_cleared
  | executeProposal => exact execute_pending supported ran
  | _ =>
    apply pending_congr
    apply step_frame ran
    simp [OracleContract.Touches,DataKey.BatchSlot]

theorem step_admin (ran : step host verify s (env,call) = .ok next) (has : s.get .admin = some admin)
    (changed : next.get .admin ≠ some admin) : ∃ newAdmin, call = .acceptAdmin newAdmin ∧
      env.authorized newAdmin = true ∧ pending s = some newAdmin ∧ next.get .admin = some newAdmin := by
  cases call with
  | initializeContract =>
    obtain ⟨unset,_⟩ := guard_ok.mp ran
    simp [hasAdmin,has] at unset
  | acceptAdmin newAdmin =>
    simp only [step,Admin.acceptAdmin,bind_ok,requireAuth_ok,someOr_ok,require_ok,ok.injEq] at ran
    obtain ⟨_,signed,_,got,_,same,_,_,rfl⟩ := ran
    refine ⟨newAdmin,rfl,signed,?_,?_⟩
    · rw [pending,got,← same]
      rfl
    · simp [clearPendingAdmin,setAdmin]
  | executeProposal =>
    exfalso
    apply changed
    rw [← has]
    apply step_frame ran
    apply execute_untouched (by simp)
    intro action
    cases action <;> simp [MultiSigActions.Touches]
  | _ =>
    exfalso
    apply changed
    rw [← has]
    apply step_frame ran
    simp [OracleContract.Touches,DataKey.BatchSlot]

-- The pending admin is the one of the last handover.
structure Kept (ts : List (Runs.Transition Storage (Env × Call))) (s : Storage) : Prop where
  supported : Supported s
  staged : pending s = ((handovers ts).getLast?).getD none

theorem runs_kept (path : Runs.Run (step host verify) empty ts s) : Kept ts s := by
  induction path with
  | nil => exact ⟨by simp [Supported,getMultisigProposal],rfl⟩
  | @snoc ts s input next prior ran ih =>
    obtain ⟨_,call⟩ := input
    refine ⟨step_supported ih.supported ran,?_⟩
    rw [step_pending ih.supported ran,handovers_last]
    cases handover s call with
    | some => rfl
    | none => exact ih.staged

-- Admin changes only when the address that the last handover step staged accepts.
theorem admin_changes_hands (path : Runs.Run (step host verify) empty (earlier ++ t :: later) s)
    (stored : t.before.get .admin = some admin) (changed : t.after.get .admin ≠ some admin) :
    ∃ newAdmin, t.input.2 = .acceptAdmin newAdmin ∧ t.input.1.authorized newAdmin = true ∧
      t.after.get .admin = some newAdmin ∧ (handovers earlier).getLast? = some (some newAdmin) := by
  obtain ⟨prior,accepted⟩ := path.split
  obtain ⟨newAdmin,called,signed,staged,written⟩ := step_admin accepted stored changed
  refine ⟨newAdmin,called,signed,written,?_⟩
  rw [(runs_kept prior).staged] at staged
  cases last : (handovers earlier).getLast? with
  | none =>
    rw [last] at staged
    cases staged
  | some =>
    rw [last] at staged
    exact congrArg some staged

namespace Sample
open OracleContract.Sample

def other : Address := .repeated 0x4f
def staged : List Call :=
  [.initializeContract admin,.initMultisig admin [.repeated 0x31,.repeated 0x32] 1,.proposeAdmin admin (.repeated 0x33),
    .createProposal (.repeated 0x31) (.transferAdmin other),.executeProposal (.repeated 0x32) 0,.acceptAdmin other]
end Sample

open Sample

theorem multisig_choice_accepted : ∃ earlier t s newAdmin,
    Runs.Run (step host (Submission.merkleVerifier host)) empty (earlier ++ t :: []) s ∧
    t.before.get .admin = some admin ∧ t.input.2 = .acceptAdmin newAdmin ∧
    (handovers earlier).getLast? = some (some newAdmin) ∧ s.get .admin = some other := by
  have replayed : (run staged).map (fun result =>
      (result.1.getLast?.map (fun t => (t.before.get .admin,t.after.get .admin)),result.2.get .admin)) =
        .ok (some (some admin,some other),some other) := by rfl
  obtain ⟨_,s,path,final,holder⟩ := Runs.replay_pair replayed
  obtain ⟨t,last,seen⟩ := Option.map_eq_some_iff.mp final
  obtain ⟨before,after⟩ := Prod.mk.inj seen
  obtain ⟨earlier,rfl⟩ := List.getLast?_eq_some_iff.mp last
  have changed : t.after.get .admin ≠ some admin := by
    rw [after]
    decide
  obtain ⟨newAdmin,called,_,_,staged⟩ := admin_changes_hands path before changed
  exact ⟨earlier,t,s,newAdmin,path,before,called,staged,holder⟩

end StellarPriceOracle.AdminHandover
