import StellarPriceOracle.EmergencyActions

namespace StellarPriceOracle.EmergencyActions
open Guarded
open Runs (Run total Transition replay pasts)
open List hiding after

section
variable {id : Nat}

theorem isOpen_swept (inForce : isOpen (sweepAction time a) = true) : isOpen a = true ∧ time < a.expiresAt := by
  rw [isOpen,sweepAction_status] at inForce
  by_cases gone : isOpen a = true ∧ time ≥ a.expiresAt
  · rw [if_pos gone] at inForce
    by_cases reviewed : a.status = .reviewed
    · simp [reviewed] at inForce
    · simp [reviewed] at inForce
  · rw [if_neg gone] at inForce
    exact ⟨inForce,Int.not_le.mp (fun late => gone ⟨inForce,late⟩)⟩

theorem swept_status (inForce : isOpen (sweepAction time a) = true) : (sweepAction time a).status = a.status := by
  obtain ⟨_,early⟩ := isOpen_swept inForce
  rw [sweepAction_status,if_neg]
  exact fun gone => absurd gone.2 (Int.not_le.mpr early)

theorem isOpen_active (active : a.status = .active) : isOpen a = true := by
  simp [isOpen,active]

theorem isOpen_reviewed (reviewed : a.status = .reviewed) : isOpen a = true := by
  simp [isOpen,reviewed]

structure Bounded (a : EmergencyAction) : Prop where
  capped : a.expiresAt ≤ a.createdAt + maxDurationMs * (a.renewals + 1)
  few : a.renewals ≤ EmergencyLimits.maxRenewals

theorem Bounded.swept (bounded : Bounded a) (time : Int) : Bounded (sweepAction time a) := by
  obtain ⟨_,_,_,made⟩ := sweepAction_keeps time a
  rw [made]
  exact {bounded with}

theorem Deed.bounded (deed : Deed host request id b act written) (bounded : Bounded b) : Bounded written := by
  cases deed with
  | countersigned =>
    rename_i decision _ _ _ _ _
    cases decision <;> exact {bounded with}
  | renewed _ _ fewer _ capped =>
    refine ⟨?_,fewer⟩
    simpa [extend,Int.add_assoc] using capped
  | revoked | disclosed => exact {bounded with}

theorem Opens.bounded (opens : Opens host request id policyVersion input a) : Bounded a := by
  refine ⟨?_,by simp [opens.renewals]⟩
  simpa [opens.created,opens.renewals] using opens.short

theorem Fate.bounded (fate : Fate host request id before act after) (bounded : ∀ a, before = some a → Bounded a) :
    ∀ a, after = some a → Bounded a := by
  rintro a rfl
  cases fate with
  | same => exact bounded _ rfl
  | swept time => exact (bounded _ rfl).swept time
  | flagged =>
    have swept := (bounded _ rfl).swept request.now
    exact {swept with}
  | did deed => exact deed.bounded ((bounded _ rfl).swept request.now)
  | opened opens => exact opens.bounded

theorem Fate.named (fate : Fate host request id before act after) (named : ∀ a, before = some a → a.id = id) :
    ∀ a, after = some a → a.id = id := by
  have swept {a : EmergencyAction} (time : Int) (named : a.id = id) : (sweepAction time a).id = id := by
    obtain ⟨_,_,_,made⟩ := sweepAction_keeps time a
    rw [made]
    exact named
  rintro a rfl
  cases fate with
  | same => exact named _ rfl
  | swept time => exact swept time (named _ rfl)
  | flagged => exact swept request.now (named _ rfl)
  | did deed =>
    have kept := swept request.now (named _ rfl)
    cases deed with
    | countersigned =>
      rename_i decision _ _ _ _ _
      cases decision <;> exact kept
    | renewed | revoked | disclosed => exact kept
  | opened opens => exact opens.named

theorem Effect.counts (effect : Effect host request s r) : s.actionCount ≤ (stateOf r).actionCount ∧
    ∀ id a, (stateOf r).actions.get id = some a → s.actions.get id = none →
      id = s.actionCount + 1 ∧ id ≤ (stateOf r).actionCount := by
  have swept {id : Nat} {time : Int} {a : EmergencyAction} (found : (s.swept time).actions.get id = some a) : s.actions.get id ≠ none := by
    obtain ⟨_,has,_⟩ := swept_some found
    simp [has]
  have put {id target : Nat} {time : Int} {a b written : EmergencyAction} (has : (s.swept time).actions.get target = some b)
      (found : ((s.swept time).put target written).actions.get id = some a) : s.actions.get id ≠ none := by
    by_cases here : id = target
    · exact here ▸ swept has
    · rw [EmergencyActionRegistry.put,InsertionMap.get_set_ne here] at found
      exact swept found
  cases effect with
  | refused =>
    refine ⟨Nat.le_refl _,?_⟩
    intro id a found fresh
    cases fresh.symm.trans found
  | swept | shown => exact ⟨Nat.le_refl _,fun _ a found fresh => absurd fresh (swept found)⟩
  | flagged has | wrote has => exact ⟨Nat.le_refl _,fun _ a found fresh => absurd fresh (put has found)⟩
  | opened =>
    refine ⟨Nat.le_succ _,?_⟩
    intro id a found fresh
    by_cases here : id = s.actionCount + 1
    · exact ⟨here,Nat.le_of_eq here⟩
    · rw [stateOf,InsertionMap.get_set_ne here] at found
      exact absurd fresh (swept found)

theorem next_numbered (numbered : Numbered s) : Numbered (next host s request) := by
  have effect : Effect host request s (perform host s request) := perform_effect
  obtain ⟨grows,fresh⟩ := effect.counts
  intro id a found
  refine ⟨(next_fate numbered).named (fun a has => (numbered id a has).1) a found,?_⟩
  cases has : s.actions.get id with
  | none => exact (fresh id a found has).2
  | some prior => exact Nat.le_trans (numbered id prior has).2 grows

theorem next_fresh (found : (next host s request).actions.get id = some a) (fresh : s.actions.get id = none) : id = s.actionCount + 1 :=
  (perform_effect.counts.2 id a found fresh).1

theorem create_stores_none (found : EmergencyActionRegistry.create.actions.get id = some a) : False := by
  cases found

theorem numbered_create : Numbered .create := fun _ _ found => (create_stores_none found).elim

theorem runs_numbered (path : Run (total (next host)) .create ts s) : Numbered s := by
  apply path.invariant_of (fun _ _ => trivial) numbered_create
  intro t _ taken numbered
  rw [← Except.ok.inj taken]
  exact next_numbered numbered

theorem runs_stored {P : EmergencyAction → Prop} (path : Run (total (next host)) .create ts s)
    (keep : ∀ request id before act after, Fate host request id before act after → (∀ a, before = some a → P a) → ∀ a, after = some a → P a) :
    ∀ id a, s.actions.get id = some a → P a := by
  have both : Numbered s ∧ ∀ id a, s.actions.get id = some a → P a := by
    apply path.invariant_of (P := fun s => Numbered s ∧ ∀ id a, s.actions.get id = some a → P a) (fun _ _ => trivial)
      ⟨numbered_create,fun _ _ found => (create_stores_none found).elim⟩
    intro t _ taken valid
    rw [← Except.ok.inj taken]
    exact ⟨next_numbered valid.1,fun id => keep _ id _ _ _ (next_fate valid.1) (valid.2 id)⟩
  exact both.2

theorem Effect.shown_bounded (effect : Effect host request s (.ok (found,after))) (bounded : ∀ id a, s.actions.get id = some a → Bounded a)
    (present : a ∈ found) (inForce : isOpen a = true) : request.now < a.expiresAt ∧ Bounded a := by
  have swept {id : Nat} {b : EmergencyAction} (has : (s.swept request.now).actions.get id = some b) :
      Bounded b ∧ (isOpen b = true → request.now < b.expiresAt) := by
    obtain ⟨prior,held,rfl⟩ := swept_some has
    refine ⟨(bounded id prior held).swept request.now,?_⟩
    intro still
    obtain ⟨_,_,_,made⟩ := sweepAction_keeps request.now prior
    have early := (isOpen_swept still).2
    rw [made]
    exact early
  cases effect with
  | shown _ has =>
    obtain ⟨id,held⟩ := has a present
    exact ⟨(swept held).2 inForce,(swept held).1⟩
  | wrote held deed =>
    obtain rfl := mem_singleton.mp present
    refine ⟨?_,deed.bounded (swept held).1⟩
    cases deed with
    | countersigned _ active =>
      rename_i decision _ _ _ _
      have early := (swept held).2 (isOpen_active active)
      cases decision <;> exact early
    | renewed _ reviewed _ later => exact Int.lt_trans ((swept held).2 (isOpen_reviewed reviewed)) later
    | revoked => cases inForce
    | disclosed _ closed => exact absurd inForce (by simpa [disclose,isOpen] using closed)
  | opened opens =>
    obtain rfl := mem_singleton.mp present
    exact ⟨opens.future,opens.bounded⟩

end

structure Window where
  actor : String
  start : Int
  confirmed : Option (String × Int)

def Window.record (window : Option Window) : Option Act → Option Window
  | none => window
  | some (.opened actor time) => some ⟨actor,time,none⟩
  | some (.renewed actor time) => some ⟨actor,time,none⟩
  | some (.reviewed actor .confirm time) => window.map (fun w => {w with confirmed := some (actor,time)})
  | some (.reviewed _ .overturn _) => window

def windowOf (host : Host) (id : Nat) (ts : Trace) : Option Window :=
  ts.foldl (fun window t => Window.record window (actOf host t.before t.input id)) none

-- The action stores its window; who opened it only in the first one.
structure Reflects (w : Window) (a : EmergencyAction) : Prop where
  deadline : a.reviewDeadlineAt = min (w.start + reviewWindowMs) a.expiresAt
  author : a.renewals = 0 → w.actor = a.actor
  reviewed : a.status = .reviewed → ∃ reviewer time, w.confirmed = some (reviewer,time) ∧ time ≤ a.reviewDeadlineAt ∧ reviewer ≠ a.actor

section
variable {id : Nat}

theorem Reflects.swept (reflects : Reflects w a) (time : Int) : Reflects w (sweepAction time a) := by
  have open_before (reviewed : (sweepAction time a).status = .reviewed) : a.status = .reviewed :=
    (swept_status (isOpen_reviewed reviewed)).symm.trans reviewed
  obtain ⟨_,_,_,made⟩ := sweepAction_keeps time a
  rw [made] at open_before ⊢
  exact ⟨reflects.deadline,reflects.author,fun reviewed => reflects.reviewed (open_before reviewed)⟩

theorem Deed.reflects (deed : Deed host request id b act written) (reflects : Reflects w b) :
    ∃ w', Window.record (some w) act = some w' ∧ Reflects w' written := by
  cases deed with
  | countersigned called active timely other =>
    rename_i decision _
    cases decision with
    | confirm => exact ⟨_,rfl,reflects.deadline,reflects.author,fun _ => ⟨_,_,rfl,timely,other⟩⟩
    | overturn => exact ⟨w,rfl,reflects.deadline,reflects.author,nofun⟩
  | renewed => exact ⟨_,rfl,rfl,nofun,nofun⟩
  | revoked => exact ⟨w,rfl,reflects.deadline,reflects.author,nofun⟩
  | disclosed => exact ⟨w,rfl,reflects.deadline,reflects.author,reflects.reviewed⟩

theorem Opens.reflects (opens : Opens host request id policyVersion input a) :
    Reflects ⟨host.text.trim input.actor,request.now,none⟩ a :=
  ⟨opens.deadline,fun _ => opens.author.symm,fun reviewed => absurd (opens.status.symm.trans reviewed) nofun⟩

theorem Fate.reflects (fate : Fate host request id before act after) (reflects : ∀ a, before = some a → ∃ w, window = some w ∧ Reflects w a) :
    ∀ a, after = some a → ∃ w, Window.record window act = some w ∧ Reflects w a := by
  rintro a rfl
  cases fate with
  | same => exact reflects a rfl
  | swept time =>
    obtain ⟨w,rfl,kept⟩ := reflects _ rfl
    exact ⟨w,rfl,kept.swept time⟩
  | flagged =>
    obtain ⟨w,rfl,kept⟩ := reflects _ rfl
    have swept := kept.swept request.now
    exact ⟨w,rfl,swept.deadline,swept.author,swept.reviewed⟩
  | did deed =>
    obtain ⟨w,rfl,kept⟩ := reflects _ rfl
    exact deed.reflects (kept.swept request.now)
  | opened opens => exact ⟨_,rfl,opens.reflects⟩

theorem windowOf_snoc : windowOf host id (ts ++ [t]) = Window.record (windowOf host id ts) (actOf host t.before t.input id) := by
  simp [windowOf]

theorem runs_reflect (path : Run (total (next host)) .create ts s) :
    ∀ id a, s.actions.get id = some a → ∃ w, windowOf host id ts = some w ∧ Reflects w a := by
  induction path with
  | nil => exact fun _ _ found => (create_stores_none found).elim
  | snoc prior taken ih =>
    cases taken
    intro id
    rw [windowOf_snoc]
    exact (next_fate (runs_numbered prior)).reflects (ih id)

theorem Fate.renews (fate : Fate host request id before (some (.renewed actor time)) after) : ∃ a, before = some a ∧ a.status = .reviewed := by
  cases fate with
  | did deed =>
    cases deed with
    | renewed _ reviewed => exact ⟨_,rfl,(swept_status (isOpen_reviewed reviewed)).symm.trans reviewed⟩

end

structure TimeBounded (host : Host) (ts : Trace) : Prop where
  inForce : ∀ t ∈ ts, ∀ found after, perform host t.before t.input = .ok (found,after) → ∀ a ∈ found, isOpen a = true →
    t.input.now < a.expiresAt ∧ a.expiresAt ≤ a.createdAt + maxDurationMs * (a.renewals + 1) ∧ a.renewals ≤ EmergencyLimits.maxRenewals
  renewals : ∀ earlier t later, ts = earlier ++ t :: later → ∀ id actor time, actOf host t.before t.input id = some (.renewed actor time) →
    ∃ a w reviewer confirmedAt, t.before.actions.get id = some a ∧ windowOf host id earlier = some w ∧
      w.confirmed = some (reviewer,confirmedAt) ∧ confirmedAt ≤ min (w.start + reviewWindowMs) a.expiresAt ∧ reviewer ≠ a.actor

-- Emergency powers are bounded in time, and a renewal follows a confirmation.
theorem powers_time_bounded {host : Host} {ts : Trace} {s : EmergencyActionRegistry}
    (path : Run (total (next host)) .create ts s) : TimeBounded host ts where
  inForce := by
    intro t present _ _ ran a shown inForce
    obtain ⟨earlier,later,_,reached,_⟩ := path.member present
    have bounded := runs_stored (P := Bounded) reached (fun _ _ _ _ _ fate => fate.bounded)
    have effect : Effect host t.input t.before (perform host t.before t.input) := perform_effect
    rw [ran] at effect
    obtain ⟨early,within⟩ := effect.shown_bounded bounded shown inForce
    exact ⟨early,within.capped,within.few⟩
  renewals := by
    rintro earlier t later rfl id _ _ renewed
    have reached := path.split.1
    have fate : Fate host t.input id _ _ _ := next_fate (runs_numbered reached)
    rw [renewed] at fate
    obtain ⟨a,stored,reviewed⟩ := fate.renews
    obtain ⟨w,held,reflects⟩ := runs_reflect reached id a stored
    obtain ⟨reviewer,confirmedAt,confirmed,timely,other⟩ := reflects.reviewed reviewed
    exact ⟨a,w,reviewer,confirmedAt,stored,held,confirmed,reflects.deadline ▸ timely,other⟩

-- A review that goes through, of an action that has been renewed, by the one who renewed it.
def confirmsOwnRenewal (host : Host) (earlier : Trace) (t : Transition EmergencyActionRegistry Request) : Bool :=
  match t.input.call with
  | .review _ id reviewer .confirm _ =>
    (perform host t.before t.input).toBool && (t.before.actions.get id).any (fun a => decide (0 < a.renewals)) &&
      (windowOf host id earlier).any (fun w => decide (w.actor = host.text.trim reviewer))
  | _ => false

namespace Sample
def later (now : Int) : JsNumber → Option Int
  | .finite seconds =>
    let time : ℚ := now + seconds * 1000
    if -8640000000000000 ≤ time ∧ time ≤ 8640000000000000 then some (time.num.tdiv time.den) else none
  | _ => none

def host : Host := ⟨JsText.plain,fun _ => none,later⟩

def pause (now : Int) (actor : String) (source : Option String) (seconds : JsNumber) : Request :=
  ⟨now,now,.openAction 1 ⟨"pause-feed","feed at risk",actor,some "XLM",source,none,some seconds⟩⟩

def confirm (now : Int) (reviewer : String) : Request := ⟨now,now,.review (fun _ _ => []) 1 reviewer .confirm true⟩

def renew (now : Int) (actor : String) : Request := ⟨now,now,.renew 1 actor none (some 7200)⟩

def renewal (second : String) : List Request := [pause 0 "alice" none 3600,confirm 1 "bob",renew 2 "carol",confirm 3 second]
end Sample

open Sample

theorem renewed_pause_time_bounded : ∃ ts s, Run (total (next host)) .create ts s ∧
    ts.map Transition.input = renewal "bob" ∧ (s.actions.get 1).map (fun a => (a.renewals,a.expiresAt)) = some (1,7200002) ∧
    TimeBounded host ts := by
  have observed : (replay (total (next host)) .create (renewal "bob")).map (fun result =>
      (result.2.actions.get 1).map (fun a => (a.renewals,a.expiresAt))) = .ok (some (1,7200002)) := by decide +kernel
  obtain ⟨ts,s,path,inputs,shown⟩ := Runs.replay_steps observed
  exact ⟨ts,s,path,inputs,shown,powers_time_bounded path⟩

section
variable {host : Host} {request : Request} {s : EmergencyActionRegistry} {ts : Trace} {id : Nat} {a b : EmergencyAction} {w : Window}

def Apart (w : Window) (a : EmergencyAction) : Prop :=
  a.status = .reviewed → ∃ reviewer time, w.confirmed = some (reviewer,time) ∧ reviewer ≠ w.actor

theorem Apart.swept (apart : Apart w a) (time : Int) : Apart w (sweepAction time a) := by
  intro reviewed
  exact apart ((swept_status (isOpen_reviewed reviewed)).symm.trans reviewed)

theorem Deed.apart (deed : Deed host request id b act written) (reflects : Reflects w b) (apart : Apart w b)
    (others : ∀ reviewer time, act = some (.reviewed reviewer .confirm time) → 0 < b.renewals → w.actor ≠ reviewer) :
    ∃ w', Window.record (some w) act = some w' ∧ Apart w' written := by
  cases deed with
  | countersigned called active timely other =>
    rename_i decision _
    cases decision with
    | confirm =>
      refine ⟨_,rfl,fun _ => ⟨_,_,rfl,?_⟩⟩
      rcases Nat.eq_zero_or_pos b.renewals with first | renewed
      · rw [reflects.author first]
        exact other
      · exact (others _ _ rfl renewed).symm
    | overturn => exact ⟨w,rfl,nofun⟩
  | renewed => exact ⟨_,rfl,nofun⟩
  | revoked => exact ⟨w,rfl,nofun⟩
  | disclosed => exact ⟨w,rfl,apart⟩

theorem Fate.apart (fate : Fate host request id before act after)
    (valid : ∀ a, before = some a → ∃ w, window = some w ∧ Reflects w a ∧ Apart w a)
    (others : ∀ reviewer time a w, act = some (.reviewed reviewer .confirm time) → before = some a →
      0 < a.renewals → window = some w → w.actor ≠ reviewer) :
    ∀ a, after = some a → ∃ w, Window.record window act = some w ∧ Apart w a := by
  rintro a rfl
  cases fate with
  | same =>
    obtain ⟨w,rfl,_,apart⟩ := valid a rfl
    exact ⟨w,rfl,apart⟩
  | swept time =>
    obtain ⟨w,rfl,_,apart⟩ := valid _ rfl
    exact ⟨w,rfl,apart.swept time⟩
  | flagged =>
    obtain ⟨w,rfl,_,apart⟩ := valid _ rfl
    exact ⟨w,rfl,apart.swept request.now⟩
  | @did a _ _ deed =>
    obtain ⟨w,rfl,reflects,apart⟩ := valid _ rfl
    apply deed.apart (reflects.swept request.now) (apart.swept request.now)
    intro _ _ reviewed renewed
    obtain ⟨_,_,_,made⟩ := sweepAction_keeps request.now a
    rw [made] at renewed
    exact others _ _ a w reviewed rfl renewed rfl
  | opened opens => exact ⟨_,rfl,fun reviewed => absurd (opens.status.symm.trans reviewed) nofun⟩

theorem actOf_reviewed (reviewed : actOf host s request id = some (.reviewed who decision time)) :
    (perform host s request).toBool = true ∧
      ∃ isRecused reviewer attested, request.call = .review isRecused id reviewer decision attested ∧ host.text.trim reviewer = who := by
  unfold actOf at reviewed
  split at reviewed
  · cases reviewed
  · rename_i ran
    refine ⟨by simpa using ran,?_⟩
    cases called : request.call <;> simp_all

-- If nobody confirms a window that they renewed, a reviewed action was confirmed by another.
theorem windows_reviewed_apart (path : Run (total (next host)) .create ts s)
    (others : ∀ step ∈ pasts [] ts, confirmsOwnRenewal host step.1 step.2 = false) :
    ∀ id a, s.actions.get id = some a → a.status = .reviewed →
      ∃ w reviewer time, windowOf host id ts = some w ∧ w.confirmed = some (reviewer,time) ∧ reviewer ≠ w.actor := by
  have apart : ∀ id a, s.actions.get id = some a → ∃ w, windowOf host id ts = some w ∧ Apart w a := by
    induction path with
    | nil => exact fun _ _ found => (create_stores_none found).elim
    | snoc prior taken ih =>
      cases taken
      simp only [Runs.pasts_snoc,forall_mem_append,forall_mem_singleton,nil_append] at others
      intro id
      rw [windowOf_snoc]
      apply (next_fate (runs_numbered prior)).apart
      · intro a stored
        obtain ⟨w,held,reflects⟩ := runs_reflect prior id a stored
        obtain ⟨_,held',apart⟩ := ih others.1 id a stored
        cases held.symm.trans held'
        exact ⟨w,held,reflects,apart⟩
      · intro _ _ a w reviewed stored renewed held
        obtain ⟨ran,_,_,_,called,rfl⟩ := actOf_reviewed reviewed
        have last := others.2
        simp only [confirmsOwnRenewal,called,stored,held] at last
        simpa [ran,renewed] using last
  intro id a stored reviewed
  obtain ⟨w,held,confirmed⟩ := apart id a stored
  obtain ⟨reviewer,time,by_whom,other⟩ := confirmed reviewed
  exact ⟨w,reviewer,time,held,by_whom,other⟩

end

theorem renewal_confirmed_by_another : ∃ ts s, Run (total (next host)) .create ts s ∧
    (s.actions.get 1).map (fun a => (a.status,a.renewals)) = some (.reviewed,1) ∧
    ∃ w reviewer time, windowOf host 1 ts = some w ∧ w.confirmed = some (reviewer,time) ∧ reviewer ≠ w.actor := by
  have observed : (replay (total (next host)) .create (renewal "bob")).map (fun result =>
      ((result.2.actions.get 1).map (fun a => (a.status,a.renewals)),
        (pasts [] result.1).all (fun step => !confirmsOwnRenewal host step.1 step.2))) = .ok (some (.reviewed,1),true) := by
    decide +kernel
  obtain ⟨ts,s,path,shown,others⟩ := Runs.replay_pair observed
  obtain ⟨a,stored,status⟩ := Option.map_eq_some_iff.mp shown
  refine ⟨ts,s,path,shown,?_⟩
  refine windows_reviewed_apart path ?_ 1 a stored (Prod.mk.inj status).1
  intro step among
  simpa using all_eq_true.mp others step among

-- The author is kept from reviewing the action, the one who renewed it is not.
theorem renewer_confirms_own_window : ∃ ts s a w time, Run (total (next host)) .create ts s ∧
    ts.map Transition.input = renewal "carol" ∧ s.actions.get 1 = some a ∧ a.status = .reviewed ∧
    windowOf host 1 ts = some w ∧ w.confirmed = some (w.actor,time) := by
  have observed : (replay (total (next host)) .create (renewal "carol")).map (fun result =>
      ((result.2.actions.get 1).map EmergencyAction.status,
        (windowOf host 1 result.1).map (fun w => (w.actor,w.confirmed)))) = .ok (some .reviewed,some ("carol",some ("carol",3))) := by
    decide +kernel
  obtain ⟨ts,s,path,inputs,shown⟩ := Runs.replay_steps observed
  obtain ⟨status,confirmed⟩ := Prod.mk.inj shown
  obtain ⟨a,stored,reviewed⟩ := Option.map_eq_some_iff.mp status
  obtain ⟨w,held,both⟩ := Option.map_eq_some_iff.mp confirmed
  obtain ⟨author,by_author⟩ := Prod.mk.inj both
  exact ⟨ts,s,a,w,3,path,inputs,stored,reviewed,held,by rw [author,by_author]⟩

end StellarPriceOracle.EmergencyActions
