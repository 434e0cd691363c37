import StellarPriceOracle.WebhookCircuit

namespace StellarPriceOracle.WebhookDelivery
open WebhookQueue WebhookDispatch Dispatch Guarded
open Runs (Run)
open InsertionMap (get_of_remove values get_exact)
open List
open Prod (fst mk snd)

section
variable {π : Type} [Inhabited π] {config : Config} {s : Service π} {now : Int} {ts : List (Runs.Transition (Service π) (Event π))}

def Waits (s : Service π) (job : Nat) : Prop :=
  ∃ dest ∈ s.dests.get (s.jobs job).webhookId, job ∈ (s.queues dest).pending

instance (s : Service π) (job : Nat) : Decidable (Waits s job) :=
  inferInstanceAs (Decidable (∃ dest ∈ s.dests.get (s.jobs job).webhookId, job ∈ (s.queues dest).pending))

def outcomes (s : Service π) (job : Nat) : List Dispatch.Outcome := endings (s.history.map snd) job

omit [Inhabited π] in
theorem waits_of (attached : Attached s) (mem : job ∈ (board s).queue lane) : Waits s job := by
  simp only [board] at mem
  split at mem
  · rename_i got
    exact ⟨lane,(attached.addressed lane job mem).2 ▸ got,mem⟩
  · cases mem

-- Every job that has left its queue has ended in one way, and its promise is resolved.
theorem jobs_accounted (path : Run (step config) (Service.start now) ts s) (calm : ∀ t ∈ ts, Calm config t) :
    ∀ job < s.enqueued, ¬ Waits s job → (s.jobs job).settled = true ∧ ∃ outcome, outcomes s job = [outcome] ∧
      ∀ attempt, outcome = .exhausted attempt → (attempt : Int) = max 1 config.maxRetries := by
  obtain ⟨standing,attached⟩ := runs_standing path
  intro job known left
  obtain ⟨settled,outcome,ended,_,exhausted⟩ := (runs_accounted path calm).left job known (fun _ listed => left (waits_of attached listed))
  refine ⟨settled,outcome,ended,?_⟩
  intro attempt same
  obtain ⟨⟨last,_⟩,tries⟩ := exhausted attempt same
  have most := standing.limited job
  rw [← tries] at most
  unfold again at last
  unfold limit at most
  omega
end

namespace Sample
def config : Config := ⟨1000,60000,2,1,1,1,60000⟩

def run (events : List (Event Unit)) := Runs.replay (step config) (Service.start 0) events

def delivered : List (Event Unit) := [.register "w",.enqueue "w" (),.attemptSettles 0 (some "HTTP 500"),.wait 1000,.timerFires 0,
  .attemptSettles 1 none]

def another : List (Event Unit) := delivered ++ [.enqueue "w" ()]

-- The second job finds the queue full of the first, which is in flight.
def overflowing : List (Event Unit) := [.register "w",.enqueue "w" (),.enqueue "w" (),.attemptSettles 0 none]
end Sample

open Sample

theorem retried_job_accounted : ∃ ts s, Run (step config) (Service.start 0 : Service Unit) ts s ∧ 0 < s.enqueued ∧ ¬ Waits s 0 ∧
    (s.jobs 0).settled = true ∧ ∃ outcome, outcomes s 0 = [outcome] := by
  have observed : (run delivered).map (fun result =>
      (result.1.all (fun t => decide (Calm config t)),result.2.enqueued,decide (Waits result.2 0))) = .ok (true,1,false) := by decide +kernel
  obtain ⟨ts,s,path,shown⟩ := Runs.replay_observed observed
  simp only [mk.injEq,all_eq_true,decide_eq_true_eq,decide_eq_false_iff_not] at shown
  obtain ⟨calm,_,left⟩ := shown
  have known : 0 < s.enqueued := by omega
  obtain ⟨settled,outcome,ended,_⟩ := jobs_accounted path calm 0 known left
  exact ⟨ts,s,path,known,left,settled,outcome,ended⟩

theorem overflow_loses_job : ∃ ts s, Run (step config) (Service.start 0 : Service Unit) ts s ∧ 1 < s.enqueued ∧ ¬ Waits s 1 ∧
    (s.jobs 1).settled = false ∧ outcomes s 1 = [] ∧ outcomes s 0 = [.dropped,.delivered] := by
  have observed : (run overflowing).map (fun result =>
      (result.2.enqueued,decide (Waits result.2 1),(result.2.jobs 1).settled,outcomes result.2 1,outcomes result.2 0)) =
      .ok (2,false,false,[],[.dropped,.delivered]) := by decide +kernel
  obtain ⟨ts,s,path,shown⟩ := Runs.replay_observed observed
  simp only [mk.injEq,decide_eq_false_iff_not] at shown
  obtain ⟨_,left,shown⟩ := shown
  exact ⟨ts,s,path,by omega,left,shown⟩

section
variable {π : Type}

structure Homed (s : Service π) : Prop where
  attempts : ∀ number a, s.attempts.get number = some a → Known s a.dest
  history : ∀ entry ∈ s.history, Known s entry.2.lane

theorem homed_of (wired : ∀ w, WebhookCircuit.Wired w s) : Homed s :=
  ⟨fun number a got => ⟨_,(wired _).queues a.dest ((wired "").attempts number a got).1 rfl⟩,
    fun entry mem => ⟨_,(wired _).queues entry.2.lane ((wired "").notes entry mem) rfl⟩⟩

def firstAttempts (s : Service π) (webhookId : String) : List Nat := s.history.filterMap (fun entry =>
  match entry.2 with
  | .started dest job 1 => if (s.queues dest).webhookId = webhookId then some job else none
  | _ => none)

def attemptsOf (s : Service π) (job : Nat) : Nat := starts (s.history.map snd) job

theorem firstAttempts_lane (attached : Attached s) (homed : Homed s) (got : s.dests.get webhookId = some dest) :
    firstAttempts s webhookId = firsts (board s).log dest := by
  simp only [firstAttempts,firsts,board,filterMap_map]
  apply filterMap_congr
  intro entry mem
  have same : (s.queues entry.2.lane).webhookId = webhookId ↔ entry.2.lane = dest := by
    have own := attached.named (homed.history entry mem)
    constructor
    · intro named
      rw [named,got] at own
      exact (Option.some.inj own).symm
    · rintro rfl
      exact (attached.opened webhookId _ got).2
  obtain ⟨_,happened⟩ := entry
  cases happened with
  | ended => rfl
  | started _ _ attempt =>
    rcases attempt with _ | _ | attempt
    · rfl
    · exact if_congr same rfl rfl
    · rfl

theorem firstAttempts_none (attached : Attached s) (homed : Homed s) (absent : s.dests.get webhookId = none) :
    firstAttempts s webhookId = [] := by
  rw [firstAttempts,filterMap_eq_nil_iff]
  intro entry mem
  split
  · rename_i lane job happened
    rw [if_neg]
    rintro rfl
    have own := attached.named (homed.history entry mem)
    rw [happened] at own
    rw [show (Note.started lane job 1).lane = lane from rfl,absent] at own
    cases own
  · rfl
end

section
variable {π : Type} [Inhabited π] {config : Config} {s : Service π} {now : Int} {ts : List (Runs.Transition (Service π) (Event π))}

-- Attempts in flight, their order and their number, while no registration is removed.
theorem dispatch_bounded (path : Run (step config) (Service.start now) ts s) (kept : ∀ t ∈ ts, ∀ id, t.input ≠ .remove id) :
    (s.attempts.values.length : Int) ≤ max 1 config.maxConcurrent ∧
    (∀ number other a b, s.attempts.get number = some a → s.attempts.get other = some b →
      (s.queues a.dest).webhookId = (s.queues b.dest).webhookId → number = other) ∧
    (∀ webhookId, (firstAttempts s webhookId).Pairwise (· < ·)) ∧
    ∀ job, (attemptsOf s job : Int) ≤ max 1 config.maxRetries := by
  obtain ⟨standing,attached⟩ := runs_standing path
  have homed := homed_of (fun w => WebhookCircuit.runs_wired path (fun t present => kept t present w))
  refine ⟨?_,?_,?_,?_⟩
  · have counted := standing.counted
    have bounded := standing.bounded
    simp only [board,length_map] at counted bounded
    unfold maxInFlight at bounded
    omega
  · intro number other a b first second same
    have lane : a.dest = b.dest := by
      have mine := attached.named (homed.attempts number a first)
      rw [same,attached.named (homed.attempts other b second)] at mine
      exact (Option.some.inj mine).symm
    have alone := standing.alone
    simp only [board,values,map_map] at alone
    have entry := inj_on_of_nodup_map alone (get_exact.mp first) (get_exact.mp second) lane
    exact congrArg fst entry
  · intro webhookId
    cases found : s.dests.get webhookId with
    | none => simp [firstAttempts_none attached homed found]
    | some dest =>
      rw [firstAttempts_lane attached homed found]
      exact (standing.first dest).1
  · intro job
    have tried := standing.tried job
    have most := standing.limited job
    rw [show attemptsOf s job = starts (board s).log job from rfl,tried,← limit_exact]
    split <;> omega
end

theorem two_jobs_in_order : ∃ ts s, Run (step config) (Service.start 0 : Service Unit) ts s ∧ s.attempts.values.length = 1 ∧
    (s.attempts.values.length : Int) ≤ max 1 config.maxConcurrent ∧ firstAttempts s "w" = [0,1] ∧
    (firstAttempts s "w").Pairwise (· < ·) ∧ (attemptsOf s 0 : Int) ≤ max 1 config.maxRetries := by
  have observed : (run another).map (fun result => (result.2.attempts.values.length,firstAttempts result.2 "w")) =
      .ok (1,[0,1]) := by decide +kernel
  obtain ⟨ts,s,path,inputs,shown⟩ := Runs.replay_steps observed
  simp only [mk.injEq] at shown
  obtain ⟨aloft,first⟩ := shown
  have kept : ∀ t ∈ ts, ∀ id, t.input ≠ .remove id := by
    intro t present _ removes
    have listed : t.input ∈ another := inputs ▸ mem_map_of_mem present
    simp [removes,another,delivered] at listed
  obtain ⟨bounded,_,ordered,limited⟩ := dispatch_bounded path kept
  exact ⟨ts,s,path,aloft,bounded,first,ordered "w",limited 0⟩

section
variable {π : Type} {config : Config} {s start next : Service π} {ts : List (Runs.Transition (Service π) (Event π))}

-- All slots are taken, or no destination could use one.
def Saturated (config : Config) (s : Service π) : Prop := maxInFlight config ≤ s.inFlight ∨ nextReady s = none

def changesRegistry : Event π → Bool
  | .merge _ => true
  | .register _ => true
  | _ => false

theorem Saturated.fewer (saturated : Saturated config s) (aloft : next.inFlight = s.inFlight) (queues : next.queues = s.queues)
    (objects : next.objects = s.objects) (listed : ∀ dest ∈ next.dests.values, dest ∈ s.dests.values)
    (mirror : ∀ id webhook, next.webhooks.get id = some webhook → s.webhooks.get id = some webhook) : Saturated config next := by
  rcases saturated with full | none
  · exact .inl (aloft ▸ full)
  · refine .inr (find?_eq_none.mpr ?_)
    intro dest mem can
    refine find?_eq_none.mp none dest (listed dest mem) ?_
    simp only [isReady,Service.mirrored,queues,objects,Bool.and_eq_true,Option.any_eq_true] at can ⊢
    obtain ⟨waits,webhook,got,able⟩ := can
    exact ⟨waits,webhook,mirror _ _ got,able⟩

theorem Saturated.remove (saturated : Saturated config s) (id : String) : Saturated config (WebhookQueue.remove s id) := by
  unfold WebhookQueue.remove dropDestination
  split
  · exact saturated
  · split
    · exact saturated.fewer rfl rfl rfl (fun _ mem => mem) (fun _ _ => get_of_remove)
    · exact saturated.fewer rfl rfl rfl (fun _ => InsertionMap.mem_values_remove) (fun _ _ => get_of_remove)

theorem step_saturated (quiet : changesRegistry event = false) (ran : step config s event = .ok next) (saturated : Saturated config s) :
    Saturated config next := by
  cases event with
  | wait => cases ran; exact saturated
  | enqueue => cases ran; exact pump_settles ..
  | attemptSettles =>
    obtain ⟨a,_,ran⟩ := bind_ok.mp ran
    cases ran
    unfold finishJob
    repeat' split
    all_goals exact pump_settles ..
  | timerFires =>
    obtain ⟨_,_,ran⟩ := bind_ok.mp ran
    obtain ⟨_,_,ran⟩ := bind_ok.mp ran
    cases ran
    exact pump_settles ..
  | remove => cases ran; exact saturated.remove _
  | merge | register => cases quiet

theorem slots_kept_busy (path : Run (step config) start ts s) (saturated : Saturated config start)
    (still : ∀ t ∈ ts, changesRegistry t.input = false) : Saturated config s :=
  path.invariant_of still saturated (fun _ => step_saturated)
end

def Sample.registered : Service Unit := (register (.start 0) "w").toOption.getD (.start 0)

theorem first_job_takes_slot : ∃ ts s, Run (step config) registered ts s ∧ s.inFlight = 1 ∧ Saturated config s := by
  have observed : (Runs.replay (step config) registered [.enqueue "w" (),.enqueue "w" ()]).map (fun result =>
      (result.1.all (fun t => changesRegistry t.input = false),result.2.inFlight)) = .ok (true,1) := by decide +kernel
  obtain ⟨ts,s,path,still,aloft⟩ := Runs.replay_pair observed
  exact ⟨ts,s,path,aloft,slots_kept_busy path (.inr (by decide +kernel)) (by simpa using still)⟩

end StellarPriceOracle.WebhookDelivery
