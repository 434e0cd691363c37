import StellarPriceOracle.Library.Runs

namespace StellarPriceOracle.PollLoop
open Guarded
open List
open Runs (Run states)

-- index.ts: the self-scheduling poll loop, in microseconds.
abbrev PollingInterval := {ms : Nat // 100 ≤ ms ∧ ms ≤ 3600000}

def ms (count : Nat) : Nat := count * 1000

-- `setTimeout` drops the fraction of a millisecond from its delay.
def timerDelay (delay : Nat) : Nat := ms (delay / 1000)

structure Poll where
  (number started : Nat)
  deriving DecidableEq

structure Cycle where
  (poll cycleStart : Nat)
  deriving DecidableEq

structure Loop where
  now : Nat
  (isPolling isShuttingDown : Bool)
  consecutiveOverruns : Nat
  pollTimeout : Option Nat
  cycle : Option Cycle
  started : Nat
  inFlight : List Poll

inductive Event where
  | timer
  | pollSettles (number : Nat) (fulfilled : Bool)
  | deadline
  | flipReadiness
  | stopScheduledWork
  deriving DecidableEq

structure Occurrence where
  time : Nat
  event : Event

inductive Impossible where
  | past | notDue | notRunning

section
variable (interval : PollingInterval)

def Loop.start : Loop := ⟨0,false,false,0,some (timerDelay (ms interval)),none,0,[]⟩

def deadlineMs : Nat := max (ms 10000) (interval * 1500)

def finishCycle (s : Loop) (c : Cycle) : Loop :=
  let elapsed := s.now - c.cycleStart
  let overruns := if elapsed > ms interval then s.consecutiveOverruns + 1 else 0
  let timeout := if s.isShuttingDown then s.pollTimeout
    else some (s.now + timerDelay (max (ms 1000) (ms interval - elapsed)))
  {s with isPolling := false, consecutiveOverruns := overruns, pollTimeout := timeout, cycle := none}

def executeCycle (s : Loop) : Loop :=
  if s.isShuttingDown then s
  else if s.isPolling then {s with consecutiveOverruns := s.consecutiveOverruns + 1}
  else {s with
    isPolling := true
    cycle := some ⟨s.started,s.now⟩
    started := s.started + 1
    inFlight := s.inFlight ++ [⟨s.started,s.now⟩]}

def settle (s : Loop) (number : Nat) : Loop := {s with inFlight := s.inFlight.filter (fun p => p.number ≠ number)}

-- A timer fires at its due time or later. A poll that loses the race keeps running.
def react (s : Loop) : Event → Except Impossible Loop
  | .timer => do
    let due ← someOr s.pollTimeout .notDue
    require (due ≤ s.now) .notDue
    .ok (executeCycle {s with pollTimeout := none})
  | .pollSettles number _ => do
    require (∃ p ∈ s.inFlight, p.number = number) .notRunning
    match s.cycle with
    | some c => if c.poll = number then .ok (finishCycle interval (settle s number) c) else .ok (settle s number)
    | none => .ok (settle s number)
  | .deadline => do
    let c ← someOr s.cycle .notRunning
    require (c.cycleStart + timerDelay (deadlineMs interval) ≤ s.now) .notDue
    .ok (finishCycle interval s c)
  | .flipReadiness => .ok {s with isShuttingDown := true}
  | .stopScheduledWork => .ok {s with pollTimeout := none}

def step (s : Loop) (o : Occurrence) : Except Impossible Loop := do
  require (s.now ≤ o.time) .past
  react interval {s with now := o.time} o.event

abbrev Trace := List (Runs.Transition Loop Occurrence)

-- Every poll settles in less than `limit`.
def SettleWithin (limit : Nat) (ts : Trace) : Prop :=
  ∀ t ∈ ts, ∀ p ∈ t.before.inFlight, t.input.time < p.started + limit

instance : Decidable (SettleWithin limit ts) := inferInstanceAs (Decidable (∀ t ∈ ts, _))

-- The earliest that a tick can follow a poll that has missed its deadline.
def grace : Nat := timerDelay (deadlineMs interval) + ms 1000

end

structure SingleFlight (interval : PollingInterval) (s : Loop) : Prop where
  single : s.inFlight.length ≤ 1
  busy : ∀ c, s.cycle = some c → s.pollTimeout = none ∧ s.inFlight = [⟨c.poll,c.cycleStart⟩]
  waiting : s.cycle = none → ∀ due, s.pollTimeout = some due → ∀ p ∈ s.inFlight, p.started + grace interval ≤ due

section
variable {interval : PollingInterval} {s : Loop}

theorem finishCycle_flight (single : s.inFlight.length ≤ 1) (unset : s.pollTimeout = none)
    (room : ∀ p ∈ s.inFlight, p.started + timerDelay (deadlineMs interval) ≤ s.now) :
    SingleFlight interval (finishCycle interval s c) := by
  refine ⟨single,?_,?_⟩
  · intro _ running
    cases running
  · intro _ _ timed p mem
    have late := room p mem
    simp only [finishCycle] at timed
    split at timed
    · cases unset.symm.trans timed
    · have delay : ms 1000 ≤ timerDelay (max (ms 1000) (ms interval - (s.now - c.cycleStart))) := by
        simp only [timerDelay,ms]
        omega
      cases timed
      simp only [grace]
      omega

theorem executeCycle_flight (idle : s.cycle = none) (unset : s.pollTimeout = none) (settled : s.inFlight = []) :
    SingleFlight interval (executeCycle s) := by
  unfold executeCycle
  split
  · exact ⟨by simp [settled],by simp [idle],by simp [settled]⟩
  · split
    · exact ⟨by simp [settled],by simp [idle],by simp [settled]⟩
    · refine ⟨by simp [settled],?_,by simp⟩
      intro c running
      cases running
      exact ⟨unset,by simp [settled]⟩

theorem settle_flight (flight : SingleFlight interval s) (foreign : ∀ c, s.cycle = some c → c.poll ≠ number) :
    SingleFlight interval (settle s number) := by
  refine ⟨Nat.le_trans (length_filter_le _ _) flight.single,?_,?_⟩
  · intro c running
    obtain ⟨unset,alone⟩ := flight.busy c running
    exact ⟨unset,by simp [settle,alone,foreign c running]⟩
  · intro idle due timed p mem
    exact flight.waiting idle due timed p (mem_of_mem_filter mem)

theorem react_flight (done : react interval s event = .ok s') (flight : SingleFlight interval s)
    (young : ∀ p ∈ s.inFlight, s.now < p.started + grace interval) : SingleFlight interval s' := by
  cases event with
  | timer =>
    simp only [react,bind_ok,someOr_ok,require_ok] at done
    obtain ⟨due,timed,_,reached,done⟩ := done
    cases done
    have idle : s.cycle = none := by
      cases running : s.cycle with
      | none => rfl
      | some c =>
        rw [(flight.busy c running).1] at timed
        cases timed
    have settled : s.inFlight = [] := by
      apply eq_nil_iff_forall_not_mem.mpr
      intro p mem
      have late := flight.waiting idle due timed p mem
      have early := young p mem
      omega
    exact executeCycle_flight idle rfl settled
  | pollSettles number =>
    obtain ⟨_,done⟩ := guard_ok.mp done
    cases running : s.cycle with
    | none =>
      simp only [running] at done
      cases done
      exact settle_flight flight (by simp [running])
    | some c =>
      simp only [running] at done
      split at done
      · rename_i own
        cases done
        obtain ⟨unset,alone⟩ := flight.busy c running
        have settled : (settle s number).inFlight = [] := by simp [settle,alone,own]
        exact finishCycle_flight (by simp [settled]) unset (by simp [settled])
      · rename_i foreign
        cases done
        exact settle_flight flight (by simpa [running] using foreign)
  | deadline =>
    simp only [react,bind_ok,someOr_ok,require_ok] at done
    obtain ⟨c,running,_,reached,done⟩ := done
    obtain ⟨unset,alone⟩ := flight.busy c running
    cases done
    apply finishCycle_flight flight.single unset
    simpa [alone] using reached
  | flipReadiness =>
    cases done
    exact {flight with}
  | stopScheduledWork =>
    cases done
    refine ⟨flight.single,?_,fun _ _ timed => (by cases timed)⟩
    intro c running
    exact ⟨rfl,(flight.busy c running).2⟩

theorem step_flight (ran : step interval s o = .ok s') (flight : SingleFlight interval s)
    (young : ∀ p ∈ s.inFlight, o.time < p.started + grace interval) : SingleFlight interval s' := by
  obtain ⟨_,done⟩ := guard_ok.mp ran
  exact react_flight done {flight with} young

theorem start_flight : SingleFlight interval (.start interval) := by
  refine ⟨Nat.zero_le _,fun c running => (by cases running),?_⟩
  intro _ _ _ p mem
  cases mem

theorem runs_flight (path : Run (step interval) (.start interval) ts s) (within : SettleWithin (grace interval) ts) :
    ∀ r ∈ states (.start interval) ts, r.inFlight.length ≤ 1 := by
  have flights := path.always within start_flight (P := SingleFlight interval) (fun t young ran flight =>
    step_flight ran flight young)
  intro r visited
  exact (flights r visited).single

theorem timer_starts (interval : PollingInterval) (idle : s.isPolling = false) (serving : s.isShuttingDown = false) (timed : s.pollTimeout = some due)
    (reached : s.now ≤ due) : step interval s ⟨due,.timer⟩ = .ok {s with
      now := due
      pollTimeout := none
      isPolling := true
      cycle := some ⟨s.started,due⟩
      started := s.started + 1
      inFlight := s.inFlight ++ [⟨s.started,due⟩]} := by
  simp [step,react,require,someOr,executeCycle,idle,serving,timed,reached,ok_bind]

theorem deadline_abandons (interval : PollingInterval) (running : s.cycle = some c) (started : s.now ≤ c.cycleStart + timerDelay (deadlineMs interval)) :
    step interval s ⟨c.cycleStart + timerDelay (deadlineMs interval),.deadline⟩ =
      .ok (finishCycle interval {s with now := c.cycleStart + timerDelay (deadlineMs interval)} c) := by
  simp [step,react,require,someOr,running,started,ok_bind]

theorem deadline_late : ms interval ≤ timerDelay (deadlineMs interval) := by
  obtain ⟨i,_⟩ := interval
  simp only [timerDelay,deadlineMs,ms]
  omega

theorem finishCycle_timeout (serving : s.isShuttingDown = false) (late : ms interval ≤ s.now - c.cycleStart) :
    (finishCycle interval s c).pollTimeout = some (s.now + ms 1000) := by
  have delay : timerDelay (max (ms 1000) (ms interval - (s.now - c.cycleStart))) = ms 1000 := by
    rw [Nat.sub_eq_zero_of_le late,Nat.max_eq_left (Nat.zero_le _)]
    rfl
  simp [finishCycle,serving,delay]

def polling (interval : PollingInterval) (now : Nat) : Loop :=
  ⟨now,true,false,0,none,some ⟨0,timerDelay (ms interval)⟩,1,[⟨0,timerDelay (ms interval)⟩]⟩

theorem overlap_after_grace (interval : PollingInterval) : ∃ ts s, Run (step interval) (.start interval) ts s ∧
    (∀ t ∈ ts, ∀ p ∈ t.before.inFlight, t.input.time ≤ p.started + grace interval) ∧ s.inFlight.length = 2 := by
  have first : step interval (.start interval) ⟨timerDelay (ms interval),.timer⟩ =
      .ok (polling interval (timerDelay (ms interval))) := timer_starts interval rfl rfl rfl (Nat.zero_le _)
  have abandoned := deadline_abandons interval (s := polling interval (timerDelay (ms interval))) rfl
    (Nat.le_add_right _ _)
  have late : ms interval ≤ timerDelay (ms interval) + timerDelay (deadlineMs interval) - timerDelay (ms interval) := by
    rw [Nat.add_sub_cancel_left]
    exact deadline_late
  have timed := finishCycle_timeout (c := ⟨0,timerDelay (ms interval)⟩)
    (s := polling interval (timerDelay (ms interval) + timerDelay (deadlineMs interval))) rfl late
  have second := timer_starts interval rfl rfl timed (Nat.le_add_right _ _)
  refine ⟨_,_,.snoc (.snoc (.snoc .nil first) abandoned) second,?_,rfl⟩
  simp [Loop.start,polling,finishCycle,grace,Nat.add_assoc]

theorem single_flight_exact (interval : PollingInterval) (limit : Nat) :
    (∀ ts s, Run (step interval) (.start interval) ts s → SettleWithin limit ts →
      ∀ r ∈ states (.start interval) ts, r.inFlight.length ≤ 1) ↔ limit ≤ grace interval := by
  constructor
  · intro single
    by_contra beyond
    obtain ⟨ts,s,path,ages,_⟩ := overlap_after_grace interval
    have within : SettleWithin limit ts := by
      intro t present p running
      exact Nat.lt_of_le_of_lt (ages t present p running) (Nat.add_lt_add_left (Nat.not_le.mp beyond) _)
    have one := single ts s path within s path.last_visited
    omega
  · intro bounded _ s path within
    apply runs_flight path
    intro t present p running
    exact Nat.lt_of_lt_of_le (within t present p running) (Nat.add_le_add_left bounded _)

end

namespace Sample
def interval : PollingInterval := ⟨30000,by decide⟩

-- The first poll hangs; its deadline passes after 45 seconds, the next tick is due one later.
def hanging : List Occurrence := [⟨ms 30000,.timer⟩,⟨ms 75000,.deadline⟩,⟨ms 76000,.timer⟩]
end Sample

open Sample

theorem hanging_poll_overlaps : ∃ ts s, Run (step interval) (.start interval) ts s ∧
    s.inFlight = [⟨0,ms 30000⟩,⟨1,ms 76000⟩] := by
  have replayed : (Runs.replay (step interval) (.start interval) hanging).map (fun result =>
      result.2.inFlight) = .ok [⟨0,ms 30000⟩,⟨1,ms 76000⟩] := by rfl
  obtain ⟨ts,s,path,observed⟩ := Runs.replay_observed replayed
  exact ⟨ts,s,path,observed⟩

end StellarPriceOracle.PollLoop
