import StellarPriceOracle.Library.Runs

namespace StellarPriceOracle.RegionFailback
open Guarded
open List

-- replication/region-quarantine.ts. Percentages are only compared.
inductive RegionFailbackState where
  | stablePrimary | failedOver | awaitingStability | reconciling | failingBack
  deriving DecidableEq

structure RegionConfig where
  driftAlertPercent : Rat
  quarantineEnabled : Bool
  quarantineRecoverPercent : Rat
  failbackEnabled : Bool
  failbackStabilityWindowMs : Int
  (hasReconciler hasEpochStore : Bool)

structure DriftReport where
  maxDriftPercent : Rat
  driftKnown : Bool

inductive Reason where
  | drift (maxDriftPercent driftAlertPercent : Rat)
  | newerEpoch (epoch : Int)
  deriving DecidableEq

structure RegionQuarantineStatus where
  quarantined : Bool
  reason : Option Reason
  epoch : Int
  fenced : Bool

inductive Mark where
  | regressed
  | moved (source target : RegionFailbackState)
  | transferred
  deriving DecidableEq

-- `failbackInFlight` together with the promise that the failback awaits.
inductive Flight where
  | reconcile | bumpEpoch
  deriving DecidableEq

structure Manager where
  status : RegionQuarantineStatus
  failbackState : RegionFailbackState
  publisherEpoch : Int
  stableSince : Option Int
  lastTransitionAt : Int
  flight : Option Flight
  log : List Mark

@[simp] def Manager.start (now : Int) : Manager := ⟨⟨false,none,0,false⟩,.stablePrimary,0,none,now,none,[]⟩

def transitionTo (s : Manager) (target : RegionFailbackState) (now : Int) : Manager :=
  if s.failbackState = target then s
  else {s with failbackState := target, lastTransitionAt := now, log := s.log ++ [.moved s.failbackState target]}

def nextState (config : RegionConfig) (s : Manager) (report : DriftReport) : Bool :=
  if ¬ config.quarantineEnabled then false
  else if report.maxDriftPercent > config.driftAlertPercent then true
  else
    let recovered := report.driftKnown && report.maxDriftPercent ≤ config.quarantineRecoverPercent
    s.status.quarantined && !recovered

def transferAuthority (s : Manager) (now nextEpoch : Int) : Manager :=
  let s := {s with publisherEpoch := nextEpoch, stableSince := none, flight := none, log := s.log ++ [.transferred]}
  transitionTo s .stablePrimary now

def bumpEpoch (config : RegionConfig) (s : Manager) (now : Int) : Manager :=
  if config.hasEpochStore then {s with flight := some .bumpEpoch}
  else transferAuthority s now (s.publisherEpoch + 1)

section
variable (config : RegionConfig)

def runReconcileAndFailback (s : Manager) (now : Int) : Manager :=
  if s.flight.isSome then s
  else if s.failbackState = .reconciling then
    if config.hasReconciler then {s with flight := some .reconcile}
    else bumpEpoch config (transitionTo s .failingBack now) now
  else bumpEpoch config s now

def advanceFailback (s : Manager) (now : Int) (report : DriftReport) (quarantined : Bool) : Manager :=
  let driftAboveAlert : Bool := report.maxDriftPercent > config.driftAlertPercent
  let driftStable := report.driftKnown && report.maxDriftPercent ≤ config.quarantineRecoverPercent
  if ¬ config.failbackEnabled then s
  else if quarantined || driftAboveAlert then
    transitionTo {s with stableSince := none, log := s.log ++ [.regressed]} .failedOver now
  else match s.failbackState with
    | .stablePrimary => s
    | .failedOver =>
      if ¬ driftStable then s else transitionTo {s with stableSince := some now} .awaitingStability now
    | .awaitingStability =>
      if ¬ driftStable then transitionTo {s with stableSince := none} .failedOver now
      else
        let since := s.stableSince.getD now
        let s := {s with stableSince := some since}
        if now - since < config.failbackStabilityWindowMs then s
        else runReconcileAndFailback config (transitionTo s .reconciling now) now
    | .reconciling => runReconcileAndFailback config s now
    | .failingBack => runReconcileAndFailback config s now

def evaluate (s : Manager) (now : Int) (report : DriftReport) (degradedFeeds : Bool) : Manager :=
  let quarantined := nextState config s report || degradedFeeds
  let reason := if quarantined then
      if s.status.quarantined then s.status.reason else some (.drift report.maxDriftPercent config.driftAlertPercent)
    else none
  advanceFailback config {s with status := {s.status with quarantined := quarantined, reason := reason}} now report quarantined

def observeEpoch (s : Manager) (epoch : Int) : Manager :=
  if epoch < 0 then s
  else if epoch > s.status.epoch then
    let reason := if s.status.quarantined then s.status.reason else some (.newerEpoch epoch)
    {s with status := {s.status with epoch := epoch, fenced := true, reason := reason}}
  else s

inductive Event where
  | evaluate (now : Int) (report : DriftReport) (degradedFeeds : Bool)
  | reconciled (now : Int) (converged : Bool)
  | reconcileFailed
  | epochBumped (now : Int) (epoch : Int)
  | bumpFailed
  | observeEpoch (epoch : Int)

inductive Impossible where
  | notAwaited
  deriving DecidableEq

def step (s : Manager) : Event → Except Impossible Manager
  | .evaluate now report degradedFeeds => .ok (evaluate config s now report degradedFeeds)
  | .reconciled now converged => do
    require (s.flight = some .reconcile) .notAwaited
    if converged then .ok (bumpEpoch config (transitionTo s .failingBack now) now) else .ok {s with flight := none}
  | .reconcileFailed => do
    require (s.flight = some .reconcile) .notAwaited
    .ok {s with flight := none}
  | .epochBumped now epoch => do
    require (s.flight = some .bumpEpoch) .notAwaited
    .ok (transferAuthority s now epoch)
  | .bumpFailed => do
    require (s.flight = some .bumpEpoch) .notAwaited
    .ok {s with flight := none}
  | .observeEpoch epoch => .ok (observeEpoch s epoch)

end

-- The machine leaves `failed_over` when drift is back under the threshold; other ways out are a stale failback going on.
def leaves : Mark → Bool
  | .moved .failedOver .awaitingStability => true
  | _ => false

@[simp] def sinceLeaving (log : List Mark) : List Mark := log.reverse.takeWhile (fun mark => !leaves mark)

@[simp] def Undisturbed (log : List Mark) : Prop := .regressed ∉ sinceLeaving log

instance : Decidable (Undisturbed log) := inferInstanceAs (Decidable (¬ _))

def completes : Mark → Bool
  | .moved _ .stablePrimary => true
  | .transferred => true
  | _ => false

-- A failback completes only when nothing regressed since the machine last left `failed_over`.
def RegressionsAbort (log : List Mark) : Prop :=
  ∀ before mark after, log = before ++ mark :: after → completes mark = true → Undisturbed before

-- A failback goes on after its await, `reconcile` or `bumpEpoch`, and finds the machine failed over again.
def ResumedWhileFailedOver (t : Runs.Transition Manager Event) : Bool :=
  match t.input with
  | .reconciled _ converged => converged && t.before.failbackState = .failedOver
  | .epochBumped _ _ => t.before.failbackState = .failedOver
  | _ => false

theorem undisturbed_leaves : Undisturbed (log ++ [.moved .failedOver .awaitingStability]) := by
  simp [leaves]

theorem Undisturbed.snoc (calm : Undisturbed log) (harmless : mark ≠ .regressed) : Undisturbed (log ++ [mark]) := by
  unfold Undisturbed sinceLeaving at calm ⊢
  rw [reverse_append]
  simp only [reverse_singleton,singleton_append,takeWhile_cons]
  split
  · intro mem
    rcases mem_cons.mp mem with same | old
    · exact harmless same.symm
    · exact calm old
  · exact not_mem_nil

theorem regressionsAbort_snoc : RegressionsAbort (log ++ [mark]) ↔
    RegressionsAbort log ∧ (completes mark = true → Undisturbed log) := by
  constructor
  · intro abort
    refine ⟨?_,abort log mark [] rfl⟩
    intro before other after cut
    exact abort before other (after ++ [mark]) (by simp [cut])
  · rintro ⟨abort,last⟩ before other after cut
    rcases eq_nil_or_concat after with rfl | ⟨front,final,rfl⟩
    · obtain ⟨rfl,same⟩ := append_inj' cut rfl
      cases singleton_inj.mp same
      exact last
    · have shorter : log ++ [mark] = (before ++ other :: front) ++ [final] := by simpa using cut
      exact abort before other front (append_inj' shorter rfl).1

-- A regression puts the machine into `failed_over`, so outside of it all is calm.
structure Calm (s : Manager) : Prop where
  away : s.failbackState ≠ .failedOver → Undisturbed s.log
  aborts : RegressionsAbort s.log

section
variable {config : RegionConfig} {s : Manager}

theorem Calm.frame (calm : Calm s) (state : s'.failbackState = s.failbackState) (log : s'.log = s.log) : Calm s' :=
  ⟨by rw [state,log]; exact calm.away,by rw [log]; exact calm.aborts⟩

theorem transitionTo_calm (calm : Calm s) (exit : s.failbackState = .failedOver → target = .awaitingStability) :
    Calm (transitionTo s target now) := by
  unfold transitionTo
  split
  · exact calm
  · refine ⟨?_,regressionsAbort_snoc.mpr ⟨calm.aborts,?_⟩⟩
    · intro _
      by_cases left : s.failbackState = .failedOver
      · simp only [left,exit left]
        exact undisturbed_leaves
      · exact (calm.away left).snoc (by simp)
    · intro enters
      apply calm.away
      intro left
      cases exit left
      cases enters

theorem transitionTo_state : (transitionTo s target now).failbackState = target := by
  unfold transitionTo
  split
  · assumption
  · rfl

theorem transferAuthority_calm (calm : Calm s) (away : s.failbackState ≠ .failedOver) : Calm (transferAuthority s now epoch) := by
  have quiet := calm.away away
  apply transitionTo_calm ⟨fun _ => quiet.snoc (by simp),regressionsAbort_snoc.mpr ⟨calm.aborts,fun _ => quiet⟩⟩
  exact fun left => absurd left away

theorem bumpEpoch_calm (calm : Calm s) (away : s.failbackState ≠ .failedOver) : Calm (bumpEpoch config s now) := by
  unfold bumpEpoch
  split
  · exact calm.frame rfl rfl
  · exact transferAuthority_calm calm away

theorem reconciled_calm (calm : Calm s) (away : s.failbackState ≠ .failedOver) :
    Calm (bumpEpoch config (transitionTo s .failingBack now) now) := by
  apply bumpEpoch_calm (transitionTo_calm calm (fun left => absurd left away))
  rw [transitionTo_state]
  simp

theorem runReconcileAndFailback_calm (calm : Calm s) (away : s.failbackState ≠ .failedOver) :
    Calm (runReconcileAndFailback config s now) := by
  unfold runReconcileAndFailback
  split
  · exact calm
  · split
    · split
      · exact calm.frame rfl rfl
      · exact reconciled_calm calm away
    · exact bumpEpoch_calm calm away

theorem regress_calm (calm : Calm s) :
    Calm (transitionTo {s with stableSince := none, log := s.log ++ [.regressed]} .failedOver now) := by
  have aborts : RegressionsAbort (s.log ++ [.regressed]) := regressionsAbort_snoc.mpr ⟨calm.aborts,fun enters => by cases enters⟩
  unfold transitionTo
  split
  · rename_i there
    exact ⟨fun away => absurd there away,aborts⟩
  · exact ⟨fun away => absurd rfl away,regressionsAbort_snoc.mpr ⟨aborts,fun enters => by cases enters⟩⟩

theorem advanceFailback_calm (calm : Calm s) : Calm (advanceFailback config s now report quarantined) := by
  have moves : ∀ target since, (s.failbackState = .failedOver → target = .awaitingStability) →
      Calm (transitionTo {s with stableSince := since} target now) := by
    intro _ _ exit
    exact transitionTo_calm (calm.frame rfl rfl) exit
  simp only [advanceFailback]
  split
  · exact calm
  · split
    · exact regress_calm calm
    · split
      · exact calm
      · split
        · exact calm
        · exact moves _ _ (fun _ => rfl)
      · rename_i here
        split
        · exact moves _ _ (by simp [here])
        · split
          · exact calm.frame rfl rfl
          · apply runReconcileAndFailback_calm (moves _ _ (by simp [here]))
            rw [transitionTo_state]
            simp
      · rename_i here
        exact runReconcileAndFailback_calm calm (by simp [here])
      · rename_i here
        exact runReconcileAndFailback_calm calm (by simp [here])

theorem step_calm (ran : step config s event = .ok s') (calm : Calm s)
    (aborted : ResumedWhileFailedOver ⟨s,event,s'⟩ = false) : Calm s' := by
  cases event with
  | evaluate =>
    cases ran
    exact advanceFailback_calm (calm.frame rfl rfl)
  | reconciled =>
    obtain ⟨_,ran⟩ := guard_ok.mp ran
    split at ran
    · rename_i converged
      cases ran
      exact reconciled_calm calm (by simpa [ResumedWhileFailedOver,converged] using aborted)
    · cases ran
      exact calm.frame rfl rfl
  | reconcileFailed =>
    obtain ⟨_,ran⟩ := guard_ok.mp ran
    cases ran
    exact calm.frame rfl rfl
  | epochBumped =>
    obtain ⟨_,ran⟩ := guard_ok.mp ran
    cases ran
    exact transferAuthority_calm calm (by simpa [ResumedWhileFailedOver] using aborted)
  | bumpFailed =>
    obtain ⟨_,ran⟩ := guard_ok.mp ran
    cases ran
    exact calm.frame rfl rfl
  | observeEpoch =>
    cases ran
    unfold observeEpoch
    split
    · exact calm
    · split
      · exact calm.frame rfl rfl
      · exact calm

theorem regressions_abort (path : Runs.Run (step config) (.start now) ts s)
    (aborted : ∀ t ∈ ts, ResumedWhileFailedOver t = false) : RegressionsAbort s.log := by
  have base : Calm (.start now) := by
    refine ⟨fun _ => by simp,?_⟩
    intro _ _ _ cut
    simp at cut
  have calm := path.invariant_of aborted base (P := Calm) (fun t kept accepted calm => step_calm accepted calm kept)
  exact calm.aborts

end

namespace Sample
def config : RegionConfig := ⟨5,true,1,true,1000,false,true⟩
def reconciling : RegionConfig := {config with hasReconciler := true}
def calmReport : DriftReport := ⟨0,true⟩
def drifting : DriftReport := ⟨10,true⟩

def recovering : List Event := [.evaluate 0 drifting false,.evaluate 1000 calmReport false,.evaluate 2000 calmReport false]

def run (config : RegionConfig) (events : List Event) : Except Impossible (List (Runs.Transition Manager Event) × Manager) :=
  Runs.replay (step config) (.start 0) events
end Sample

open Sample

theorem quiet_failback_completes : ∃ ts s, Runs.Run (step config) (.start 0) ts s ∧ RegressionsAbort s.log ∧
    s.failbackState = .stablePrimary ∧ Mark.transferred ∈ s.log := by
  have replayed : (run config (recovering ++ [.epochBumped 2500 1])).map (fun result =>
      (decide (∀ t ∈ result.1, ResumedWhileFailedOver t = false),result.2.failbackState,
        decide (Mark.transferred ∈ result.2.log))) = .ok (true,.stablePrimary,true) := by rfl
  obtain ⟨ts,s,path,aborted,state,transferred⟩ := Runs.replay_triple replayed
  exact ⟨ts,s,path,regressions_abort path (of_decide_eq_true aborted),state,of_decide_eq_true transferred⟩

-- A regression during `bumpEpoch` does not stop the failback, nor does one during `reconcile`.
theorem regression_without_abort : (∃ ts s before after, Runs.Run (step config) (.start 0) ts s ∧
      s.log = before ++ .transferred :: after ∧ ¬ Undisturbed before ∧ s.failbackState = .stablePrimary) ∧
    ∃ ts s before after, Runs.Run (step reconciling) (.start 0) ts s ∧
      s.log = before ++ .transferred :: after ∧ ¬ Undisturbed before ∧ s.failbackState = .stablePrimary := by
  have bumping : (run config (recovering ++ [.evaluate 2100 drifting false,.epochBumped 2500 1])).map
      (fun result => (result.2.log,result.2.failbackState)) =
        .ok ([.regressed,.moved .stablePrimary .failedOver,.moved .failedOver .awaitingStability,
          .moved .awaitingStability .reconciling,.moved .reconciling .failingBack,.regressed,
          .moved .failingBack .failedOver] ++ .transferred :: [.moved .failedOver .stablePrimary],.stablePrimary) := by rfl
  have waiting : (run reconciling (recovering ++ [.evaluate 2100 drifting false,.reconciled 2500 true,.epochBumped 2600 1])).map
      (fun result => (result.2.log,result.2.failbackState)) =
        .ok ([.regressed,.moved .stablePrimary .failedOver,.moved .failedOver .awaitingStability,
          .moved .awaitingStability .reconciling,.regressed,.moved .reconciling .failedOver,.moved .failedOver .failingBack] ++
          .transferred :: [.moved .failingBack .stablePrimary],.stablePrimary) := by rfl
  obtain ⟨ts,s,path,log,state⟩ := Runs.replay_pair bumping
  obtain ⟨ts',s',path',log',state'⟩ := Runs.replay_pair waiting
  exact ⟨⟨ts,s,_,_,path,log,by decide,state⟩,ts',s',_,_,path',log',by decide,state'⟩

end StellarPriceOracle.RegionFailback
