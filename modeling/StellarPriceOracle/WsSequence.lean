import StellarPriceOracle.Library.JsNumber
import StellarPriceOracle.Library.DurableFile
import StellarPriceOracle.Library.Runs

namespace StellarPriceOracle.WsSequence
open Guarded
open List
open Runs (Run mem_snoc replay)
open DurableFile

-- ws-sequence.ts. `load` finds a whole number under `sequence`, or a text that it rejects.
inductive Checkpoint where
  | sequence (n : Nat)
  | malformed
  deriving DecidableEq

def maxSafeInteger : Nat := 2^53 - 1

-- None where it throws; a file that is not there counts from 0.
def load : Option Checkpoint → Option Nat
  | none => some 0
  | some .malformed => none
  | some (.sequence n) => if n ≤ maxSafeInteger then some n else none

-- Outside `nextSequence`, before one of its system calls, or gone.
inductive Phase where
  | idle
  | mkdir
  | openTemporary
  | write
  | fsync
  | close (failed : Bool)
  | rename
  | openDirectory
  | fsyncDirectory
  | closeDirectory (failed : Bool)
  | down
  deriving DecidableEq

structure Machine where
  phase : Phase
  sequence : Nat
  temporary : Option Nat
  checkpoint : DurableFile Checkpoint
  returned : List Nat

def Machine.start (found : Option Checkpoint) : Machine := ⟨.down,0,none,DurableFile.settle found,[]⟩

inductive Event where
  | call
  | completes
  | throws
  | crash (left : Option Checkpoint)
  | restart

inductive Invalid where
  | notIdle
  | notCalled
  | notRunning
  | notLeft
  | notDown
  | loadThrows
  deriving DecidableEq

section
variable (s : Machine)

def completes : Except Invalid Machine :=
  match s.phase with
  | .idle => .error .notCalled
  | .mkdir => .ok {s with phase := .openTemporary}
  | .openTemporary => .ok {s with phase := .write,temporary := none}
  | .write => .ok {s with phase := .fsync,temporary := some s.sequence}
  | .fsync => .ok {s with phase := .close false}
  | .close false => .ok {s with phase := .rename}
  | .close true => .ok {s with phase := .idle}
  | .rename =>
    .ok {s with
      phase := .openDirectory
      temporary := none
      checkpoint := (s.temporary.map (fun n => s.checkpoint.rename (.sequence n))).getD s.checkpoint}
  | .openDirectory => .ok {s with phase := .fsyncDirectory}
  | .fsyncDirectory => .ok {s with phase := .closeDirectory false,checkpoint := s.checkpoint.sync}
  | .closeDirectory false => .ok {s with phase := .idle,returned := s.returned ++ [s.sequence]}
  | .closeDirectory true => .ok {s with phase := .idle}
  | .down => .error .notCalled

def throws : Except Invalid Machine :=
  match s.phase with
  | .idle | .down => .error .notCalled
  | .write | .fsync => .ok {s with phase := .close true}
  | .fsyncDirectory => .ok {s with phase := .closeDirectory true}
  | .mkdir | .openTemporary | .close _ | .rename | .openDirectory | .closeDirectory _ => .ok {s with phase := .idle}

def step : Event → Except Invalid Machine
  | .call => do
    require (s.phase = .idle) .notIdle
    .ok {s with phase := .mkdir,sequence := Double.add s.sequence 1}
  | .completes => completes s
  | .throws => throws s
  | .crash left => do
    require (s.phase ≠ .down) .notRunning
    require (left ∈ s.checkpoint.survivors) .notLeft
    .ok {s with phase := .down,checkpoint := DurableFile.settle left}
  | .restart => do
    require (s.phase = .down) .notDown
    let sequence ← someOr (load s.checkpoint.content) .loadThrows
    .ok {s with phase := .idle,sequence}

-- How far the call has come with its value, as far as it shows on disk.
def Progress : Phase → Prop
  | .fsync | .close false | .rename => s.temporary = some s.sequence
  | .openDirectory | .fsyncDirectory => s.checkpoint.content = some (.sequence s.sequence)
  | .closeDirectory false => s.checkpoint.survivors = [some (.sequence s.sequence)]
  | _ => True

end

-- Nothing that a crash may leave is below a value given out.
def Kept (returned : List Nat) (file : DurableFile Checkpoint) : Prop :=
  ∀ r ∈ returned, ∀ left ∈ file.survivors, ∃ n, left = some (.sequence n) ∧ r ≤ n

structure Safe (s : Machine) : Prop where
  increasing : s.returned.Pairwise (· < ·)
  memory : s.phase ≠ .down → ∀ r ∈ s.returned, r ≤ s.sequence
  ahead : s.phase ≠ .idle → s.phase ≠ .down → ∀ r ∈ s.returned, r < s.sequence
  kept : Kept s.returned s.checkpoint
  progress : Progress s s.phase

section
variable {s next : Machine}

theorem safe_start : Safe (Machine.start got) where
  increasing := .nil
  memory := nofun
  ahead := nofun
  kept := nofun
  progress := trivial

theorem Kept.rename (kept : Kept returned file) (above : ∀ r ∈ returned, r ≤ n) : Kept returned (file.rename (.sequence n)) := by
  intro r given left survives
  rw [survivors_rename] at survives
  rcases mem_snoc.mp survives with old | last
  · exact kept r given left old
  · exact ⟨n,last,above r given⟩

theorem Kept.sync (kept : Kept returned file) : Kept returned file.sync := by
  intro r given left survives
  rw [survivors_sync,mem_singleton] at survives
  exact kept r given left (survives ▸ content_survives)

theorem Kept.settle (kept : Kept returned file) (survives : left ∈ file.survivors) : Kept returned (DurableFile.settle left) := by
  intro r given got here
  rw [survivors_settle,mem_singleton] at here
  exact kept r given got (here ▸ survives)

section
variable (safe : Safe s)
include safe

theorem Safe.moves (phase : Phase) (temporary : Option Nat) (file : DurableFile Checkpoint) (busy : s.phase ≠ .idle)
    (running : s.phase ≠ .down) (kept : Kept s.returned file)
    (progress : Progress ⟨phase,s.sequence,temporary,file,s.returned⟩ phase) : Safe ⟨phase,s.sequence,temporary,file,s.returned⟩ where
  increasing := safe.increasing
  memory := fun _ => safe.memory running
  ahead := fun _ _ => safe.ahead busy running
  kept := kept
  progress := progress

theorem Safe.returns (last : s.phase = .closeDirectory false) :
    Safe {s with phase := .idle,returned := s.returned ++ [s.sequence]} := by
  have ahead := safe.ahead (by rw [last]; nofun) (by rw [last]; nofun)
  have durable : s.checkpoint.survivors = [some (.sequence s.sequence)] := by
    have progress := safe.progress
    rwa [last] at progress
  have within : ∀ r ∈ s.returned ++ [s.sequence], r ≤ s.sequence := by
    intro r given
    rcases mem_snoc.mp given with old | new
    · exact Nat.le_of_lt (ahead r old)
    · exact Nat.le_of_eq new
  constructor
  · rw [pairwise_append]
    refine ⟨safe.increasing,pairwise_singleton _ _,?_⟩
    intro r given n here
    rw [mem_singleton.mp here]
    exact ahead r given
  · exact fun _ => within
  · nofun
  · intro r given _ survives
    rw [durable,mem_singleton] at survives
    exact ⟨s.sequence,survives,within r given⟩
  · trivial

theorem completes_safe (done : completes s = .ok next) : Safe next := by
  obtain ⟨phase,_⟩ := s
  have progress := safe.progress
  cases phase with
  | idle | down => cases done
  | mkdir | openTemporary =>
    cases done
    exact safe.moves _ _ _ nofun nofun safe.kept trivial
  | write =>
    cases done
    exact safe.moves _ _ _ nofun nofun safe.kept rfl
  | fsync =>
    cases done
    exact safe.moves _ _ _ nofun nofun safe.kept progress
  | close failed =>
    cases failed with
    | false =>
      cases done
      exact safe.moves _ _ _ nofun nofun safe.kept progress
    | true =>
      cases done
      exact safe.moves _ _ _ nofun nofun safe.kept trivial
  | rename =>
    cases done
    simp only [Progress] at progress
    subst progress
    refine safe.moves _ _ _ nofun nofun ?_ content_rename
    exact safe.kept.rename (safe.memory nofun)
  | openDirectory =>
    cases done
    exact safe.moves _ _ _ nofun nofun safe.kept progress
  | fsyncDirectory =>
    cases done
    refine safe.moves _ _ _ nofun nofun safe.kept.sync ?_
    simp only [Progress] at progress ⊢
    rw [survivors_sync,progress]
  | closeDirectory failed =>
    cases failed with
    | false =>
      cases done
      exact safe.returns rfl
    | true =>
      cases done
      exact safe.moves _ _ _ nofun nofun safe.kept trivial

theorem throws_safe (done : throws s = .ok next) : Safe next := by
  obtain ⟨phase,_⟩ := s
  cases phase <;> cases done
  all_goals exact safe.moves _ _ _ nofun nofun safe.kept trivial

theorem crash_safe (survives : left ∈ s.checkpoint.survivors) :
    Safe {s with phase := .down,checkpoint := DurableFile.settle left} where
  increasing := safe.increasing
  memory := nofun
  ahead := nofun
  kept := safe.kept.settle survives
  progress := trivial

end

theorem load_above (kept : Kept returned file) (loaded : load file.content = some n) : ∀ r ∈ returned, r ≤ n := by
  intro r given
  obtain ⟨_,shown,_⟩ := kept r given file.content content_survives
  rw [shown,load] at loaded
  split at loaded
  · rwa [← Option.some.inj loaded]
  · cases loaded

-- Up to 2^53 adding one gives the next whole number.
theorem increment_exact (small : n < 2^53) : Double.add n 1 = n + 1 := by
  by_cases last : n + 1 = 2^53
  · rw [Double.add,last]
    decide +kernel
  · exact Double.add_safe (by omega)

theorem step_safe (safe : Safe s) (small : e = .call → s.sequence < 2^53) (taken : step s e = .ok next) : Safe next := by
  cases e with
  | call =>
    obtain ⟨idle,⟨⟩⟩ := guard_ok.mp taken
    have memory := safe.memory (by simp [idle])
    have later := increment_exact (small rfl)
    exact {
      increasing := safe.increasing
      memory := fun _ r given => by
        have := memory r given
        dsimp only
        omega
      ahead := fun _ _ r given => by
        have := memory r given
        dsimp only
        omega
      kept := safe.kept
      progress := trivial}
  | completes => exact completes_safe safe taken
  | throws => exact throws_safe safe taken
  | crash =>
    simp only [step,bind_ok,require_ok,Except.ok.injEq] at taken
    obtain ⟨_,_,_,survives,rfl⟩ := taken
    exact crash_safe safe survives
  | restart =>
    simp only [step,bind_ok,require_ok,someOr_ok,Except.ok.injEq] at taken
    obtain ⟨_,_,n,loaded,rfl⟩ := taken
    exact ⟨safe.increasing,fun _ => load_above safe.kept loaded,by simp,safe.kept,trivial⟩

-- Below 2^53, what `nextSequence` gives out over crashes and restarts only grows.
theorem returned_increasing (path : Run step (Machine.start found) ts s)
    (small : ∀ t ∈ ts, t.input = .call → t.before.sequence < 2^53) : s.returned.Pairwise (· < ·) := by
  have safe : Safe s := path.invariant_of small safe_start (fun t below taken safe => step_safe safe below taken)
  exact safe.increasing

end

namespace Sample

def undisturbed : List Event := .call :: replicate 9 .completes

def cutOff : List Event := .call :: replicate 6 .completes ++ [.crash (some (.sequence 1)),.restart]

end Sample

open Sample

theorem crash_between_values : ∃ ts s, Run step (Machine.start none) ts s ∧ s.returned = [1,2] ∧ s.returned.Pairwise (· < ·) := by
  have observed : (replay step (Machine.start none) ([.restart] ++ undisturbed ++ cutOff ++ undisturbed)).map
      (fun r => (r.2.returned,r.1.all (fun t => decide (t.before.sequence < 2^53)))) = .ok ([1,2],true) := by decide +kernel
  obtain ⟨ts,s,path,shown⟩ := Runs.replay_observed observed
  simp only [Prod.mk.injEq] at shown
  refine ⟨ts,s,path,shown.1,returned_increasing path ?_⟩
  intro t present _
  simpa using all_eq_true.mp shown.2 t present

-- From the largest checkpoint that `load` takes, two calls give the same value.
theorem saturated_sequence_repeats : ∃ ts s, Run step (Machine.start (some (.sequence maxSafeInteger))) ts s ∧
    ¬ s.returned.Pairwise (· < ·) := by
  have observed : (replay step (Machine.start (some (.sequence maxSafeInteger)))
      ([.restart] ++ undisturbed ++ undisturbed)).map (fun r => r.2.returned) = .ok [2^53,2^53] := by decide +kernel
  obtain ⟨ts,s,path,shown⟩ := Runs.replay_observed observed
  refine ⟨ts,s,path,?_⟩
  rw [shown]
  simp

end StellarPriceOracle.WsSequence
