import Mathlib.Data.List.Basic
import StellarPriceOracle.Library.Guarded

namespace Runs
open List (append_inj' singleton_inj mem_append_left mem_cons mem_map)
open Prod (mk)
open Except (map ok)

structure Transition (σ ι : Type) where
  before : σ
  input : ι
  after : σ

-- Runs record accepted steps only: a rejected input leaves the machine where it was.
inductive Run {σ ι ε : Type} (step : σ → ι → Except ε σ) (start : σ) :
    List (Transition σ ι) → σ → Prop where
  | nil : Run step start [] start
  | snoc : Run step start ts s → step s i = .ok next → Run step start (ts ++ [⟨s,i,next⟩]) next

theorem mem_snoc {l : List α} : a ∈ l ++ [b] ↔ a ∈ l ∨ a = b := by simp

section
variable {σ ι ε : Type}

theorem Run.parts (path : Run step start (earlier ++ t :: later) s) :
    (Run step start earlier t.before ∧ step t.before t.input = .ok t.after) ∧ Run step t.after later s := by
  generalize whole : earlier ++ t :: later = ts at path
  induction path generalizing later with
  | nil => simp at whole
  | @snoc ts s i next prior accepted ih =>
    rcases List.eq_nil_or_concat later with rfl | ⟨front,last,rfl⟩
    · obtain ⟨rfl,same⟩ := append_inj' whole rfl
      cases singleton_inj.mp same
      exact ⟨⟨prior,accepted⟩,.nil⟩
    · have cut : (earlier ++ t :: front) ++ [last] = ts ++ [⟨s,i,next⟩] := by simpa using whole
      obtain ⟨rfl,same⟩ := append_inj' cut rfl
      cases singleton_inj.mp same
      obtain ⟨reached,rest⟩ := ih rfl
      rw [List.concat_eq_append]
      exact ⟨reached,.snoc rest accepted⟩

theorem Run.split (path : Run step start (earlier ++ t :: later) s) :
    Run step start earlier t.before ∧ step t.before t.input = .ok t.after := path.parts.1

theorem Run.suffix (path : Run step start (earlier ++ t :: later) s) : Run step t.after later s := path.parts.2

theorem Run.ended (path : Run step start [] s) : s = start := by
  generalize whole : [] = ts at path
  cases path with
  | nil => rfl
  | snoc => simp at whole

theorem Run.headed (path : Run step start (t :: later) s) : step start t.input = .ok t.after ∧ Run step t.after later s := by
  have path : Run step start ([] ++ t :: later) s := path
  obtain ⟨nothing,ran⟩ := path.split
  rw [nothing.ended] at ran
  exact ⟨ran,path.suffix⟩

theorem Run.resume (path : Run step start (earlier ++ later) s) (front : Run step start earlier r) : Run step r later s := by
  generalize whole : earlier = ts at front
  cases front with
  | nil =>
    subst whole
    exact path
  | snoc =>
    subst whole
    rw [List.append_assoc] at path
    exact path.suffix

def states (start : σ) (ts : List (Transition σ ι)) : List σ := start :: ts.map Transition.after

theorem after_visited (mem : t ∈ ts) : t.after ∈ states start ts :=
  List.mem_cons_of_mem _ (mem_map.mpr ⟨t,mem,rfl⟩)

section
variable {step : σ → ι → Except ε σ} {start s : σ} {ts : List (Transition σ ι)} {P : σ → Prop} {G : Transition σ ι → Prop} {R : σ → σ → Prop} (path : Run step start ts s)
include path

theorem Run.member (mem : t ∈ ts) : ∃ earlier later, ts = earlier ++ t :: later ∧ Run step start earlier t.before ∧
      step t.before t.input = .ok t.after := by
  obtain ⟨earlier,later,rfl⟩ := List.append_of_mem mem
  exact ⟨earlier,later,rfl,path.split⟩

theorem Run.accepted (mem : t ∈ ts) : step t.before t.input = .ok t.after := by
  obtain ⟨_,_,_,_,ran⟩ := path.member mem
  exact ran

theorem Run.carries (refl : ∀ s, R s s)
    (trans : ∀ a b c, R a b → R b c → R a c) (each : ∀ t ∈ ts, R t.before t.after) : R start s := by
  induction path with
  | nil => exact refl _
  | snoc _ _ ih =>
    have before := ih (fun t mem => each t (mem_append_left _ mem))
    exact trans _ _ _ before (each _ List.mem_concat_self)

-- A step condition that all recorded steps meet may be assumed of each of them.
theorem Run.invariant_of (good : ∀ t ∈ ts, G t) (base : P start)
    (keep : ∀ t, G t → step t.before t.input = .ok t.after → P t.before → P t.after) : P s := by
  induction path with
  | nil => exact base
  | @snoc ts s i next prior accepted ih =>
    have valid := ih (fun t mem => good t (mem_append_left _ mem))
    exact keep ⟨s,i,next⟩ (good _ List.mem_concat_self) accepted valid

theorem Run.last_visited : s ∈ states start ts := by
  cases path with
  | nil => exact List.mem_cons_self
  | snoc => simp [states]

theorem Run.before_visited (mem : t ∈ ts) : t.before ∈ states start ts := by
  obtain ⟨_,_,rfl,reached,_⟩ := path.member mem
  rcases mem_cons.mp reached.last_visited with first | visited
  · exact first ▸ List.mem_cons_self
  · simp only [states,List.map_append]
    exact List.mem_cons_of_mem _ (mem_append_left _ visited)

theorem Run.visited_run (visited : r ∈ states start ts) : ∃ earlier, Run step start earlier r := by
  rcases mem_cons.mp visited with rfl | later
  · exact ⟨[],.nil⟩
  · obtain ⟨t,mem,rfl⟩ := mem_map.mp later
    obtain ⟨earlier,_,_,reached,ran⟩ := path.member mem
    exact ⟨_,.snoc reached ran⟩

theorem Run.always (good : ∀ t ∈ ts, G t) (base : P start)
    (keep : ∀ t, G t → step t.before t.input = .ok t.after → P t.before → P t.after) :
    ∀ r ∈ states start ts, P r := by
  intro r visited
  rcases mem_cons.mp visited with rfl | later
  · exact base
  · obtain ⟨t,mem,rfl⟩ := mem_map.mp later
    obtain ⟨_,_,rfl,reached,ran⟩ := path.member mem
    have valid := reached.invariant_of (fun t old => good t (mem_append_left _ old)) base keep
    exact keep t (good t mem) ran valid

theorem Run.carries_on (refl : ∀ s, R s s)
    (trans : ∀ a b c, R a b → R b c → R a c) (each : ∀ t ∈ ts, R t.before t.after) (visited : r ∈ states start ts) : R r s := by
  rcases mem_cons.mp visited with rfl | later
  · exact path.carries refl trans each
  · obtain ⟨t,mem,rfl⟩ := mem_map.mp later
    obtain ⟨_,_,rfl⟩ := List.append_of_mem mem
    refine path.suffix.carries refl trans ?_
    intro t old
    exact each t (List.mem_append_right _ (List.mem_cons_of_mem _ old))

theorem Run.viewed {step' : τ → κ → Except δ τ} (view : σ → τ) (request : ι → κ)
    (follows : ∀ s i next, step s i = .ok next → step' (view s) (request i) = .ok (view next)) :
    Run step' (view start) (ts.map (fun t => ⟨view t.before,request t.input,view t.after⟩)) (view s) := by
  induction path with
  | nil => exact .nil
  | snoc _ accepted ih =>
    rw [List.map_append]
    exact .snoc ih (follows _ _ _ accepted)

-- The invariant holds throughout a run exactly when all of its steps meet the condition.
theorem Run.always_exact (base : P start)
    (exact : ∀ t ∈ ts, P t.before → (G t ↔ P t.after)) : (∀ t ∈ ts, G t) ↔ ∀ r ∈ states start ts, P r := by
  constructor
  · intro good
    apply path.always (fun t mem => (⟨mem,good t mem⟩ : t ∈ ts ∧ G t)) base
    intro t meets _ valid
    exact (exact t meets.1 valid).mp meets.2
  · intro valid t mem
    apply (exact t mem (valid t.before (path.before_visited mem))).mpr
    exact valid t.after (after_visited mem)

end

end

-- Each step with the steps before it, oldest first.
def pasts {τ : Type} (past : List τ) : List τ → List (List τ × τ)
  | [] => []
  | t :: later => (past,t) :: pasts (past ++ [t]) later

theorem pasts_snoc : pasts past (ts ++ [t]) = pasts past ts ++ [(past ++ ts,t)] := by
  induction ts generalizing past with
  | nil => simp [pasts]
  | cons _ _ ih => simp [pasts,ih]

-- A loop that goes on while its condition holds, at most `fuel` times.
def loop {σ : Type} (goes : σ → Bool) (body : σ → σ) : Nat → σ → σ
  | 0,s => s
  | fuel + 1,s => if goes s then loop goes body fuel (body s) else s

theorem loop_carries {R : σ → σ → Prop} (fuel : Nat) (refl : ∀ s, R s s)
    (trans : ∀ a b c, R a b → R b c → R a c) (each : ∀ s, R s (body s)) : R s (loop goes body fuel s) := by
  induction fuel generalizing s with
  | zero => exact refl s
  | succ _ ih =>
    rw [loop]
    split
    · exact trans _ _ _ (each s) ih
    · exact refl s

theorem loop_stops {P : σ → Prop} {goes : σ → Bool} (left : σ → Nat) (valid : P s)
    (keeps : ∀ s, P s → goes s = true → P (body s) ∧ left (body s) < left s) :
    ∀ fuel, left s ≤ fuel → goes (loop goes body fuel s) = false := by
  intro fuel _
  induction fuel generalizing s with
  | zero =>
    rw [loop,Bool.eq_false_iff]
    intro on
    have := (keeps s valid on).2
    omega
  | succ _ ih =>
    rw [loop]
    split
    · rename_i on
      obtain ⟨kept,_⟩ := keeps s valid on
      exact ih kept (by omega)
    · rename_i off
      simpa using off

-- A machine that takes every input.
def total {σ ι : Type} (next : σ → ι → σ) (s : σ) (i : ι) : Except Empty σ := .ok (next s i)

def replay {σ ι ε : Type} (step : σ → ι → Except ε σ) (s : σ) : List ι → Except ε (List (Transition σ ι) × σ)
  | [] => .ok ([],s)
  | i :: rest => do
    let next ← step s i
    let (ts,last) ← replay step next rest
    .ok (⟨s,i,next⟩ :: ts,last)

theorem replay_run (prior : Run step start earlier s)
    (replayed : replay step s inputs = .ok (ts,last)) : Run step start (earlier ++ ts) last := by
  induction inputs generalizing earlier s ts with
  | nil =>
    simp only [replay,ok.injEq,mk.injEq] at replayed
    obtain ⟨rfl,rfl⟩ := replayed
    simpa using prior
  | cons _ _ ih =>
    simp only [replay,Guarded.bind_ok,ok.injEq,mk.injEq] at replayed
    obtain ⟨_,accepted,⟨_,_⟩,replayed,rfl,rfl⟩ := replayed
    have path := ih (.snoc prior accepted) replayed
    rwa [List.append_assoc,List.singleton_append] at path

theorem replay_inputs (replayed : replay step s inputs = .ok (ts,last)) : ts.map Transition.input = inputs := by
  induction inputs generalizing s ts with
  | nil =>
    simp only [replay,ok.injEq,mk.injEq] at replayed
    rw [← replayed.1]
    rfl
  | cons _ _ ih =>
    simp only [replay,Guarded.bind_ok,ok.injEq,mk.injEq] at replayed
    obtain ⟨_,_,⟨_,_⟩,replayed,rfl,rfl⟩ := replayed
    rw [List.map_cons,ih replayed]

theorem replay_steps (seen : (replay step start inputs).map f = .ok value) :
    ∃ ts last, Run step start ts last ∧ ts.map Transition.input = inputs ∧ f (ts,last) = value := by
  cases replayed : replay step start inputs with
  | error => simp [replayed,map] at seen
  | ok r =>
    obtain ⟨ts,last⟩ := r
    refine ⟨ts,last,?_,replay_inputs replayed,by simpa [replayed,map] using seen⟩
    simpa using replay_run .nil replayed

theorem replay_observed (seen : (replay step start inputs).map f = .ok value) :
    ∃ ts last, Run step start ts last ∧ f (ts,last) = value := by
  obtain ⟨ts,last,path,_,shown⟩ := replay_steps seen
  exact ⟨ts,last,path,shown⟩

variable {f : List (Transition σ ι) × σ → α} {g : List (Transition σ ι) × σ → β} {h : List (Transition σ ι) × σ → γ}

theorem replay_pair (seen : (replay step start inputs).map (fun r => (f r,g r)) = .ok (a,b)) :
    ∃ ts last, Run step start ts last ∧ f (ts,last) = a ∧ g (ts,last) = b := by
  obtain ⟨ts,last,path,shown⟩ := replay_observed seen
  exact ⟨ts,last,path,mk.inj shown⟩

theorem replay_triple (seen : (replay step start inputs).map (fun r => (f r,g r,h r)) = .ok (a,b,c)) :
    ∃ ts last, Run step start ts last ∧ f (ts,last) = a ∧ g (ts,last) = b ∧ h (ts,last) = c := by
  obtain ⟨ts,last,path,first,others⟩ := replay_pair seen
  exact ⟨ts,last,path,first,mk.inj others⟩

end Runs
