import StellarPriceOracle.Library.InsertionMap
import StellarPriceOracle.Library.KeyedStore
import StellarPriceOracle.Library.Runs

namespace StellarPriceOracle.TenantWindow
open Guarded
open Runs (Transition Run replay)
open InsertionMap
open List

-- api/src/platform/tenant-window.ts. Times are in milliseconds.
abbrev WindowMs := {ms : Nat // 0 < ms}

inductive Mode where
  | sharedRedis
  | localPerPod
  deriving DecidableEq

structure ConsumeResult where
  allowed : Bool
  (limit remaining consumed reset : Nat)
  shared : Bool
  mode : Mode
  deriving DecidableEq

structure Entry where
  (windowStart count : Nat)
  deriving DecidableEq

abbrev Local := InsertionMap String Entry

structure Call where
  identity : String
  (windowStart reset : Nat)
  deriving DecidableEq

section
variable (windowMs : WindowMs)

def enter (now : Nat) (identity : String) : Call :=
  let windowStart := now - now % windowMs
  ⟨identity,windowStart,(windowStart + windowMs + 999) / 1000⟩

section
variable (counts : Local)

def prune (windowStart : Nat) : Local :=
  counts.filter (fun identity => (counts.get identity).any (fun entry => entry.windowStart = windowStart))

def localCount (call : Call) : Nat :=
  match counts.get call.identity with
  | none => 1
  | some current => if current.windowStart ≠ call.windowStart then 1 else current.count + 1

def counted (call : Call) : Local :=
  counts.set call.identity ⟨call.windowStart,localCount counts call⟩

def crowded (call : Call) : Bool := (counted counts call).entries.length > 5000

def fallBack (call : Call) : Local :=
  if crowded counts call then prune (counted counts call) call.windowStart else counted counts call

end

def result (limit : Nat) (call : Call) (count : Nat) (shared : Bool) : ConsumeResult :=
  ⟨count ≤ limit,limit,limit - count,count,call.reset,shared,if shared then .sharedRedis else .localPerPod⟩

def consume (now : Nat) (counts : Local) (identity : String) (limit : Nat) (shared : Option Nat) : ConsumeResult × Local :=
  let call := enter windowMs now identity
  match shared with
  | some count => (result limit call count true,counts)
  | none => (result limit call (localCount counts call) false,fallBack counts call)

structure Return where
  call : Call
  result : ConsumeResult

-- One pod and the calls of `consume` on it, which go by their number.
structure Pod where
  stored : Bool
  (now calls : Nat)
  pending : KeyedStore Nat (fun _ => Call)
  counts : Local
  returned : List Return

def Pod.start (stored : Bool) : Pod := ⟨stored,0,0,KeyedStore.empty,.empty,[]⟩

inductive Event where
  | consume (now : Nat) (identity : String)
  | incremented (call : Nat) (count : Nat)
  | incrementFailed (call : Nat)

inductive Impossible where
  | past | notPending

def answer (limit : String → Nat) (s : Pod) (call : Call) (count : Nat) (shared : Bool) : Pod :=
  {s with returned := s.returned ++ [⟨call,result (limit call.identity) call count shared⟩]}

def answerLocally (limit : String → Nat) (s : Pod) (call : Call) : Pod :=
  answer limit {s with counts := fallBack s.counts call} call (localCount s.counts call) false

-- Every identity has a limit of its own, the same in all of its calls.
def step (limit : String → Nat) (s : Pod) : Event → Except Impossible Pod
  | .consume now identity => do
    require (s.now ≤ now) .past
    let call := enter windowMs now identity
    if s.stored then .ok {s with now := now, calls := s.calls + 1, pending := s.pending.set s.calls call}
    else .ok (answerLocally limit {s with now := now, calls := s.calls + 1} call)
  | .incremented number count => do
    let call ← someOr (s.pending.get number) .notPending
    .ok (answer limit {s with pending := s.pending.remove number} call count true)
  | .incrementFailed number => do
    let call ← someOr (s.pending.get number) .notPending
    .ok (answerLocally limit {s with pending := s.pending.remove number} call)

end

abbrev Trace := List (Transition Pod Event)

section
variable (windowMs : WindowMs)

def fellBack (t : Transition Pod Event) : Option Call :=
  match t.input with
  | .consume now identity => if t.before.stored then none else some (enter windowMs now identity)
  | .incremented _ _ => none
  | .incrementFailed number => t.before.pending.get number

def prunes (t : Transition Pod Event) : Bool := (fellBack windowMs t).any (crowded t.before.counts)

-- A later call of an earlier window is of another identity, and neither finds too many.
def InOrder (ts : Trace) : Prop :=
  ts.Pairwise (fun t u => ∀ a ∈ fellBack windowMs t, ∀ b ∈ fellBack windowMs u, b.windowStart < a.windowStart →
    a.identity ≠ b.identity ∧ prunes windowMs t = false ∧ prunes windowMs u = false)

instance : Decidable (InOrder windowMs ts) := inferInstanceAs (Decidable (Pairwise _ ts))

def of (identity : String) (windowStart : Nat) (call : Call) : Bool :=
  call.identity = identity ∧ call.windowStart = windowStart

def fallbacks (ts : Trace) (identity : String) (windowStart : Nat) : Nat :=
  (ts.filterMap (fellBack windowMs)).countP (of identity windowStart)
end

def admitted (s : Pod) (identity : String) (windowStart : Nat) : Nat :=
  s.returned.countP (fun r => of identity windowStart r.call && !r.result.shared && r.result.allowed)

section
variable {windowMs : WindowMs} {limit : String → Nat} {s s' : Pod} {ts : Trace}

theorem fallBack_get : (fallBack counts call).get identity =
    if identity = call.identity then some ⟨call.windowStart,localCount counts call⟩
    else (counts.get identity).filter (fun entry => !crowded counts call || entry.windowStart = call.windowStart) := by
  have held : (counted counts call).get identity =
      if identity = call.identity then some ⟨call.windowStart,localCount counts call⟩ else counts.get identity := by
    split
    · rename_i own
      subst own
      exact get_set
    · rename_i other
      exact get_set_ne other
  unfold fallBack
  cases crowded counts call with
  | false =>
    have all : (counts.get identity).filter (fun _ => true) = counts.get identity := by cases counts.get identity <;> rfl
    simp [held,all]
  | true =>
    rw [if_pos rfl,prune,get_filter,held]
    split
    · simp
    · cases counts.get identity with
      | none => simp
      | some entry => by_cases here : entry.windowStart = call.windowStart <;> simp [Option.filter,here]

theorem step_effect (ran : step windowMs limit s event = .ok s') : (fellBack windowMs ⟨s,event,s'⟩ = none ∧ s'.counts = s.counts ∧
      ∀ identity windowStart, admitted s' identity windowStart = admitted s identity windowStart) ∨
    ∃ call, fellBack windowMs ⟨s,event,s'⟩ = some call ∧ s'.counts = fallBack s.counts call ∧
      s'.returned = s.returned ++ [⟨call,result (limit call.identity) call (localCount s.counts call) false⟩] := by
  cases event with
  | consume =>
    obtain ⟨_,ran⟩ := guard_ok.mp ran
    split at ran
    · rename_i stored
      cases ran
      exact .inl ⟨by simp [fellBack,stored],rfl,fun _ _ => rfl⟩
    · rename_i unstored
      cases ran
      exact .inr ⟨_,by simp [fellBack,unstored],rfl,rfl⟩
  | incremented =>
    obtain ⟨call,_,ran⟩ := lookup_ok.mp ran
    cases ran
    exact .inl ⟨rfl,rfl,fun _ _ => (by simp [admitted,answer,result])⟩
  | incrementFailed =>
    obtain ⟨call,got,ran⟩ := lookup_ok.mp ran
    cases ran
    exact .inr ⟨call,got,rfl,rfl⟩

-- An entry of an earlier window, or gone, has been overtaken only by a prune.
structure Tally (windowMs : WindowMs) (ts : Trace) (counts : Local) : Prop where
  exact : ∀ identity entry, counts.get identity = some entry →
    0 < entry.count ∧ entry.count = fallbacks windowMs ts identity entry.windowStart
  kept : ∀ identity windowStart, 0 < fallbacks windowMs ts identity windowStart →
    (∃ entry, counts.get identity = some entry ∧ windowStart ≤ entry.windowStart) ∨
    ∃ t ∈ ts, prunes windowMs t = true ∧ ∃ call ∈ fellBack windowMs t, windowStart < call.windowStart

theorem fallbacks_snoc : fallbacks windowMs (ts ++ [t]) identity windowStart =
      fallbacks windowMs ts identity windowStart +
        if (fellBack windowMs t).any (of identity windowStart) then 1 else 0 := by
  cases got : fellBack windowMs t with
  | none => simp [fallbacks,got]
  | some => simp [fallbacks,got,countP_singleton]

theorem fallbacks_pos : 0 < fallbacks windowMs ts identity windowStart ↔
    ∃ t ∈ ts, ∃ call ∈ fellBack windowMs t, call.identity = identity ∧ call.windowStart = windowStart := by
  simp only [fallbacks,countP_pos_iff,mem_filterMap,of,decide_eq_true_eq]
  constructor
  · rintro ⟨call,⟨t,mem,got⟩,own⟩
    exact ⟨t,mem,call,got,own⟩
  · rintro ⟨t,mem,call,got,own⟩
    exact ⟨call,⟨t,mem,got⟩,own⟩

-- In order, the local count is the number of fallbacks of the window so far.
theorem Tally.next (call : Call) (tally : Tally windowMs ts s.counts)
    (ordered : ∀ t ∈ ts, ∀ a ∈ fellBack windowMs t, call.windowStart < a.windowStart →
      a.identity ≠ call.identity ∧ prunes windowMs t = false) :
    localCount s.counts call = fallbacks windowMs ts call.identity call.windowStart + 1 := by
  have unpruned : ¬ ∃ t ∈ ts, prunes windowMs t = true ∧ ∃ a ∈ fellBack windowMs t, call.windowStart < a.windowStart := by
    rintro ⟨t,mem,pruned,a,fell,later⟩
    rw [(ordered t mem a fell later).2] at pruned
    cases pruned
  unfold localCount
  cases got : s.counts.get call.identity with
  | none =>
    have unseen : ¬ 0 < fallbacks windowMs ts call.identity call.windowStart := by
      intro seen
      rcases tally.kept _ _ seen with ⟨entry,held,_⟩ | pruned
      · cases got.symm.trans held
      · exact unpruned pruned
    change 1 = _
    omega
  | some entry =>
    obtain ⟨pos,exact⟩ := tally.exact _ _ got
    by_cases here : entry.windowStart = call.windowStart
    · rw [here] at exact
      simp [here,exact]
    · have unseen : ¬ 0 < fallbacks windowMs ts call.identity call.windowStart := by
        intro seen
        rcases tally.kept _ _ seen with ⟨_,held,later⟩ | pruned
        · cases got.symm.trans held
          obtain ⟨t,mem,a,fell,own,_⟩ := fallbacks_pos.mp (exact ▸ pos)
          exact (ordered t mem a fell (by omega)).1 own
        · exact unpruned pruned
      simp only [ne_eq,here,not_false_eq_true,if_true]
      omega

theorem Tally.quiet (tally : Tally windowMs ts s.counts) (none : fellBack windowMs t = none) : Tally windowMs (ts ++ [t]) s.counts := by
  constructor
  · intro identity entry held
    rw [fallbacks_snoc,none]
    exact tally.exact identity entry held
  · intro identity windowStart seen
    rw [fallbacks_snoc,none] at seen
    rcases tally.kept identity windowStart seen with held | ⟨t,mem,pruned⟩
    · exact .inl held
    · exact .inr ⟨t,mem_append_left _ mem,pruned⟩

theorem Tally.step (tally : Tally windowMs ts s.counts) (ran : TenantWindow.step windowMs limit s event = .ok s')
    (ordered : InOrder windowMs (ts ++ [⟨s,event,s'⟩])) : Tally windowMs (ts ++ [⟨s,event,s'⟩]) s'.counts := by
  have before := (pairwise_append.mp ordered).2.2
  rcases step_effect ran with ⟨none,same,_⟩ | ⟨call,got,next,_⟩
  · rw [same]
    exact tally.quiet none
  · have earlier : ∀ t ∈ ts, ∀ a ∈ fellBack windowMs t, call.windowStart < a.windowStart →
        a.identity ≠ call.identity ∧ prunes windowMs t = false ∧ prunes windowMs ⟨s,event,s'⟩ = false :=
      fun t mem a fell later => before t mem _ mem_cons_self a fell call got later
    have counting := tally.next call (fun t mem a fell later => ⟨(earlier t mem a fell later).1,(earlier t mem a fell later).2.1⟩)
    constructor
    · intro identity entry held
      rw [next,fallBack_get] at held
      rw [fallbacks_snoc,got]
      split at held
      · rename_i own
        subst own
        cases held
        simp [of,counting]
      · rename_i other
        have old := Option.eq_some_of_filter_eq_some held
        simpa [of,Ne.symm other] using tally.exact identity entry old
    · intro identity windowStart seen
      rw [fallbacks_snoc,got] at seen
      rcases eq_or_ne identity call.identity with rfl | own
      · refine .inl ⟨⟨call.windowStart,localCount s.counts call⟩,by rw [next,fallBack_get,if_pos rfl],?_⟩
        by_cases here : windowStart = call.windowStart
        · exact Nat.le_of_eq here
        · have old : 0 < fallbacks windowMs ts call.identity windowStart := by simpa [of,Ne.symm here] using seen
          obtain ⟨t,mem,a,fell,named,rfl⟩ := fallbacks_pos.mp old
          exact Nat.not_lt.mp (fun later => (earlier t mem a fell later).1 named)
      · have old : 0 < fallbacks windowMs ts identity windowStart := by simpa [of,Ne.symm own] using seen
        rcases tally.kept identity windowStart old with ⟨entry,held,later⟩ | ⟨t,mem,pruned⟩
        · rw [next,fallBack_get,if_neg own,held]
          by_cases stays : (!crowded s.counts call || entry.windowStart = call.windowStart) = true
          · exact .inl ⟨entry,by simp [stays],later⟩
          · -- a prune of a later window took the entry
            simp only [Bool.or_eq_true,Bool.not_eq_true',decide_eq_true_eq,not_or,Bool.not_eq_false] at stays
            have pruned : prunes windowMs ⟨s,event,s'⟩ = true := by simpa [prunes,got] using stays.1
            obtain ⟨pos,exact⟩ := tally.exact identity entry held
            obtain ⟨t,mem,a,fell,_⟩ := fallbacks_pos.mp (exact ▸ pos)
            have bound : entry.windowStart ≤ call.windowStart := by
              apply Nat.not_lt.mp
              intro _
              rw [(earlier t mem a fell (by omega)).2.2] at pruned
              cases pruned
            refine .inr ⟨_,mem_concat_self,pruned,call,got,?_⟩
            have apart := stays.2
            omega
        · exact .inr ⟨t,mem_append_left _ mem,pruned⟩

theorem runs_tally (path : Run (step windowMs limit) (.start stored) ts s) (ordered : InOrder windowMs ts) :
    Tally windowMs ts s.counts ∧
      ∀ identity windowStart, admitted s identity windowStart = min (fallbacks windowMs ts identity windowStart) (limit identity) := by
  induction path with
  | nil =>
    refine ⟨⟨?_,?_⟩,?_⟩
    · intro identity _ held
      cases held
    · intro identity windowStart seen
      simp [fallbacks] at seen
    · intro identity windowStart
      simp [admitted,fallbacks,Pod.start]
  | @snoc ts s event next prior ran ih =>
    obtain ⟨tally,exact⟩ := ih (pairwise_append.mp ordered).1
    refine ⟨tally.step ran ordered,?_⟩
    intro identity windowStart
    rw [fallbacks_snoc]
    rcases step_effect ran with ⟨none,_,same⟩ | ⟨call,got,_,returned⟩
    · rw [same,exact,none]
      simp
    · have counting := tally.next call (fun t mem a fell later =>
        have apart := (pairwise_append.mp ordered).2.2 t mem _ mem_cons_self a fell call got later
        ⟨apart.1,apart.2.1⟩)
      have before := exact identity windowStart
      simp only [admitted] at before ⊢
      rw [returned,countP_append,before,got]
      by_cases own : of identity windowStart call = true
      · obtain ⟨rfl,rfl⟩ : call.identity = identity ∧ call.windowStart = windowStart := by simpa [of] using own
        simp only [countP_singleton,own,result,Option.any_some,counting]
        by_cases room : fallbacks windowMs ts call.identity call.windowStart + 1 ≤ limit call.identity
        · simp [room]
          omega
        · simp [room]
          omega
      · simp [own]

-- A window's local counter lets through no more calls than the limit.
theorem fallbacks_bounded (path : Run (step windowMs limit) (.start stored) ts s) (ordered : InOrder windowMs ts)
    (identity : String) (windowStart : Nat) : admitted s identity windowStart ≤ limit identity := by
  rw [(runs_tally path ordered).2]
  exact Nat.min_le_right _ _
end

namespace Sample
def windowMs : WindowMs := ⟨1000,by decide⟩
def limit : String → Nat := fun _ => 1

def prompt : List Event :=
  [.consume 0 "key",.incrementFailed 0,.consume 10 "key",.incrementFailed 1,.consume 1000 "key",.incrementFailed 2]

-- The first call learns of the failure only in the second window.
def stalled : List Event :=
  [.consume 0 "key",.consume 1000 "key",.incrementFailed 1,.incrementFailed 0,.consume 1001 "key",.incrementFailed 2]
end Sample

open Sample

theorem prompt_fallbacks_bounded : ∃ ts s, Run (step windowMs limit) (.start true) ts s ∧
    InOrder windowMs ts ∧ fallbacks windowMs ts "key" 0 = 2 ∧ admitted s "key" 0 ≤ limit "key" := by
  have observed : (replay (step windowMs limit) (.start true) prompt).map (fun result =>
      (decide (InOrder windowMs result.1),fallbacks windowMs result.1 "key" 0)) = .ok (true,2) := by rfl
  obtain ⟨ts,s,path,ordered,twice⟩ := Runs.replay_pair observed
  have inOrder := of_decide_eq_true ordered
  exact ⟨ts,s,path,inOrder,twice,fallbacks_bounded path inOrder "key" 0⟩

theorem stalled_call_reopens_window : ∃ ts s, Run (step windowMs limit) (.start true) ts s ∧
    ¬ admitted s "key" 1000 ≤ limit "key" := by
  have observed : (replay (step windowMs limit) (.start true) stalled).map (fun result =>
      admitted result.2 "key" 1000) = .ok 2 := by rfl
  obtain ⟨ts,s,path,twice⟩ := Runs.replay_observed observed
  refine ⟨ts,s,path,?_⟩
  rw [twice]
  decide

end StellarPriceOracle.TenantWindow
