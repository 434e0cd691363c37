import StellarPriceOracle.PriceRegister
import StellarPriceOracle.Library.KeyedStore
import StellarPriceOracle.Library.Runs

namespace StellarPriceOracle.EpochFencing
open PriceRegister Guarded
open Runs (Transition Run mem_snoc)
open KeyedStore
open List (IsPrefix prefix_rfl)

structure Suspended where
  region : String
  next : Int
  deriving DecidableEq

structure Node where
  register : LwwPriceRegister
  hooked : Bool
  calls : Nat
  pending : KeyedStore Nat (fun _ => Suspended)
  returned : List Suspended

def Node.start (hooked : Bool) : Node := ⟨.new,hooked,0,KeyedStore.empty,[]⟩

inductive Event where
  | merge (now : Int) (record : RegionPriceRecord)
  | restoreEpoch (region : String) (persisted : Int)
  | advanceEpoch (region : String) (proposed : Option Int)
  | persisted (call : Nat)
  | persistFailed (call : Nat)

inductive Impossible where
  | notSuspended
  deriving DecidableEq

def finish (s : Node) (p : Suspended) : Node :=
  {s with register := storeEpoch s.register p.region p.next, returned := s.returned ++ [p]}

def step (s : Node) : Event → Except Impossible Node
  | .merge now record => .ok {s with register := (merge now s.register record).2}
  | .restoreEpoch region persisted => .ok {s with register := restoreEpoch s.register region persisted}
  | .advanceEpoch region proposed =>
    let p : Suspended := ⟨region,nextEpoch s.register region proposed⟩
    if s.hooked then .ok {s with calls := s.calls + 1, pending := s.pending.set s.calls p}
    else .ok (finish {s with calls := s.calls + 1} p)
  | .persisted call => do
    let p ← someOr (s.pending.get call) .notSuspended
    .ok (finish {s with pending := s.pending.remove call} p)
  | .persistFailed call => do
    let _ ← someOr (s.pending.get call) .notSuspended
    .ok {s with pending := s.pending.remove call}

abbrev Trace := List (Transition Node Event)

def Raises (s s' : Node) : Prop := ∀ region, epochFor s.register region ≤ epochFor s'.register region

def completes (t : Transition Node Event) : Option (Nat × Suspended) :=
  match t.input with
  | .persisted call => (t.before.pending.get call).map (fun p => (call,p))
  | _ => none

-- A step that brings an epoch above the one about to be stored, or completes another call.
@[simp] def overtakes (t : Transition Node Event) (p : Suspended) : Bool :=
  match t.input with
  | .merge _ record => record.region = p.region ∧ p.next < record.epoch
  | .restoreEpoch region persisted => region = p.region ∧ p.next < persisted
  | _ => (completes t).any (fun (_,q) => q.region = p.region ∧ p.next ≤ q.next)

def Overtaken (ts : Trace) (call : Nat) (p : Suspended) : Prop :=
  ∃ u ∈ ts, u.before.pending.get call = some p ∧ overtakes u p = true

instance : Decidable (Overtaken ts call p) := inferInstanceAs (Decidable (∃ u ∈ ts, _ ∧ _))

def Undisturbed (ts : Trace) : Prop :=
  ∀ n < ts.length, ∀ t ∈ ts[n]?, ∀ c ∈ completes t, ¬ Overtaken (ts.take n) c.1 c.2

instance : Decidable (Undisturbed ts) := inferInstanceAs (Decidable (∀ n < ts.length, _))

-- The region's epoch plus one is a number that a double holds.
@[simp] def electsSafely (t : Transition Node Event) : Bool :=
  match t.input with
  | .advanceEpoch region _ => Double.Safe (epochFor t.before.register region + 1)
  | _ => true

theorem Overtaken.snoc (overtaken : Overtaken ts call p) : Overtaken (ts ++ [t]) call p := by
  obtain ⟨u,mem,suspended,passed⟩ := overtaken
  exact ⟨u,List.mem_append_left _ mem,suspended,passed⟩

theorem overtaken_now (suspended : t.before.pending.get call = some p) (passed : overtakes t p = true) :
    Overtaken (ts ++ [t]) call p := ⟨t,List.mem_concat_self,suspended,passed⟩

theorem undisturbed_snoc : Undisturbed (ts ++ [t]) ↔
    Undisturbed ts ∧ ∀ call p, completes t = some (call,p) → ¬ Overtaken ts call p := by
  constructor
  · intro undisturbed
    refine ⟨?_,?_⟩
    · intro n within u got c completed
      have here : (ts ++ [t])[n]? = some u := by
        rw [List.getElem?_append_left within]
        exact got
      have still := undisturbed n (by simp; omega) u here c completed
      rwa [List.take_append_of_le_length (Nat.le_of_lt within)] at still
    · intro call p completed
      have still := undisturbed ts.length (by simp) t (by simp) (call,p) completed
      rwa [List.take_left] at still
  · rintro ⟨undisturbed,last⟩ n within u got ⟨call,p⟩ completed
    rcases Nat.lt_or_ge n ts.length with earlier | _
    · rw [List.getElem?_append_left earlier] at got
      rw [List.take_append_of_le_length (Nat.le_of_lt earlier)]
      exact undisturbed n earlier u got _ completed
    · have here : n = ts.length := by
        simp at within
        omega
      subst here
      simp at got
      subst got
      rw [List.take_left]
      exact last call p completed

def Synced (r : LwwPriceRegister) : Prop := ∀ region, (r.localEpochs.get region).getD 0 ≤ epochFor r region

theorem Synced.currentEpoch (synced : Synced r) (region : String) : currentEpoch r region = epochFor r region :=
  Int.max_eq_right (synced region)

theorem nextEpoch_above (safe : Double.Safe (currentEpoch r region + 1)) (proposed : Option Int) :
    currentEpoch r region < nextEpoch r region proposed := by
  have exact : Double.addInt (currentEpoch r region) 1 = currentEpoch r region + 1 := Double.addInt_safe safe
  unfold nextEpoch
  cases proposed with
  | none =>
    simp only [exact]
    exact Int.lt_succ _
  | some =>
    simp only [exact]
    exact Int.lt_of_lt_of_le (Int.lt_succ _) (Int.le_max_right _ _)

theorem storeEpoch_epochFor : epochFor (storeEpoch r region next) other = if region = other then next else epochFor r other := by
  by_cases here : region = other
  · simp [epochFor,storeEpoch,here]
  · simp [epochFor,storeEpoch,here,InsertionMap.get_set_ne (Ne.symm here)]

section
variable (synced : Synced r)
include synced

theorem storeEpoch_synced : Synced (storeEpoch r region next) := by
  intro other
  rw [storeEpoch_epochFor]
  by_cases here : region = other
  · simp [storeEpoch,here]
  · simpa [storeEpoch,here,InsertionMap.get_set_ne (Ne.symm here)] using synced other

theorem restoreEpoch_cases : (epochFor r region < persisted ∧ restoreEpoch r region persisted = storeEpoch r region persisted) ∨
    (persisted ≤ epochFor r region ∧ restoreEpoch r region persisted = r) := by
  simp only [restoreEpoch,synced.currentEpoch]
  split
  · rename_i above
    exact .inl ⟨above,rfl⟩
  · rename_i below
    exact .inr ⟨Int.not_lt.mp below,rfl⟩

theorem restoreEpoch_epochFor : epochFor (restoreEpoch r region persisted) other =
    if region = other then max (epochFor r other) persisted else epochFor r other := by
  rcases restoreEpoch_cases synced with ⟨above,same⟩ | ⟨below,same⟩
  · rw [same,storeEpoch_epochFor]
    rcases eq_or_ne region other with rfl | here
    · rw [if_pos rfl,if_pos rfl,Int.max_eq_right (Int.le_of_lt above)]
    · rw [if_neg here,if_neg here]
  · rw [same]
    rcases eq_or_ne region other with rfl | here
    · rw [if_pos rfl,Int.max_eq_left below]
    · rw [if_neg here]

theorem merge_synced : Synced (merge now r record).2 := by
  intro region
  rw [merge_localEpochs,merge_epochFor]
  split
  · exact Int.le_trans (synced region) (Int.le_max_left _ _)
  · exact synced region

theorem restoreEpoch_synced : Synced (restoreEpoch r region persisted) := by
  rcases restoreEpoch_cases synced with ⟨_,same⟩ | ⟨_,same⟩
  · rw [same]
    exact storeEpoch_synced synced
  · rw [same]
    exact synced

end

theorem step_synced (ran : step s event = .ok s') (synced : Synced s.register) : Synced s'.register := by
  cases event with
  | merge =>
    cases ran
    exact merge_synced synced
  | restoreEpoch =>
    cases ran
    exact restoreEpoch_synced synced
  | advanceEpoch =>
    simp only [step] at ran
    split at ran
    · cases ran
      exact synced
    · cases ran
      exact storeEpoch_synced synced
  | persisted =>
    obtain ⟨p,_,ran⟩ := lookup_ok.mp ran
    cases ran
    exact storeEpoch_synced synced
  | persistFailed =>
    obtain ⟨_,_,ran⟩ := lookup_ok.mp ran
    cases ran
    exact synced

theorem runs_synced (path : Run step (.start hooked) ts s) : Synced s.register := by
  apply path.invariant_of (G := fun _ => True) (fun _ _ => trivial) (fun _ => Int.le_refl _)
  intro t _ ran synced
  exact step_synced ran synced

theorem persisted_parts (ran : step s (.persisted call) = .ok s') :
    ∃ p, s.pending.get call = some p ∧ s' = finish {s with pending := s.pending.remove call} p := by
  obtain ⟨p,suspended,ran⟩ := lookup_ok.mp ran
  cases ran
  exact ⟨p,suspended,rfl⟩

theorem persistFailed_parts (ran : step s (.persistFailed call) = .ok s') : s' = {s with pending := s.pending.remove call} := by
  obtain ⟨_,_,ran⟩ := lookup_ok.mp ran
  cases ran
  rfl

-- Returned epochs are distinct and behind the region's; a call not overtaken holds a new one.
structure Ordered (ts : Trace) (s : Node) : Prop where
  unhooked : s.hooked = false → ∀ call, s.pending.get call = none
  behind : ∀ q ∈ s.returned, q.next ≤ epochFor s.register q.region
  distinct : s.returned.Nodup
  ahead : ∀ call p, s.pending.get call = some p →
    Overtaken ts call p ∨ (epochFor s.register p.region ≤ p.next ∧ p ∉ s.returned)

theorem ordered_start : Ordered [] (.start hooked) where
  unhooked := fun _ _ => rfl
  behind := by simp [Node.start]
  distinct := List.nodup_nil
  ahead := by
    intro _ p suspended
    cases suspended

section
variable (ordered : Ordered ts s)
include ordered

theorem Ordered.unhooked_left {pending : KeyedStore Nat (fun _ => Suspended)}
    (left : ∀ call q, pending.get call = some q → s.pending.get call = some q) (unhooked : s.hooked = false) (call : Nat) :
    pending.get call = none := by
  cases suspended : pending.get call with
  | none => rfl
  | some q =>
    have held := left call q suspended
    rw [ordered.unhooked unhooked call] at held
    cases held

theorem Ordered.ahead_snoc (suspended : s.pending.get call = some p) :
    Overtaken (ts ++ [t]) call p ∨ (epochFor s.register p.region ≤ p.next ∧ p ∉ s.returned) := by
  rcases ordered.ahead call p suspended with overtaken | fresh
  · exact .inl overtaken.snoc
  · exact .inr fresh

theorem Ordered.brings (brought : ∀ other, epochFor r other =
      if region = other then max (epochFor s.register other) epoch else epochFor s.register other)
    (overtaking : ∀ p : Suspended, region = p.region → p.next < epoch → overtakes ⟨s,event,{s with register := r}⟩ p = true) :
    Raises s {s with register := r} ∧ Ordered (ts ++ [⟨s,event,{s with register := r}⟩]) {s with register := r} := by
  have raises : Raises s {s with register := r} := by
    intro _
    simp only [brought]
    split
    · exact Int.le_max_left _ _
    · exact Int.le_refl _
  refine ⟨raises,ordered.unhooked,?_,ordered.distinct,?_⟩
  · intro q returned
    exact Int.le_trans (ordered.behind q returned) (raises q.region)
  · intro _ p suspended
    rcases ordered.ahead_snoc suspended with overtaken | ⟨ahead,new⟩
    · exact .inl overtaken
    · by_cases passed : region = p.region ∧ p.next < epoch
      · exact .inl (overtaken_now suspended (overtaking p passed.1 passed.2))
      · refine .inr ⟨?_,new⟩
        simp only [brought]
        split
        · rename_i here
          exact Int.max_le.mpr ⟨ahead,Int.not_lt.mp (fun above => passed ⟨here,above⟩)⟩
        · exact ahead

theorem nextEpoch_new (synced : Synced s.register) (safe : Double.Safe (epochFor s.register region + 1)) (proposed : Option Int) :
    epochFor s.register region < nextEpoch s.register region proposed ∧
    (⟨region,nextEpoch s.register region proposed⟩ : Suspended) ∉ s.returned := by
  rw [← synced.currentEpoch] at safe
  have above := nextEpoch_above safe proposed
  rw [synced.currentEpoch] at above
  refine ⟨above,?_⟩
  intro returned
  exact absurd (ordered.behind _ returned) (Int.not_le.mpr above)

theorem Ordered.finishes (ahead : epochFor s.register p.region ≤ p.next) (new : p ∉ s.returned)
    (left : ∀ call q, pending.get call = some q → s.pending.get call = some q)
    (overtaking : ∀ call q, pending.get call = some q → q.region = p.region → q.next ≤ p.next →
      overtakes ⟨s,event,finish {s with calls := calls, pending := pending} p⟩ q = true) :
    Raises s (finish {s with calls := calls, pending := pending} p) ∧
    Ordered (ts ++ [⟨s,event,finish {s with calls := calls, pending := pending} p⟩])
      (finish {s with calls := calls, pending := pending} p) := by
  have has : ∀ other, epochFor (finish {s with calls := calls, pending := pending} p).register other =
      if p.region = other then p.next else epochFor s.register other := fun other => storeEpoch_epochFor
  have raises : Raises s (finish {s with calls := calls, pending := pending} p) := by
    intro _
    rw [has]
    split
    · rename_i here
      exact here ▸ ahead
    · exact Int.le_refl _
  refine ⟨raises,ordered.unhooked_left left,?_,?_,?_⟩
  · intro q returned
    rcases mem_snoc.mp returned with old | rfl
    · exact Int.le_trans (ordered.behind q old) (raises q.region)
    · exact Int.le_of_eq (by rw [has,if_pos rfl])
  · rw [finish,List.nodup_append]
    refine ⟨ordered.distinct,by simp,?_⟩
    rintro a old b last rfl
    exact new (List.mem_singleton.mp last ▸ old)
  · intro call q suspended
    rcases ordered.ahead_snoc (left call q suspended) with overtaken | ⟨above,fresh⟩
    · exact .inl overtaken
    · by_cases passed : q.region = p.region ∧ q.next ≤ p.next
      · exact .inl (overtaken_now (left call q suspended) (overtaking call q suspended passed.1 passed.2))
      · refine .inr ⟨?_,?_⟩
        · rw [has]
          split
          · rename_i here
            exact Int.le_of_lt (Int.not_le.mp (fun below => passed ⟨here.symm,below⟩))
          · exact above
        · intro returned
          rcases mem_snoc.mp returned with old | rfl
          · exact fresh old
          · exact passed ⟨rfl,Int.le_refl _⟩

end

theorem removed_left {pending : KeyedStore Nat (fun _ => Suspended)} (held : (pending.remove call).get other = some q) :
    pending.get other = some q := by
  rcases eq_or_ne other call with rfl | here
  · rw [get_remove] at held
    cases held
  · rwa [get_remove_ne here] at held

theorem step_ordered (ran : step s event = .ok s') (synced : Synced s.register) (ordered : Ordered ts s)
    (safe : electsSafely ⟨s,event,s'⟩ = true)
    (undisturbed : ∀ call p, completes ⟨s,event,s'⟩ = some (call,p) → ¬ Overtaken ts call p) :
    Raises s s' ∧ Ordered (ts ++ [⟨s,event,s'⟩]) s' := by
  cases event with
  | merge =>
    cases ran
    apply ordered.brings (fun _ => merge_epochFor)
    intro p here above
    simp [here,above]
  | restoreEpoch =>
    cases ran
    apply ordered.brings (fun _ => restoreEpoch_epochFor synced)
    intro p here above
    simp [here,above]
  | advanceEpoch region proposed =>
    obtain ⟨above,new⟩ := nextEpoch_new ordered synced (of_decide_eq_true safe) proposed
    simp only [step] at ran
    split at ran
    · rename_i hooked
      cases ran
      refine ⟨fun _ => Int.le_refl _,?_,ordered.behind,ordered.distinct,?_⟩
      · intro unhooked
        exact absurd hooked (by simpa using unhooked)
      · intro call p suspended
        rcases get_set_some.mp suspended with ⟨rfl,rfl⟩ | ⟨_,suspended⟩
        · exact .inr ⟨Int.le_of_lt above,new⟩
        · exact ordered.ahead_snoc suspended
    · rename_i unhooked
      cases ran
      apply ordered.finishes (Int.le_of_lt above) new (fun _ _ => id)
      intro call q suspended
      rw [ordered.unhooked (by simpa using unhooked) call] at suspended
      cases suspended
  | persisted call =>
    obtain ⟨p,suspended,rfl⟩ := persisted_parts ran
    have inTime : ¬ Overtaken ts call p := undisturbed call p (by simp [completes,suspended])
    obtain ⟨ahead,new⟩ := (ordered.ahead call p suspended).resolve_left inTime
    apply ordered.finishes ahead new (fun _ _ => removed_left)
    intro _ q _ here below
    simp [completes,suspended,here,below]
  | persistFailed =>
    cases persistFailed_parts ran
    exact ⟨fun _ => Int.le_refl _,ordered.unhooked_left (fun _ _ => removed_left),ordered.behind,ordered.distinct,
      fun _ _ held => ordered.ahead_snoc (removed_left held)⟩

theorem runs_ordered (path : Run step (.start hooked) ts s) (safe : ∀ t ∈ ts, electsSafely t = true) (undisturbed : Undisturbed ts) :
    (∀ t ∈ ts, Raises t.before t.after) ∧ Ordered ts s := by
  induction path with
  | nil => exact ⟨by simp,ordered_start⟩
  | snoc prior ran ih =>
    obtain ⟨earlier,last⟩ := undisturbed_snoc.mp undisturbed
    obtain ⟨raised,ordered⟩ := ih (fun t mem => safe t (List.mem_append_left _ mem)) earlier
    obtain ⟨raises,after⟩ := step_ordered ran (runs_synced prior) ordered (safe _ List.mem_concat_self) last
    refine ⟨?_,after⟩
    intro t mem
    rcases mem_snoc.mp mem with old | rfl
    · exact raised t old
    · exact raises

theorem step_returned (ran : step s event = .ok s') : s.returned <+: s'.returned := by
  cases event with
  | merge now record | restoreEpoch region persisted =>
    cases ran
    exact prefix_rfl
  | advanceEpoch =>
    simp only [step] at ran
    split at ran
    · cases ran
      exact prefix_rfl
    · cases ran
      exact List.prefix_append _ _
  | persisted =>
    obtain ⟨p,_,rfl⟩ := persisted_parts ran
    exact List.prefix_append _ _
  | persistFailed =>
    cases persistFailed_parts ran
    exact prefix_rfl

theorem completes_parts (completed : completes t = some (call,p)) :
    t.input = .persisted call ∧ t.before.pending.get call = some p := by
  unfold completes at completed
  split at completed
  · rename_i _ asked
    simp only [Option.map_eq_some_iff,Prod.mk.injEq] at completed
    obtain ⟨q,suspended,rfl,rfl⟩ := completed
    exact ⟨asked,suspended⟩
  · cases completed

theorem completed_after (ran : step t.before t.input = .ok t.after) (completed : completes t = some (call,p)) :
    t.after = finish {t.before with pending := t.before.pending.remove call} p := by
  obtain ⟨asked,suspended⟩ := completes_parts completed
  rw [asked] at ran
  obtain ⟨q,held,after⟩ := persisted_parts ran
  cases Option.some.inj (suspended.symm.trans held)
  exact after

theorem overtakes_parts (ran : step s event = .ok s') (synced : Synced s.register)
    (passed : overtakes ⟨s,event,s'⟩ p = true) : p.next < epochFor s'.register p.region ∨ p ∈ s'.returned := by
  have other : ∀ call q, completes ⟨s,event,s'⟩ = some (call,q) → q.region = p.region → p.next ≤ q.next →
      p.next < epochFor s'.register p.region ∨ p ∈ s'.returned := by
    intro call q completed here above
    have after : s' = finish {s with pending := s.pending.remove call} q := completed_after ran completed
    subst after
    rcases Int.lt_or_eq_of_le above with higher | level
    · refine .inl ?_
      have has : epochFor (storeEpoch s.register q.region q.next) p.region = q.next := by
        rw [storeEpoch_epochFor,if_pos here]
      exact has ▸ higher
    · have same : p = q := by
        obtain ⟨region,_⟩ := q
        cases here
        cases level
        rfl
      exact .inr (same ▸ List.mem_concat_self)
  cases event with
  | merge =>
    simp only [overtakes,decide_eq_true_eq] at passed
    cases ran
    refine .inl ?_
    rw [merge_epochFor,if_pos passed.1]
    exact Int.lt_of_lt_of_le passed.2 (Int.le_max_right _ _)
  | restoreEpoch =>
    simp only [overtakes,decide_eq_true_eq] at passed
    cases ran
    refine .inl ?_
    rw [restoreEpoch_epochFor synced,if_pos passed.1]
    exact Int.lt_of_lt_of_le passed.2 (Int.le_max_right _ _)
  | advanceEpoch => cases passed
  | persisted =>
    simp only [overtakes,Option.any_eq_true,decide_eq_true_eq] at passed
    obtain ⟨⟨call',q⟩,completed,here,above⟩ := passed
    exact other call' q completed here above
  | persistFailed => cases passed

theorem undisturbed_of (path : Run step (.start hooked) ts s) (raised : ∀ t ∈ ts, Raises t.before t.after)
    (distinct : s.returned.Nodup) : Undisturbed ts := by
  rintro n within t got ⟨call,p⟩ completed overtaken
  obtain ⟨u,early,_,passed⟩ : Overtaken (ts.take n) call p := overtaken
  obtain ⟨_,here⟩ := List.getElem?_eq_some_iff.mp got
  have cut : ts = ts.take n ++ t :: ts.drop (n + 1) := by
    rw [← here,← List.drop_eq_getElem_cons within,List.take_append_drop]
  have grows : ∀ t ∈ ts, t.before.returned <+: t.after.returned := fun t mem => step_returned (path.accepted mem)
  obtain ⟨_,between,split⟩ := List.append_of_mem early
  have mem : t ∈ ts := List.mem_of_getElem? got
  have inside : ∀ v ∈ between, v ∈ ts := by
    intro v member
    apply List.mem_of_mem_take
    rw [split]
    exact List.mem_append_right _ (List.mem_cons_of_mem _ member)
  rw [cut] at path
  have reached := path.split.1
  rw [split] at reached
  have after := completed_after path.split.2 completed
  rcases overtakes_parts reached.split.2 (runs_synced reached.split.1) passed with _ | returned
  · -- the higher epoch is lost when the call completes
    have carried : Raises u.after t.before := reached.suffix.carries (R := Raises) (fun _ _ => Int.le_refl _)
      (fun _ _ _ one two region => Int.le_trans (one region) (two region)) (fun v member => raised v (inside v member))
    have lost := raised t mem p.region
    have has : epochFor t.after.register p.region = p.next := by
      rw [after,finish,storeEpoch_epochFor,if_pos rfl]
    have kept := carried p.region
    omega
  · -- the epoch is returned a second time
    have carried : u.after.returned <+: t.before.returned := reached.suffix.carries (R := fun a b => a.returned <+: b.returned)
      (fun _ => prefix_rfl) (fun _ _ _ => IsPrefix.trans) (fun v member => grows v (inside v member))
    have final : t.after.returned <+: s.returned := path.suffix.carries (R := fun a b => a.returned <+: b.returned)
      (fun _ => prefix_rfl) (fun _ _ _ => IsPrefix.trans)
      (fun v member => grows v (List.mem_of_mem_drop member))
    have twice : (t.before.returned ++ [p]).Nodup := by
      rw [after] at final
      exact distinct.sublist final.sublist
    exact (List.nodup_append.mp twice).2.2 p (carried.subset returned) p List.mem_cons_self rfl

-- While epochs are safe integers, they fence exactly where no completing call was overtaken.
theorem fencing_exact (path : Run step (.start hooked) ts s) (safe : ∀ t ∈ ts, electsSafely t = true) :
    ((∀ t ∈ ts, Raises t.before t.after) ∧ s.returned.Nodup) ↔ Undisturbed ts := by
  constructor
  · rintro ⟨raised,distinct⟩
    exact undisturbed_of path raised distinct
  · intro undisturbed
    obtain ⟨raised,ordered⟩ := runs_ordered path safe undisturbed
    exact ⟨raised,ordered.distinct⟩

namespace Sample
def region : String := "us-east-1"
def record (epoch : Int) : RegionPriceRecord := ⟨region,"XLM",100,7,10,10,.remote,epoch,none,none⟩

def run (events : List Event) : Except Impossible (Trace × Node) := Runs.replay step (.start true) events
end Sample

open Sample

theorem successive_elections_fenced : ∃ ts s, Run step (.start true) ts s ∧
    (∀ t ∈ ts, Raises t.before t.after) ∧ s.returned.Nodup ∧
    s.returned = [⟨region,1⟩,⟨region,7⟩] := by
  have replayed : (run [.advanceEpoch region none,.merge 0 (record 1),.persisted 0,
      .advanceEpoch region (some 7),.merge 0 (record 5),.persisted 1]).map (fun result =>
        (decide ((∀ t ∈ result.1, electsSafely t = true) ∧ Undisturbed result.1),result.2.returned)) =
          .ok (true,[⟨region,1⟩,⟨region,7⟩]) := by decide +kernel
  obtain ⟨ts,s,path,fenced,returned⟩ := Runs.replay_pair replayed
  obtain ⟨safe,undisturbed⟩ := of_decide_eq_true fenced
  obtain ⟨raised,distinct⟩ := (fencing_exact path safe).mpr undisturbed
  exact ⟨ts,s,path,raised,distinct,returned⟩

-- Two calls at once get one epoch, a merge in between is undone, and from 2^53 on adding one gives the same epoch again.
theorem concurrent_elections_unfenced :
    (∃ ts s, Run step (.start true) ts s ∧ s.returned = [⟨region,1⟩,⟨region,1⟩]) ∧
    (∃ ts s t, Run step (.start true) ts s ∧ t ∈ ts ∧ epochFor t.before.register region = 5 ∧
      epochFor t.after.register region = 1) ∧
    ∃ ts s, Run step (.start true) ts s ∧ Undisturbed ts ∧ s.returned = [⟨region,2^53⟩,⟨region,2^53⟩] := by
  have twice : (run [.advanceEpoch region none,.advanceEpoch region none,.persisted 0,
      .persisted 1]).map (fun result => result.2.returned) = .ok [⟨region,1⟩,⟨region,1⟩] := by decide +kernel
  have lowered : (run [.advanceEpoch region none,.merge 0 (record 5),.persisted 0]).map (fun result =>
      result.1.any (fun t => epochFor t.before.register region = 5 ∧ epochFor t.after.register region = 1)) =
        .ok true := by decide +kernel
  have rounded : (run [.restoreEpoch region (2^53),.advanceEpoch region none,.persisted 0,.advanceEpoch region none,
      .persisted 1]).map (fun result => (decide (Undisturbed result.1),result.2.returned)) =
        .ok (true,[⟨region,2^53⟩,⟨region,2^53⟩]) := by decide +kernel
  obtain ⟨ts,s,path,returned⟩ := Runs.replay_observed twice
  obtain ⟨ts',s',path',observed⟩ := Runs.replay_observed lowered
  obtain ⟨t,present,lost⟩ := List.any_eq_true.mp observed
  obtain ⟨us,u,second,undisturbed,again⟩ := Runs.replay_pair rounded
  exact ⟨⟨ts,s,path,returned⟩,⟨ts',s',t,path',present,of_decide_eq_true lost⟩,us,u,second,of_decide_eq_true undisturbed,again⟩

end StellarPriceOracle.EpochFencing
