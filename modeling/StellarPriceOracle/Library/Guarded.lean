import Mathlib.Logic.Basic

namespace Guarded
open List hiding all
open Except (error ok)

-- A guarded computation stops at its first failing guard; the caller keeps its state.
def require (condition : Prop) [Decidable condition] (failure : ε) : Except ε Unit :=
  if condition then .ok () else .error failure

def someOr (value : Option α) (failure : ε) : Except ε α :=
  match value with
  | some found => .ok found
  | none => .error failure

def addBelow (limit : Nat) (failure : ε) (a b : Nat) : Except ε Nat :=
  if a + b < limit then .ok (a + b) else .error failure

def addWithin (low high : Int) (failure : ε) (a b : Int) : Except ε Int :=
  if low ≤ a + b ∧ a + b < high then .ok (a + b) else .error failure

@[simp] theorem bind_ok {f : α → Except ε β} : (x >>= f) = .ok r ↔ ∃ a, x = .ok a ∧ f a = .ok r := by
  cases x <;> simp [bind,Except.bind]

section
variable {ε : Type u} {α : Type v} {failure : ε} {x : Except ε α}

@[simp] theorem require_ok [Decidable condition] : require condition failure = .ok u ↔ condition := by
  unfold require
  split <;> simp_all

@[simp] theorem someOr_ok : someOr value failure = .ok found ↔ value = some found := by
  cases value <;> simp [someOr]

theorem guard_ok [Decidable condition] {f : Unit → Except ε β} :
    (require condition failure >>= f) = .ok r ↔ condition ∧ f () = .ok r := by
  rw [bind_ok]
  constructor
  · rintro ⟨_,met,rest⟩
    exact ⟨require_ok.mp met,rest⟩
  · rintro ⟨met,rest⟩
    exact ⟨(),require_ok.mpr met,rest⟩

theorem lookup_ok {f : α → Except ε β} : (someOr value failure >>= f) = .ok r ↔ ∃ a, value = some a ∧ f a = .ok r := by simp

@[simp] theorem addBelow_ok : addBelow limit failure a b = .ok c ↔ a + b < limit ∧ a + b = c := by
  unfold addBelow
  split
  · rename_i below
    simp [below]
  · rename_i above
    simp [above]

@[simp] theorem addWithin_ok : addWithin low high failure a b = .ok c ↔ (low ≤ a + b ∧ a + b < high) ∧ a + b = c := by
  unfold addWithin
  split
  · rename_i inside
    simp [inside]
  · rename_i out
    simp [out]

@[simp] theorem mapError_ok : x.mapError f = .ok a ↔ x = .ok a := by
  cases x with
  | error =>
    constructor
    · intro failed
      cases failed
    · intro failed
      cases failed
  | ok => exact ⟨fun same => congrArg _ (ok.inj same),fun same => congrArg _ (ok.inj same)⟩

theorem ok_bind : ((.ok a : Except ε α) >>= f) = f a := rfl

theorem ok_of_toOption (got : x.toOption = some a) : x = .ok a := by
  cases x with
  | error => cases got
  | ok => exact congrArg _ (Option.some.inj got)

theorem ok_of_toBool (done : x.toBool = true) : ∃ a, x = .ok a := by
  cases x with
  | error => cases done
  | ok value => exact ⟨value,rfl⟩

theorem error_of_map (failed : x.map f = .error failure) : x = .error failure := by
  cases x with
  | error => exact congrArg _ (error.inj failed)
  | ok => cases failed

def Throws (x : Except ε α) : Prop := ∃ failure, x = .error failure

@[simp] theorem throws_ok : ¬ Throws (.ok a : Except ε α) := by
  rintro ⟨_,failed⟩
  cases failed

@[simp] theorem throws_error : Throws (.error failure : Except ε α) := ⟨failure,rfl⟩

theorem not_throws : ¬ Throws x ↔ ∃ a, x = .ok a := by
  cases x <;> simp

theorem throws_bind : Throws (x >>= f) ↔ Throws x ∨ ∃ a, x = .ok a ∧ Throws (f a) := by
  cases x <;> simp [bind,Except.bind]

@[simp] theorem throws_map : Throws (x.map f) ↔ Throws x := by
  cases x <;> simp [Except.map]

theorem throws_bind_each (each : ∀ a, Throws (f a) ↔ P) : Throws (x >>= f) ↔ Throws x ∨ P := by
  rw [throws_bind]
  simp only [each]
  cases x with
  | error failure | ok value => simp

end

def collect (f : α → Except ε (List β)) : List α → Except ε (List β)
  | [] => .ok []
  | a :: rest => do
    let found ← f a
    let later ← collect f rest
    .ok (found ++ later)

theorem collect_cons :
    collect f (a :: rest) = .ok all ↔ ∃ got later, f a = .ok got ∧ collect f rest = .ok later ∧ all = got ++ later := by
  simp only [collect,bind_ok,ok.injEq]
  constructor
  · rintro ⟨got,here,later,after,rfl⟩
    exact ⟨got,later,here,after,rfl⟩
  · rintro ⟨got,later,here,after,rfl⟩
    exact ⟨got,here,later,after,rfl⟩

theorem collect_append : collect f (first ++ second) = (do
      let got ← collect f first
      let later ← collect f second
      .ok (got ++ later)) := by
  induction first with
  | nil => cases given : collect f second <;> simp [collect,given,bind,Except.bind]
  | cons a rest ih =>
    simp only [cons_append,collect,ih]
    cases f a <;> cases collect f rest <;> cases collect f second <;> simp [bind,Except.bind]

theorem collect_throws : Throws (collect f l) ↔ ∃ a ∈ l, Throws (f a) := by
  induction l with
  | nil => simp [collect]
  | cons a rest ih =>
    rw [collect,throws_bind_each (P := Throws (collect f rest)),ih]
    · simp
    · intro _
      rw [throws_bind_each (P := False)] <;> simp

theorem collect_nothing : collect f l = .ok [] ↔ ∀ a ∈ l, f a = .ok [] := by
  induction l with
  | nil => simp [collect]
  | cons _ _ ih =>
    rw [collect_cons,forall_mem_cons,← ih]
    constructor
    · rintro ⟨_,_,here,after,empty⟩
      obtain ⟨rfl,rfl⟩ := append_eq_nil_iff.mp empty.symm
      exact ⟨here,after⟩
    · rintro ⟨here,after⟩
      exact ⟨[],[],here,after,rfl⟩

section
variable {ε α β : Type} {P : Except ε β → Prop} {failure : ε}

theorem of_require [Decidable condition] (failed : P (.error failure))
    (passed : condition → P (rest ())) : P (require condition failure >>= rest) := by
  by_cases met : condition
  · simpa [require,met,bind,Except.bind] using passed met
  · simpa [require,met,bind,Except.bind] using failed

theorem of_someOr (failed : P (.error failure))
    (passed : ∀ got, value = some got → P (rest got)) : P (someOr value failure >>= rest) := by
  cases value with
  | none => exact failed
  | some got => exact passed got rfl
end

-- A call that throws keeps what it wrote before: both outcomes carry the state.
def stateOf : Except (ε × σ) (β × σ) → σ
  | .ok (_,s) => s
  | .error (_,s) => s

def keeping {ε ε' σ α : Type} (x : Except ε' α) (failure : ε' → ε) (kept : σ) : Except (ε × σ) α := x.mapError (fun e => (failure e,kept))

theorem keeping_ok {failing : ε' → ε} : keeping x failing kept = .ok a ↔ x = .ok a := by
  rw [keeping,mapError_ok]

theorem of_keeping {P : Except (ε × σ) β → Prop} {failing : ε' → ε}
    {rest : α → Except (ε × σ) β} (failed : ∀ e, P (.error (failing e,kept))) (passed : ∀ a, x = .ok a → P (rest a)) :
    P (keeping x failing kept >>= rest) := by
  cases x with
  | error e => exact failed e
  | ok a => exact passed a rfl

section
variable {ε σ α β : Type} {P : σ → Prop} {failure : ε}

theorem stateOf_require [Decidable condition] (failed : P kept)
    (passed : condition → P (stateOf (rest ()))) : P (stateOf (require condition (failure,kept) >>= rest)) :=
  of_require (P := fun r => P (stateOf r)) failed passed

theorem stateOf_someOr {rest : α → Except (ε × σ) (β × σ)} (failed : P kept)
    (passed : ∀ got, value = some got → P (stateOf (rest got))) : P (stateOf (someOr value (failure,kept) >>= rest)) :=
  of_someOr (P := fun r => P (stateOf r)) failed passed

theorem stateOf_keeping {x : Except ε' α} {rest : α → Except (ε × σ) (β × σ)} (failed : P kept)
    (passed : ∀ a, x = .ok a → P (stateOf (rest a))) : P (stateOf (keeping x failing kept >>= rest)) :=
  of_keeping (P := fun r => P (stateOf r)) (fun _ => failed) passed
end

def inTurn (f : σ → α → Except ε σ) : σ → List α → Except ε σ
  | s,[] => .ok s
  | s,a :: rest => do
    let next ← f s a
    inTurn f next rest

theorem inTurn_each {l : List α} (done : inTurn f s l = .ok last) (mem : a ∈ l) : ∃ before after, f before a = .ok after := by
  induction l generalizing s with
  | nil => cases mem
  | cons _ _ ih =>
    obtain ⟨next,here,later⟩ := bind_ok.mp done
    rcases mem_cons.mp mem with rfl | behind
    · exact ⟨s,next,here⟩
    · exact ih later behind

-- Where all steps that write what is observed write the same, the order does not matter.
theorem inTurn_settles {f : σ → α → Except ε σ} (observe : σ → V) (write : α → Option V) {l : List α}
    (writes : ∀ s a next, f s a = .ok next → observe next = (write a).getD (observe s)) (agreed : ∀ a ∈ l, ∀ v, write a = some v → v = target)
    (reached : observe s = target ∨ ∃ a ∈ l, write a ≠ none) (done : inTurn f s l = .ok last) : observe last = target := by
  induction l generalizing s with
  | nil =>
    cases done
    exact reached.resolve_right (by simp)
  | cons first _ ih =>
    obtain ⟨next,here,later⟩ := bind_ok.mp done
    refine ih (fun a behind => agreed a (mem_cons_of_mem _ behind)) ?_ later
    rw [writes s first next here]
    cases written : write first with
    | some v => exact .inl (agreed first mem_cons_self v written)
    | none =>
      refine reached.imp_right ?_
      rintro ⟨a,among,some⟩
      rcases mem_cons.mp among with rfl | behind
      · exact absurd written some
      · exact ⟨a,behind,some⟩

def each (f : α → Except ε β) : List α → Except ε (List β)
  | [] => .ok []
  | a :: rest => do
    let b ← f a
    let later ← each f rest
    .ok (b :: later)

theorem each_mem {l : List α} (done : each f l = .ok all) (mem : b ∈ all) : ∃ a ∈ l, f a = .ok b := by
  induction l generalizing all with
  | nil =>
    cases done
    cases mem
  | cons a _ ih =>
    simp only [each,bind_ok,ok.injEq] at done
    obtain ⟨_,here,_,after,rfl⟩ := done
    rcases mem_cons.mp mem with rfl | behind
    · exact ⟨a,mem_cons_self,here⟩
    · obtain ⟨got,among,made⟩ := ih after behind
      exact ⟨got,mem_cons_of_mem a among,made⟩

theorem each_same {f : α → Except ε α} (same : ∀ a ∈ l, f a = .ok a) : each f l = .ok l := by
  induction l with
  | nil => rfl
  | cons _ _ ih =>
    rw [forall_mem_cons] at same
    simp [each,same.1,ih same.2,ok_bind]

end Guarded
