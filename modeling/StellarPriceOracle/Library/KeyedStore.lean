import Mathlib.Logic.Function.Basic

universe u v

-- A store gives every key either nothing or a value of that key's own type.
def KeyedStore (κ : Type u) (V : κ → Type v) := (k : κ) → Option (V k)

namespace KeyedStore
open Function (update update_of_ne update_self)
variable {κ : Type u} {V : κ → Type v} {k other : κ}

def empty : KeyedStore κ V := fun _ => none

def get (s : KeyedStore κ V) (k : κ) : Option (V k) := s k

def set [DecidableEq κ] (s : KeyedStore κ V) (k : κ) (value : V k) : KeyedStore κ V :=
  update s k (some value)

def remove [DecidableEq κ] (s : KeyedStore κ V) (k : κ) : KeyedStore κ V :=
  update s k none

@[simp] theorem get_empty : (empty : KeyedStore κ V).get k = none := rfl

section Updates
variable [DecidableEq κ] {s : KeyedStore κ V}

@[simp] theorem get_set : (s.set k value).get k = some value := update_self ..

@[simp] theorem get_set_ne (ne : other ≠ k) : (s.set k value).get other = s.get other :=
  update_of_ne ne ..

theorem get_set_some {s : KeyedStore κ (fun _ => β)} : (s.set k value).get other = some held ↔
    other = k ∧ value = held ∨ other ≠ k ∧ s.get other = some held := by
  rcases eq_or_ne other k with rfl | here
  · simp
  · simp [here]

@[simp] theorem get_remove : (s.remove k).get k = none := update_self ..

@[simp] theorem get_remove_ne (ne : other ≠ k) : (s.remove k).get other = s.get other :=
  update_of_ne ne ..

end Updates

def Keeps (k : κ) (s : KeyedStore κ V) (call : Except ε (KeyedStore κ V)) : Prop := ∀ next, call = .ok next → next.get k = s.get k

@[simp] theorem keeps_bind : Keeps k s (x >>= f) ↔ ∀ a, x = .ok a → Keeps k s (f a) := by
  cases x <;> simp [Keeps,bind,Except.bind]

@[simp] theorem keeps_ok : Keeps k s (.ok next : Except ε (KeyedStore κ V)) ↔ next.get k = s.get k := by
  simp [Keeps]

def AgreeOn (on : κ → Prop) (s t : KeyedStore κ V) : Prop := ∀ k, on k → s.get k = t.get k

section Agreement
variable [DecidableEq κ]

theorem AgreeOn.set (agree : AgreeOn on s t) : AgreeOn on (s.set k value) (t.set k value) := by
  intro other seen
  rcases eq_or_ne other k with rfl | same
  · rw [get_set,get_set]
  · rw [get_set_ne same,get_set_ne same]
    exact agree other seen

theorem AgreeOn.remove (agree : AgreeOn on s t) : AgreeOn on (s.remove k) (t.remove k) := by
  intro other seen
  rcases eq_or_ne other k with rfl | same
  · rw [get_remove,get_remove]
  · rw [get_remove_ne same,get_remove_ne same]
    exact agree other seen

theorem agreeOn_set_unseen (unseen : ¬ on k) : AgreeOn on (s.set k value) s := by
  intro _ seen
  apply get_set_ne
  rintro rfl
  exact unseen seen

theorem AgreeOn.set_iff (agree : AgreeOn on s t) (seen : on k) : AgreeOn on s (t.set k value) ↔ t.get k = some value := by
  constructor
  · intro same
    rw [← agree k seen,same k seen,get_set]
  · intro held other looked
    rcases eq_or_ne other k with rfl | here
    · rw [agree other looked,held,get_set]
    · rw [get_set_ne here]
      exact agree other looked

theorem AgreeOn.remove_iff (agree : AgreeOn on s t) (seen : on k) : AgreeOn on s (t.remove k) ↔ t.get k = none := by
  constructor
  · intro same
    rw [← agree k seen,same k seen,get_remove]
  · intro absent other looked
    rcases eq_or_ne other k with rfl | here
    · rw [agree other looked,absent,get_remove]
    · rw [get_remove_ne here]
      exact agree other looked

end Agreement
end KeyedStore
