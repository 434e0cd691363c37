import Mathlib.Data.List.Basic
import Mathlib.Order.Basic

namespace BoundedLog
open List

-- Appending to a log that keeps at most `cap` entries and forgets the oldest.
def push (cap : Nat) (log : List α) (x : α) : List α :=
  if cap ≤ log.length then log.tail ++ [x] else log ++ [x]

@[simp] theorem push_last : (push cap log x).getLast? = some x := by
  unfold push
  split <;> simp

theorem push_map : (push cap log x).map f = push cap (log.map f) (f x) := by
  unfold push
  rw [length_map]
  split <;> simp [map_tail]

theorem push_drop (pos : 0 < cap) : push cap (log.drop (log.length - cap)) x = (log ++ [x]).drop ((log ++ [x]).length - cap) := by
  unfold push
  rw [length_drop,length_append,length_singleton]
  split
  · rename_i full
    rw [tail_drop,drop_append_of_le_length (by omega)]
    congr 2
    omega
  · rename_i room
    have all : log.length - cap = 0 ∧ log.length + 1 - cap = 0 := by omega
    rw [all.1,all.2,drop_zero,drop_zero]

section Ordered
variable {τ : Type} [Preorder τ] {time : α → τ}

def Chronological (time : α → τ) (log : List α) : Prop := log.Pairwise (fun a b => time a ≤ time b)

theorem chronological_last (ordered : Chronological time log) (last : log.getLast? = some y) (mem : x ∈ log) : time x ≤ time y := by
  obtain ⟨_,rfl⟩ := getLast?_eq_some_iff.mp last
  rcases mem_append.mp mem with old | new
  · exact (pairwise_append.mp ordered).2.2 x old y (mem_singleton_self y)
  · rw [mem_singleton.mp new]

theorem push_chronological (ordered : Chronological time log)
    (later : ∀ y, log.getLast? = some y → time y ≤ time x) : Chronological time (push cap log x) := by
  have above : ∀ y ∈ log, time y ≤ time x := by
    intro y mem
    cases last : log.getLast? with
    | none => simp [getLast?_eq_none_iff.mp last] at mem
    | some z => exact (chronological_last ordered last mem).trans (later z last)
  unfold push
  split
  · refine pairwise_append.mpr ⟨ordered.tail,pairwise_singleton _ _,?_⟩
    intro y mem z single
    rw [mem_singleton.mp single]
    exact above y (mem_of_mem_tail mem)
  · refine pairwise_append.mpr ⟨ordered,pairwise_singleton _ _,?_⟩
    intro y mem z single
    rw [mem_singleton.mp single]
    exact above y mem

end Ordered

structure Feed (κ α : Type) where
  latest : κ → Option α
  history : κ → List α

namespace Feed
variable {κ α τ : Type} [DecidableEq κ]

def submit (cap : Nat) (f : Feed κ α) (k : κ) (x : α) : Feed κ α :=
  ⟨Function.update f.latest k (some x),Function.update f.history k (push cap (f.history k) x)⟩

def Matched (f : Feed κ α) : Prop := ∀ k, f.latest k = (f.history k).getLast?

theorem submit_matched {f : Feed κ α} (matched : f.Matched) : (f.submit cap k x).Matched := by
  intro other
  rcases eq_or_ne other k with rfl | same
  · simp [submit]
  · simpa [submit,same] using matched other

variable [Preorder τ] {time : α → τ}

inductive Next (cap : Nat) (time : α → τ) (f : Feed κ α) : Feed κ α → Prop where
  | submit : (∀ y ∈ f.latest k, time y ≤ time x) → Next cap time f (f.submit cap k x)
  | noOp : Next cap time f f

structure Consistent (time : α → τ) (f : Feed κ α) : Prop where
  matched : f.Matched
  ordered : ∀ k, Chronological time (f.history k)

theorem Next.keeps {f g : Feed κ α} (next : Next cap time f g) (valid : Consistent time f) : Consistent time g := by
  cases next with
  | noOp => exact valid
  | @submit k x fresh =>
    refine ⟨submit_matched valid.matched,?_⟩
    intro other
    rcases eq_or_ne other k with rfl | same
    · have newest : ∀ y, (f.history other).getLast? = some y → time y ≤ time x := by
        intro y last
        exact fresh y ((valid.matched other).trans last)
      simpa [Feed.submit] using push_chronological (valid.ordered other) newest
    · simpa [Feed.submit,same] using valid.ordered other

end Feed
end BoundedLog
