import Mathlib.Algebra.Order.Field.Basic
import Mathlib.Data.List.Sort

-- Elements of a list by their rank, and the median of a list of numbers.
namespace Median
open List

section Ranks
variable {α : Type} [LinearOrder α] {l : List α} {i : Nat}

def sorted (l : List α) : List α := l.insertionSort (· ≤ ·)

theorem sorted_perm : (sorted l).Perm l := perm_insertionSort _ l

@[simp] theorem sorted_length : (sorted l).length = l.length := sorted_perm.length_eq

theorem sorted_pairwise : (sorted l).Pairwise (· ≤ ·) := pairwise_insertionSort _ l

theorem sorted_of_perm (same : l.Perm r) : sorted l = sorted r :=
  (sorted_perm.trans (same.trans sorted_perm.symm)).eq_of_pairwise' sorted_pairwise sorted_pairwise

theorem sorted_map [LinearOrder β] {f : α → β} (mono : ∀ a b, a ≤ b ↔ f a ≤ f b) : sorted (l.map f) = (sorted l).map f :=
  (map_insertionSort _ _ f l (fun a _ b _ => mono a b)).symm

theorem sorted_mono (first : (sorted l)[i]? = some x) (second : (sorted l)[j]? = some y) (order : i ≤ j) : x ≤ y := by
  obtain ⟨_,rfl⟩ := List.getElem?_eq_some_iff.mp first
  obtain ⟨_,rfl⟩ := List.getElem?_eq_some_iff.mp second
  rcases Nat.eq_or_lt_of_le order with rfl | less
  · exact le_refl _
  · exact pairwise_iff_getElem.mp sorted_pairwise _ _ _ _ less

theorem sorted_le (ranked : (sorted l)[i]? = some x) (many : i < l.countP (fun a => a ≤ b)) : x ≤ b := by
  by_contra above
  have beyond : ((sorted l).drop i).countP (fun a => a ≤ b) = 0 := by
    rw [countP_eq_zero]
    intro y mem
    obtain ⟨k,got⟩ := mem_iff_getElem?.mp mem
    rw [getElem?_drop] at got
    simp only [decide_eq_true_eq]
    exact fun less => above (le_trans (sorted_mono ranked got (by omega)) less)
  have few : ((sorted l).take i).countP (fun a => a ≤ b) ≤ i :=
    countP_le_length.trans (by simp)
  have split : l.countP (fun a => a ≤ b) =
      ((sorted l).take i).countP (fun a => a ≤ b) + ((sorted l).drop i).countP (fun a => a ≤ b) := by
    rw [← countP_append,take_append_drop,sorted_perm.countP_eq]
  omega

theorem le_sorted (ranked : (sorted l)[i]? = some x) (few : l.countP (fun b => b < a) ≤ i) : a ≤ x := by
  by_contra below
  have all : ((sorted l).take (i + 1)).countP (fun b => b < a) = ((sorted l).take (i + 1)).length := by
    rw [countP_eq_length]
    intro y mem
    obtain ⟨k,got⟩ := mem_iff_getElem?.mp mem
    rw [List.getElem?_take] at got
    split at got
    · rename_i inside
      have order : y ≤ x := sorted_mono got ranked (by omega)
      simpa using lt_of_le_of_lt order (not_le.mp below)
    · cases got
  have length : ((sorted l).take (i + 1)).length = i + 1 := by
    obtain ⟨inside,_⟩ := List.getElem?_eq_some_iff.mp ranked
    rw [length_take]
    omega
  have part : ((sorted l).take (i + 1)).countP (fun b => b < a) ≤ l.countP (fun b => b < a) :=
    (take_sublist (i + 1) (sorted l)).countP_le.trans (le_of_eq (sorted_perm.countP_eq _))
  omega

def lower (l : List α) : Option α := (sorted l)[(l.length - 1) / 2]?
def upper (l : List α) : Option α := (sorted l)[l.length / 2]?

theorem middle (mem : l ≠ []) : ∃ x y, lower l = some x ∧ upper l = some y ∧ x ≤ y := by
  have pos : 0 < l.length := length_pos_iff.mpr mem
  have first : (l.length - 1) / 2 < (sorted l).length := by rw [sorted_length]; omega
  have second : l.length / 2 < (sorted l).length := by rw [sorted_length]; omega
  have low : lower l = some (sorted l)[(l.length - 1) / 2] := getElem?_eq_getElem first
  have high : upper l = some (sorted l)[l.length / 2] := getElem?_eq_getElem second
  exact ⟨_,_,low,high,sorted_mono low high (by omega)⟩

theorem majority (low : lower l = some x) (high : upper l = some y) (most : l.length < 2 * l.countP (fun z => a ≤ z ∧ z ≤ b)) :
    a ≤ x ∧ y ≤ b := by
  constructor
  · refine le_sorted low ?_
    have whole := length_eq_countP_add_countP (fun z => decide (a ≤ z ∧ z ≤ b)) (l := l)
    have apart : l.countP (fun z => z < a) ≤ l.countP (fun z => decide ¬ decide (a ≤ z ∧ z ≤ b) = true) := by
      apply countP_mono_left
      intro z _ less
      simp only [decide_eq_true_eq] at less ⊢
      exact fun both => not_le.mpr less both.1
    omega
  · refine sorted_le high ?_
    have inside : l.countP (fun z => decide (a ≤ z ∧ z ≤ b)) ≤ l.countP (fun z => decide (z ≤ b)) := by
      apply countP_mono_left
      intro z _ both
      simp only [decide_eq_true_eq] at both ⊢
      exact both.2
    omega

end Ranks

section Numbers
variable {K : Type} [Field K] [LinearOrder K] [IsStrictOrderedRing K] {l : List K}

def median (l : List K) : Option K := do
  let low ← lower l
  let high ← upper l
  some ((low + high) / 2)

omit [IsStrictOrderedRing K] in
theorem median_of_perm (same : l.Perm r) : median l = median r := by
  simp [median,lower,upper,sorted_of_perm same,same.length_eq]

theorem median_scaled (pos : 0 < c) : median (l.map (· * c)) = (median l).map (· * c) := by
  have mono : ∀ a b : K, a ≤ b ↔ a * c ≤ b * c := fun a b => (mul_le_mul_iff_left₀ pos).symm
  simp only [median,lower,upper,sorted_map mono,length_map,getElem?_map]
  cases (sorted l)[(l.length - 1) / 2]? with
  | none => rfl
  | some low =>
    cases (sorted l)[l.length / 2]? with
    | none => rfl
    | some high =>
      show some ((low * c + high * c) / 2) = some ((low + high) / 2 * c)
      rw [← add_mul,mul_div_right_comm]

end Numbers

end Median
