import Mathlib.Data.Rat.Floor

-- Decimal numbers of any size: exact sums, products and shifts; halves are rounded away from zero.
namespace BigNumber

def shiftedBy (q : ℚ) (places : Int) : ℚ :=
  if 0 ≤ places then q * (10^places.toNat : Nat) else q / (10^(-places).toNat : Nat)

def round (q : ℚ) : Int := if 0 ≤ q then ⌊q + 1/2⌋ else -⌊-q + 1/2⌋

-- `dividedBy` keeps twenty decimal places.
def dividedBy (a b : ℚ) : ℚ := round (a / b * 10^20) / 10^20

structure Nearest (n : Int) (q : ℚ) : Prop where
  near : |(n : ℚ) - q| ≤ 1/2
  away : |(n : ℚ) - q| = 1/2 → |q| ≤ |(n : ℚ)|

section
variable {n : Int}

theorem round_above (pos : 0 ≤ q) : (round q : ℚ) ≤ q + 1/2 ∧ q + 1/2 < round q + 1 := by
  rw [round,if_pos pos]
  exact ⟨Int.floor_le _,Int.lt_floor_add_one _⟩

theorem round_below (negative : ¬ 0 ≤ q) : q - 1/2 ≤ round q ∧ (round q : ℚ) < q + 1/2 := by
  rw [round,if_neg negative]
  push_cast
  constructor
  · linarith [Int.floor_le (-q + 1/2)]
  · linarith [Int.lt_floor_add_one (-q + 1/2)]

theorem round_nearest : Nearest (round q) q := by
  by_cases pos : 0 ≤ q
  · obtain ⟨low,high⟩ := round_above pos
    refine ⟨abs_le.mpr ⟨by linarith,by linarith⟩,?_⟩
    intro half
    rcases eq_or_eq_neg_of_abs_eq half with up | down
    · exact abs_le_abs (by linarith) (by linarith)
    · linarith
  · obtain ⟨low,high⟩ := round_below pos
    refine ⟨abs_le.mpr ⟨by linarith,by linarith⟩,?_⟩
    intro half
    rcases eq_or_eq_neg_of_abs_eq half with up | down
    · linarith
    · rw [abs_of_neg (not_le.mp pos),abs_of_neg (by linarith [not_le.mp pos])]
      linarith

theorem round_lt (pos : 0 < n) : round q < n ↔ q < n - 1/2 := by
  have least : (1 : ℚ) ≤ n := by exact_mod_cast pos
  by_cases above : 0 ≤ q
  · obtain ⟨low,high⟩ := round_above above
    constructor
    · intro less
      have : (round q : ℚ) + 1 ≤ n := by exact_mod_cast less
      linarith
    · intro _
      have : (round q : ℚ) < n := by linarith
      exact_mod_cast this
  · obtain ⟨low,high⟩ := round_below above
    have negative := not_le.mp above
    constructor
    · intro _
      linarith
    · intro _
      have : (round q : ℚ) < n := by linarith
      exact_mod_cast this

theorem le_round (least : (n : ℚ) ≤ q) : n ≤ round q := by
  have bound : (n : ℚ) < round q + 1 := by
    by_cases above : 0 ≤ q
    · linarith [(round_above above).2]
    · linarith [(round_below above).1]
  exact Int.lt_add_one_iff.mp (by exact_mod_cast bound)

theorem round_le (most : q ≤ (n : ℚ)) : round q ≤ n := by
  have bound : (round q : ℚ) < n + 1 := by
    by_cases above : 0 ≤ q
    · linarith [(round_above above).1]
    · linarith [(round_below above).2]
  exact Int.lt_add_one_iff.mp (by exact_mod_cast bound)

@[simp] theorem round_int : round n = n :=
  Int.le_antisymm (round_le (le_refl _)) (le_round (le_refl _))

end

end BigNumber
