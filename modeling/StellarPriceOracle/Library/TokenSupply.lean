import Mathlib.Algebra.Order.BigOperators.Group.Finset
import Mathlib.Algebra.BigOperators.Ring.Finset

namespace TokenSupply
open List

-- A fungible token of constant supply. Only finitely many accounts hold any of it.
structure Token (α : Type) [DecidableEq α] (supply : Int) where
  balance : α → Int
  holders : Finset α
  nonneg : ∀ a, 0 ≤ balance a
  absent : ∀ a, a ∉ holders → balance a = 0
  total : ∑ a ∈ holders, balance a = supply

section
variable {α : Type} [DecidableEq α]

def moved (balance : α → Int) (sender receiver : α) (amount : Int) (a : α) : Int :=
  balance a + ((if a = receiver then amount else 0) - (if a = sender then amount else 0))

theorem Token.total_of_subset (token : Token α supply) (wider : token.holders ⊆ accounts) :
    ∑ a ∈ accounts, token.balance a = supply := by
  have same := Finset.sum_subset wider (fun a _ => token.absent a)
  exact same.symm.trans token.total

theorem moved_nonneg (token : Token α supply) (pos : 0 ≤ amount) (funded : amount ≤ token.balance sender) (a : α) :
    0 ≤ moved token.balance sender receiver amount a := by
  have own := token.nonneg a
  unfold moved
  rcases eq_or_ne a sender with rfl | paying
  · simp only [if_true]
    split <;> omega
  · simp only [paying,if_false]
    split <;> omega

def Token.transfer (token : Token α supply) (sender receiver : α) (amount : Int) (positive : 0 ≤ amount)
    (funded : amount ≤ token.balance sender) : Token α supply where
  balance := moved token.balance sender receiver amount
  holders := insert sender (insert receiver token.holders)
  nonneg := moved_nonneg token positive funded
  absent := by
    intro a outside
    simp only [Finset.mem_insert,not_or] at outside
    simp [moved,outside.1,outside.2.1,token.absent a outside.2.2]
  total := by
    have same := token.total_of_subset
      ((Finset.subset_insert receiver token.holders).trans (Finset.subset_insert sender _))
    simp only [moved]
    rw [Finset.sum_add_distrib,Finset.sum_sub_distrib,same]
    simp

def Token.send (token : Token α supply) (sender receiver : α) (amount : Int) : Option (Token α supply) :=
  if funded : 0 ≤ amount ∧ amount ≤ token.balance sender then
    some (token.transfer sender receiver amount funded.1 funded.2)
  else none

theorem Token.send_keeps {token next : Token α supply} (sent : token.send sender receiver amount = some next)
    (other : a ≠ sender) : token.balance a ≤ next.balance a := by
  unfold Token.send at sent
  split at sent
  · rename_i funded
    cases sent
    have received : 0 ≤ if a = receiver then amount else 0 := by
      split
      · exact funded.1
      · exact Int.le_refl 0
    simp only [Token.transfer,moved,other,if_false]
    omega
  · cases sent

theorem Token.sum_le (token : Token α supply) (accounts : Finset α) : ∑ a ∈ accounts, token.balance a ≤ supply := by
  have wider : token.holders ⊆ accounts ∪ token.holders := Finset.subset_union_right
  have whole := token.total_of_subset wider
  have part : ∑ a ∈ accounts, token.balance a ≤ ∑ a ∈ accounts ∪ token.holders, token.balance a :=
    Finset.sum_le_sum_of_subset_of_nonneg Finset.subset_union_left (fun a _ _ => token.nonneg a)
  omega

theorem Token.balance_le (token : Token α supply) (a : α) : token.balance a ≤ supply := by
  simpa using token.sum_le {a}

theorem Token.covered_le (token : Token α supply) {weights : List (α × Int)} (ne : (weights.map Prod.fst).Nodup)
    (covered : ∀ w ∈ weights, w.2 ≤ token.balance w.1) : (weights.map Prod.snd).sum ≤ supply := by
  have held : (weights.map Prod.snd).sum ≤ (weights.map (fun w => token.balance w.1)).sum := sum_le_sum covered
  have accounts := sum_toFinset token.balance ne
  rw [map_map] at accounts
  have bound := token.sum_le (weights.map Prod.fst).toFinset
  rw [accounts] at bound
  exact held.trans bound
end

end TokenSupply
