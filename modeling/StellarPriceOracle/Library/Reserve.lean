import Mathlib.Algebra.Order.BigOperators.Group.Finset
import Mathlib.Algebra.BigOperators.Ring.Finset

namespace Reserve
open Function (update update_self)

-- Pledges of accounts, each in one currency.
structure Book (α τ : Type) where
  accounts : Finset α
  currency : α → Option τ
  pledge : α → Int
  known : ∀ a, a ∈ accounts ↔ (currency a).isSome = true
  nonneg : ∀ a, 0 ≤ pledge a
  unpledged : ∀ a, currency a = none → pledge a = 0

section
variable {α τ : Type} [DecidableEq τ]

def Book.empty : Book α τ where
  accounts := ∅
  currency _ := none
  pledge _ := 0
  known := by simp
  nonneg := by simp
  unpledged := by simp

section
variable (b : Book α τ)

@[simp] def Book.due (t : τ) (a : α) : Int := if b.currency a = some t then b.pledge a else 0

def Book.owed (t : τ) : Int := ∑ a ∈ b.accounts, b.due t a

def Book.holders (t : τ) : Finset α := b.accounts.filter (fun a => b.currency a = some t)

theorem Book.mem_holders : a ∈ b.holders t ↔ b.currency a = some t := by
  simp only [holders,Finset.mem_filter,b.known]
  constructor
  · intro both
    exact both.2
  · intro held
    simp [held]

theorem Book.owed_holders (t : τ) : b.owed t = ∑ a ∈ b.holders t, b.pledge a :=
  (Finset.sum_filter _ _).symm

theorem Book.due_unknown (unknown : a ∉ b.accounts) : b.due t a = 0 := by
  have unset : b.currency a ≠ some t := by
    intro held
    apply unknown
    rw [b.known,held]
    rfl
  simp [unset]

end

-- An account the old book does not know is owed nothing in it.
theorem owed_change [DecidableEq α] {b c : Book α τ} (wider : b.accounts ⊆ c.accounts) (member : a ∈ c.accounts)
    (changed : ∀ x, c.due t x = b.due t x + if x = a then amount else 0) : c.owed t = b.owed t + amount := by
  have same : ∑ x ∈ c.accounts, b.due t x = b.owed t :=
    (Finset.sum_subset wider (fun x _ => b.due_unknown)).symm
  simp only [Book.owed,changed]
  rw [Finset.sum_add_distrib,same]
  simp [member,Book.owed]

section Updates
variable [DecidableEq α]

section
variable (b : Book α τ)

@[simp] def Book.deposit (a : α) (t : τ) (amount : Int) (positive : 0 ≤ amount) : Book α τ where
  accounts := insert a b.accounts
  currency := update b.currency a (some t)
  pledge := update b.pledge a (b.pledge a + amount)
  known := by
    intro x
    rcases eq_or_ne x a with rfl | here
    · simp
    · simpa [here] using b.known x
  nonneg := by
    intro x
    have own := b.nonneg x
    rcases eq_or_ne x a with rfl | here
    · simp only [update_self]
      omega
    · simpa [here] using own
  unpledged := by
    intro x unset
    rcases eq_or_ne x a with rfl | here
    · simp at unset
    · simp only [ne_eq,here,not_false_eq_true,Function.update_of_ne] at unset ⊢
      exact b.unpledged x unset

theorem Book.deposit_owed (own : ∀ old ∈ b.currency a, old = t) (pos : 0 ≤ amount) (other : τ) :
    (b.deposit a t amount pos).owed other = b.owed other + if other = t then amount else 0 := by
  apply owed_change (Finset.subset_insert a b.accounts) (Finset.mem_insert_self a b.accounts)
  intro x
  rcases eq_or_ne x a with rfl | here
  · cases held : b.currency x with
    | none =>
      have nothing := b.unpledged x held
      simp [held,nothing,eq_comm]
    | some old =>
      -- An account that is known keeps its currency.
      cases own old held
      rcases eq_or_ne other t with rfl | same
      · simp [held]
      · have ne : t ≠ other := fun equal => same equal.symm
        simp [held,same,ne]
  · simp [here]

@[simp] def Book.withdraw (a : α) (amount : Int) (funded : amount ≤ b.pledge a)
    (known : (b.currency a).isSome = true) : Book α τ where
  accounts := b.accounts
  currency := b.currency
  pledge := update b.pledge a (b.pledge a - amount)
  known := b.known
  nonneg := by
    intro x
    rcases eq_or_ne x a with rfl | here
    · simp only [update_self]
      omega
    · simpa [here] using b.nonneg x
  unpledged := by
    intro x unset
    have here : x ≠ a := by
      intro same
      subst same
      simp [unset] at known
    simpa [here] using b.unpledged x unset

theorem Book.withdraw_owed (held : b.currency a = some t) (funded : amount ≤ b.pledge a)
    (known : (b.currency a).isSome = true) (other : τ) :
    (b.withdraw a amount funded known).owed other = b.owed other + if other = t then -amount else 0 := by
  have wider : b.accounts ⊆ (b.withdraw a amount funded known).accounts := Finset.Subset.refl b.accounts
  apply owed_change wider ((b.known a).mpr known)
  intro x
  rcases eq_or_ne x a with rfl | here
  · by_cases same : other = t
    · subst same
      simp [held,sub_eq_add_neg]
    · have ne : t ≠ other := fun equal => same equal.symm
      simp [held,same,ne]
  · simp [here]

end

end Updates
end
end Reserve
