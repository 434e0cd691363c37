import Mathlib.Data.List.Basic

universe u v

-- A list whose elements follow one another; the tag of each commits to what it follows.
structure LinkedChain {α : Type u} {τ : Type v} (follows : α → α → Prop) (tag : α → τ) (chain : List α) : Prop where
  linked : chain.IsChain follows
  determined : ∀ {a other b}, follows a b → follows other b → tag a = tag other
  committed : ∀ {a b other}, b ∈ chain → other ∈ chain → tag b = tag other → follows a b → follows a other
  rooted : ∀ first ∈ chain.head?, ∀ a ∈ chain, ¬ follows a first

namespace LinkedChain
open List
variable {α : Type u} {τ : Type v} {follows : α → α → Prop} {tag : α → τ} {chain : List α}

section
variable (c : LinkedChain follows tag chain)
include c

theorem next_follows (i : Nat) (inside : i + 1 < chain.length) :
    follows chain[i] chain[i + 1] := isChain_iff_getElem.mp c.linked i inside

theorem first_follows_none (inside : 0 < chain.length) (mem : a ∈ chain) : ¬ follows a chain[0] :=
  c.rooted _ (by simp [head?_eq_getElem?,getElem?_eq_getElem inside]) a mem

theorem tags_ne (i j : Nat) (below : i < j) (inside : j < chain.length) : tag chain[i] ≠ tag chain[j] := by
  induction i generalizing j with
  | zero =>
    intro same
    obtain ⟨k,rfl⟩ := Nat.exists_eq_succ_of_ne_zero (Nat.ne_of_gt below)
    have after : follows chain[k] chain[0] :=
      c.committed (getElem_mem _) (getElem_mem _) same.symm (c.next_follows k inside)
    exact c.first_follows_none (by omega) (getElem_mem _) after
  | succ i ih =>
    intro same
    obtain ⟨k,rfl⟩ := Nat.exists_eq_succ_of_ne_zero (Nat.ne_of_gt (Nat.zero_lt_of_lt below))
    have after : follows chain[k] chain[i + 1] :=
      c.committed (getElem_mem _) (getElem_mem _) same.symm (c.next_follows k inside)
    exact ih k (by omega) (by omega) (c.determined (c.next_follows i (by omega)) after)

theorem tag_index (first : i < chain.length) (second : j < chain.length) (same : tag chain[i] = tag chain[j]) : i = j := by
  rcases Nat.lt_trichotomy i j with below | rfl | above
  · exact absurd same (c.tags_ne i j below second)
  · rfl
  · exact absurd same.symm (c.tags_ne j i above first)

theorem tag_injective (first : a ∈ chain) (second : b ∈ chain) (same : tag a = tag b) : a = b := by
  obtain ⟨i,inside,rfl⟩ := getElem_of_mem first
  obtain ⟨j,bound,rfl⟩ := getElem_of_mem second
  cases c.tag_index inside bound same
  rfl

section
variable (inside : i < chain.length)

theorem follows_next (mem : b ∈ chain) (after : follows chain[i] b) : ∃ more : i + 1 < chain.length, b = chain[i + 1] := by
  obtain ⟨j,bound,rfl⟩ := getElem_of_mem mem
  cases j with
  | zero => exact absurd after (c.first_follows_none bound (getElem_mem _))
  | succ k =>
    cases c.tag_index inside (by omega) (c.determined after (c.next_follows k bound))
    exact ⟨bound,rfl⟩

theorem last_index (last : chain.getLast? = some chain[i]) : i + 1 = chain.length := by
  rw [getLast?_eq_getElem?,getElem?_eq_getElem (by omega),Option.some.injEq] at last
  have index := c.tag_index (by omega) inside (congrArg tag last)
  omega

theorem drop_of_linked (linked : (chain[i] :: rest).IsChain follows) (mem : ∀ b ∈ rest, b ∈ chain)
    (ended : ∀ last ∈ chain.getLast?, last ∈ chain[i] :: rest) : chain[i] :: rest = chain.drop i := by
  induction rest generalizing i with
  | nil =>
    have filled : chain ≠ [] := ne_nil_of_length_pos (by omega)
    have got := getLast?_eq_some_getLast filled
    rw [mem_singleton.mp (ended _ got)] at got
    have whole := c.last_index inside got
    rw [drop_eq_getElem_cons inside,drop_eq_nil_of_le (by omega)]
  | cons b rest ih =>
    obtain ⟨after,linked⟩ := isChain_cons_cons.mp linked
    obtain ⟨more,rfl⟩ := c.follows_next inside (mem b mem_cons_self) after
    have later : ∀ last ∈ chain.getLast?, last ∈ chain[i + 1] :: rest := by
      intro last got
      refine (mem_cons.mp (ended last got)).resolve_left ?_
      rintro rfl
      have whole := c.last_index inside got
      omega
    rw [ih more linked (fun b listed => mem b (mem_cons_of_mem _ listed)) later,drop_eq_getElem_cons inside]

end

end

end LinkedChain
