import Mathlib.Data.List.Sort

-- What a host does with arrays: sets of them, and sorting.
namespace JsArray
open List

-- Strings are compared by their UTF-16 units.
def utf16 (s : String) : List Nat := s.toList.flatMap (fun c =>
  if c.toNat < 65536 then [c.toNat] else [55296 + (c.toNat - 65536) / 1024,56320 + (c.toNat - 65536) % 1024])

def unitsLe : List Nat → List Nat → Bool
  | [],_ => true
  | _ :: _,[] => false
  | a :: as,b :: bs => decide (a < b) || decide (a = b) && unitsLe as bs

theorem unitsLe_total (a b : List Nat) : unitsLe a b = true ∨ unitsLe b a = true := by
  induction a generalizing b with
  | nil => exact .inl (by simp [unitsLe])
  | cons x _ ih =>
    cases b with
    | nil => exact .inr (by simp [unitsLe])
    | cons y bs =>
      simp only [unitsLe,Bool.or_eq_true,Bool.and_eq_true,decide_eq_true_eq]
      rcases Nat.lt_trichotomy x y with less | same | more
      · exact .inl (.inl less)
      · rcases ih bs with below | above
        · exact .inl (.inr ⟨same,below⟩)
        · exact .inr (.inr ⟨same.symm,above⟩)
      · exact .inr (.inl more)

theorem unitsLe_trans (a b c : List Nat) (first : unitsLe a b = true) (second : unitsLe b c = true) : unitsLe a c = true := by
  induction a generalizing b c with
  | nil => simp [unitsLe]
  | cons _ _ ih =>
    cases b with
    | nil => cases first
    | cons y bs =>
      cases c with
      | nil => cases second
      | cons z cs =>
        simp only [unitsLe,Bool.or_eq_true,Bool.and_eq_true,decide_eq_true_eq] at first second ⊢
        rcases first with less | ⟨rfl,below⟩
        · rcases second with less' | ⟨rfl,_⟩
          · exact .inl (Nat.lt_trans less less')
          · exact .inl less
        · rcases second with less' | ⟨rfl,above⟩
          · exact .inl less'
          · exact .inr ⟨rfl,ih bs cs below above⟩

section
variable {α : Type} {le : α → α → Bool}

def sortBy (le : α → α → Bool) (l : List α) : List α := l.insertionSort (fun a b => le a b = true)

theorem sortBy_perm : (sortBy le l).Perm l := perm_insertionSort _ l

@[simp] theorem mem_sortBy : a ∈ sortBy le l ↔ a ∈ l := sortBy_perm.mem_iff

theorem sortBy_sorted (total : ∀ a b, le a b = true ∨ le b a = true) (trans : ∀ a b c, le a b = true → le b c = true → le a c = true) :
    (sortBy le l).Pairwise (fun a b => le a b = true) := by
  have : Std.Total (fun a b => le a b = true) := ⟨total⟩
  have : IsTrans α (fun a b => le a b = true) := ⟨trans⟩
  exact pairwise_insertionSort _ l

theorem sortBy_sortBy (total : ∀ a b, le a b = true ∨ le b a = true) (trans : ∀ a b c, le a b = true → le b c = true → le a c = true) :
    sortBy le (sortBy le l) = sortBy le l := (sortBy_sorted total trans).insertionSort_eq
end

theorem unitsLe_antisymm (a b : List Nat) (first : unitsLe a b = true) (second : unitsLe b a = true) : a = b := by
  induction a generalizing b with
  | nil =>
    cases b with
    | nil => rfl
    | cons => cases second
  | cons _ _ ih =>
    cases b with
    | nil => cases first
    | cons y bs =>
      simp only [unitsLe,Bool.or_eq_true,Bool.and_eq_true,decide_eq_true_eq] at first second
      rcases first with less | ⟨rfl,below⟩
      · omega
      · rcases second with less | ⟨_,above⟩
        · omega
        · rw [ih bs below above]

theorem utf16_inj (same : utf16 a = utf16 b) : a = b := by
  have valid : ∀ c : Char, c.toNat < 0xd800 ∨ 0xdfff < c.toNat ∧ c.toNat < 0x110000 := fun c => c.valid
  have read : ∀ as bs : List Char, utf16 (String.ofList as) = utf16 (String.ofList bs) → as = bs := by
    intro as
    induction as with
    | nil =>
      intro bs same
      cases bs with
      | nil => rfl
      | cons =>
        simp only [utf16,String.toList_ofList,flatMap_nil,flatMap_cons] at same
        split at same <;> cases same
    | cons c as ih =>
      intro bs same
      cases bs with
      | nil =>
        simp only [utf16,String.toList_ofList,flatMap_nil,flatMap_cons] at same
        split at same <;> cases same
      | cons d bs =>
        have here := valid c
        have there := valid d
        simp only [utf16,String.toList_ofList,flatMap_cons] at same ih
        have both : c.toNat = d.toNat ∧ as = bs := by
          -- No character is a surrogate, so one unit is never the first of two.
          split at same <;> split at same <;>
            simp [cons_append,nil_append,cons.injEq] at same
          · exact ⟨same.1,ih bs same.2⟩
          · omega
          · omega
          · exact ⟨by omega,ih bs same.2.2⟩
        rw [Char.toNat_inj.mp both.1,both.2]
  have lists := read a.toList b.toList (by rw [String.ofList_toList,String.ofList_toList,same])
  exact String.toList_inj.mp lists

def sort (l : List String) : List String := sortBy (fun a b => unitsLe (utf16 a) (utf16 b)) l

@[simp] theorem mem_sort : a ∈ sort l ↔ a ∈ l := mem_sortBy

theorem sort_sort : sort (sort l) = sort l :=
  sortBy_sortBy (fun _ _ => unitsLe_total _ _) (fun _ _ _ => unitsLe_trans _ _ _)

theorem sort_eq_iff : sort l = sort r ↔ l.Perm r := by
  constructor
  · intro same
    have both : (sort l).Perm r := by
      rw [same]
      exact sortBy_perm
    exact sortBy_perm.symm.trans both
  · intro perm
    have total : Std.Total (fun a b => unitsLe (utf16 a) (utf16 b) = true) := ⟨fun a b => unitsLe_total (utf16 a) (utf16 b)⟩
    have trans : IsTrans String (fun a b => unitsLe (utf16 a) (utf16 b) = true) := ⟨fun a b c => unitsLe_trans (utf16 a) (utf16 b) (utf16 c)⟩
    have antisymm : Std.Antisymm (fun a b => unitsLe (utf16 a) (utf16 b) = true) :=
      ⟨fun a b first second => utf16_inj (unitsLe_antisymm _ _ first second)⟩
    have sorted : (sort l).Perm (sort r) := sortBy_perm.trans (perm.trans sortBy_perm.symm)
    exact sorted.eq_of_pairwise' (pairwise_insertionSort _ l) (pairwise_insertionSort _ r)

section
variable {α : Type} [DecidableEq α] {l : List α}

def distinct (l : List α) : List α := l.eraseDups

@[simp] theorem mem_distinct : a ∈ distinct l ↔ a ∈ l := mem_eraseDups

theorem distinct_of_nodup (nodup : l.Nodup) : distinct l = l := by
  induction l with
  | nil => rfl
  | cons a rest ih =>
    rw [nodup_cons] at nodup
    have kept : rest.filter (fun b => !b == a) = rest := by
      rw [filter_eq_self]
      rintro b mem
      have ne : b ≠ a := fun same => nodup.1 (same ▸ mem)
      simpa using ne
    rw [distinct,eraseDups_cons,kept]
    exact congrArg _ (ih nodup.2)

theorem distinct_nodup (l : List α) : (distinct l).Nodup := by
  induction size : l.length using Nat.strongRecOn generalizing l with
  | ind n ih =>
    cases l with
    | nil => exact nodup_nil
    | cons =>
      rw [distinct,eraseDups_cons,nodup_cons]
      refine ⟨by simp,ih _ ?_ _ rfl⟩
      rw [← size]
      exact Nat.lt_succ_of_le (length_filter_le _ _)

theorem distinct_single : distinct l = [a] ↔ ∀ x, x ∈ l ↔ x = a := by
  rw [← perm_singleton,perm_ext_iff_of_nodup (distinct_nodup l) (nodup_singleton a)]
  simp [mem_distinct]
end

theorem normal_settles (settles : ∀ s, f (f s) = f s) (l : List String) :
    sort (distinct ((sort (distinct (l.map f))).map f)) = sort (distinct (l.map f)) := by
  have mapped : (sort (distinct (l.map f))).map f = sort (distinct (l.map f)) := by
    refine (map_congr_left ?_).trans (map_id _)
    intro s mem
    simp only [mem_sort,mem_distinct,mem_map] at mem
    obtain ⟨other,_,rfl⟩ := mem
    exact settles other
  have single : (sort (distinct (l.map f))).Nodup := sortBy_perm.nodup_iff.mpr (distinct_nodup _)
  rw [mapped,distinct_of_nodup single,sort_sort]

end JsArray
