import Mathlib.Data.List.Nodup
import Mathlib.Data.List.Induction

universe u v

-- A map that keeps its keys in the order in which they came.
structure InsertionMap (κ : Type u) (V : Type v) where
  entries : List (κ × V)
  distinct : (entries.map Prod.fst).Nodup

namespace InsertionMap
open List
open Option (ext some)
variable {κ : Type u} {V : Type v} [DecidableEq κ] {k other : κ}

def lookup (k : κ) : List (κ × V) → Option V
  | [] => none
  | entry :: rest => if entry.1 = k then some entry.2 else lookup k rest

def put (k : κ) (value : V) : List (κ × V) → List (κ × V)
  | [] => [(k,value)]
  | entry :: rest => if entry.1 = k then (k,value) :: rest else entry :: put k value rest

theorem put_keys (entries : List (κ × V)) : (put k value entries).map Prod.fst =
    if k ∈ entries.map Prod.fst then entries.map Prod.fst else entries.map Prod.fst ++ [k] := by
  induction entries with
  | nil => rfl
  | cons entry _ ih =>
    by_cases here : entry.1 = k
    · simp [put,here]
    · have apart : ¬ k = entry.1 := fun same => here same.symm
      simp only [put,if_neg here,map_cons,ih,mem_cons,apart,false_or]
      split <;> rfl

theorem put_distinct {entries : List (κ × V)} (distinct : (entries.map Prod.fst).Nodup) :
    ((put k value entries).map Prod.fst).Nodup := by
  rw [put_keys]
  split
  · exact distinct
  · rename_i absent
    rw [nodup_append]
    refine ⟨distinct,by simp,?_⟩
    rintro a mem b last rfl
    exact absent (mem_singleton.mp last ▸ mem)

def empty : InsertionMap κ V := ⟨[],nodup_nil⟩

section
variable (m : InsertionMap κ V)

def get (k : κ) : Option V := lookup k m.entries

def set (k : κ) (value : V) : InsertionMap κ V :=
  ⟨put k value m.entries,put_distinct m.distinct⟩

def values : List V := m.entries.map Prod.snd

end

@[simp] theorem get_empty : (empty : InsertionMap κ V).get k = none := rfl

omit [DecidableEq κ] in
@[simp] theorem values_empty : (empty : InsertionMap κ V).values = [] := rfl

theorem lookup_put (entries : List (κ × V)) :
    lookup other (put k value entries) = if k = other then some value else lookup other entries := by
  induction entries with
  | nil => rfl
  | cons entry _ ih =>
    by_cases here : entry.1 = k
    · simp only [put,if_pos here,lookup]
      split
      · rfl
      · rename_i apart
        rw [if_neg (here ▸ apart)]
    · simp only [put,if_neg here,lookup,ih]
      by_cases got : entry.1 = other
      · have apart : ¬ k = other := fun same => here (got.trans same.symm)
        rw [if_pos got,if_neg apart,if_pos got]
      · rw [if_neg got,if_neg got]

section Updates
variable {m : InsertionMap κ V}

@[simp] theorem get_set : (m.set k value).get k = some value := by
  simp [get,set,lookup_put]

@[simp] theorem get_set_ne (ne : other ≠ k) : (m.set k value).get other = m.get other := by
  simp [get,set,lookup_put,if_neg ne.symm]

theorem get_set_some : (m.set k value).get other = some held ↔ other = k ∧ value = held ∨ other ≠ k ∧ m.get other = some held := by
  rcases eq_or_ne other k with rfl | here
  · simp
  · simp [here]

theorem put_put (entries : List (κ × V)) : put k value (put k held entries) = put k value entries := by
  induction entries with
  | nil => simp [put]
  | cons entry _ ih =>
    by_cases here : entry.1 = k
    · simp [put,here]
    · simp [put,here,ih]

theorem set_set : (m.set k held).set k value = m.set k value := by
  simp [set,put_put]

theorem lookup_exact {entries : List (κ × V)} (distinct : (entries.map Prod.fst).Nodup) :
    lookup k entries = some value ↔ (k,value) ∈ entries := by
  induction entries with
  | nil => simp [lookup]
  | cons entry rest ih =>
    obtain ⟨first,_⟩ := entry
    rw [map_cons,nodup_cons] at distinct
    rcases eq_or_ne first k with rfl | here
    · have later : (first,value) ∉ rest :=
        fun mem => distinct.1 (mem_map.mpr ⟨(first,value),mem,rfl⟩)
      simp [lookup,later,eq_comm]
    · have apart : ¬ k = first := fun same => here same.symm
      simp [lookup,here,apart,ih distinct.2]

-- Seen through one key, a fold over the entries is one step at its value.
theorem foldl_shown (shown : σ → W) (own : W → V → W) (here : ∀ s v, shown (f s (k,v)) = own (shown s) v)
    (apart : ∀ s entry, entry.1 ≠ k → shown (f s entry) = shown s) {entries : List (κ × V)} (distinct : (entries.map Prod.fst).Nodup) (s : σ) :
    shown (entries.foldl f s) = ((lookup k entries).map (own (shown s))).getD (shown s) := by
  induction entries generalizing s with
  | nil => rfl
  | cons entry rest ih =>
    obtain ⟨first,held⟩ := entry
    rw [map_cons,nodup_cons] at distinct
    rw [foldl_cons,ih distinct.2]
    rcases eq_or_ne first k with rfl | same
    · have gone : lookup first rest = none := by
        rw [Option.eq_none_iff_forall_ne_some]
        intro value got
        exact distinct.1 (mem_map.mpr ⟨(first,value),(lookup_exact distinct.2).mp got,rfl⟩)
      simp [gone,lookup,here]
    · rw [apart s (first,held) same,lookup,if_neg same]

theorem get_exact : m.get k = some value ↔ (k,value) ∈ m.entries := lookup_exact m.distinct

theorem mem_values : value ∈ m.values ↔ ∃ k, m.get k = some value := by
  simp only [values,mem_map,get_exact,Prod.exists]
  constructor
  · rintro ⟨k,_,mem,rfl⟩
    exact ⟨k,mem⟩
  · rintro ⟨k,mem⟩
    exact ⟨k,value,mem,rfl⟩

def filter (m : InsertionMap κ V) (keep : κ → Bool) : InsertionMap κ V :=
  ⟨m.entries.filter (fun entry => keep entry.1),
    m.distinct.sublist (filter_sublist.map Prod.fst)⟩

theorem get_filter : (m.filter keep).get k = if keep k then m.get k else none := by
  apply ext
  intro _
  rw [get_exact]
  by_cases kept : keep k = true
  · simp [filter,kept,get_exact]
  · simp [filter,kept]

def remove (m : InsertionMap κ V) (k : κ) : InsertionMap κ V := m.filter (fun other => decide (other ≠ k))

theorem mem_values_remove (mem : held ∈ (m.remove k).values) : held ∈ m.values := by
  obtain ⟨other,got⟩ := mem_values.mp mem
  rw [remove,get_filter] at got
  split at got
  · exact mem_values.mpr ⟨other,got⟩
  · cases got

theorem mem_values_set (mem : held ∈ (m.set k value).values) : held = value ∨ held ∈ m.values := by
  obtain ⟨other,got⟩ := mem_values.mp mem
  rcases get_set_some.mp got with ⟨_,rfl⟩ | ⟨_,got⟩
  · exact .inl rfl
  · exact .inr (mem_values.mpr ⟨other,got⟩)

def first (m : InsertionMap κ V) : Option κ := m.entries.head?.map Prod.fst

theorem first_set (leads : m.first = some other) : (m.set k value).first = some other := by
  obtain ⟨entries,_⟩ := m
  cases entries with
  | nil => cases leads
  | cons =>
    cases leads
    simp only [first,set,put]
    split
    · rename_i here
      simp [here]
    · rfl

theorem first_held (leads : m.first = some k) : ∃ value, m.get k = some value := by
  obtain ⟨entry,here,rfl⟩ := Option.map_eq_some_iff.mp leads
  exact ⟨entry.2,get_exact.mpr (mem_of_mem_head? here)⟩

theorem first_value (leads : m.first = some k) (got : m.get k = some value) : ∃ rest, m.values = value :: rest := by
  obtain ⟨entries,_⟩ := m
  cases entries with
  | nil => cases leads
  | cons _ rest =>
    cases leads
    simp only [get,lookup,if_true] at got
    exact ⟨rest.map Prod.snd,by simp [values,some.inj got]⟩

theorem get_remove : (m.remove k).get other = if other = k then none else m.get other := by
  rw [remove,get_filter]
  by_cases here : other = k <;> simp [here]

theorem get_of_remove (got : (m.remove k).get other = some value) : m.get other = some value := by
  rw [get_remove] at got
  split at got
  · cases got
  · exact got

theorem get_none : m.get k = none ↔ ∀ value, (k,value) ∉ m.entries := by
  simp [← get_exact,Option.eq_none_iff_forall_ne_some,ne_eq]

theorem entries_nil : m.entries = [] ↔ ∀ k, m.get k = none := by
  constructor
  · intro none k
    exact get_none.mpr (by simp [none])
  · intro none
    apply eq_nil_iff_forall_not_mem.mpr
    rintro ⟨k,value⟩
    exact get_none.mp (none k) value

-- A new key goes to the end; one that is held keeps its place.
theorem entries_set_fresh (fresh : m.get k = none) : (m.set k value).entries = m.entries ++ [(k,value)] := by
  have appended (entries : List (κ × V)) (absent : lookup k entries = none) : put k value entries = entries ++ [(k,value)] := by
    induction entries with
    | nil => rfl
    | cons _ _ ih =>
      rw [lookup] at absent
      split at absent
      · cases absent
      · rename_i ne
        rw [put,if_neg ne,ih absent]
        rfl
  exact appended m.entries fresh

theorem values_set_fresh (fresh : m.get k = none) : (m.set k value).values = m.values ++ [value] := by
  simp [values,entries_set_fresh fresh]

theorem filterMap_remove (hidden : ∀ value, m.get k = some value → f value = none) :
    (m.remove k).values.filterMap f = m.values.filterMap f := by
  simp only [get_exact] at hidden
  simp only [values,remove,filter,filterMap_map]
  rw [filterMap_filter]
  apply filterMap_congr
  rintro ⟨key,value⟩ mem
  rcases eq_or_ne key k with rfl | same
  · simp [hidden value mem]
  · simp [same]

theorem values_remove (got : m.get k = some value) :
    ∃ before after, m.values = before ++ value :: after ∧ (m.remove k).values = before ++ after := by
  obtain ⟨before,after,split⟩ := append_of_mem (get_exact.mp got)
  have apart := m.distinct
  rw [split,map_append,map_cons,nodup_append,nodup_cons] at apart
  obtain ⟨_,⟨later,_⟩,earlier⟩ := apart
  have first : before.filter (fun entry => decide (entry.1 ≠ k)) = before := by
    rw [filter_eq_self]
    intro entry mem
    simpa using earlier entry.1 (mem_map_of_mem mem) k (by simp)
  have second : after.filter (fun entry => decide (entry.1 ≠ k)) = after := by
    rw [filter_eq_self]
    intro entry mem
    have ne : entry.1 ≠ k := by
      intro same
      exact later (mem_map.mpr ⟨entry,mem,same⟩)
    simpa using ne
  refine ⟨before.map Prod.snd,after.map Prod.snd,by simp [values,split],?_⟩
  simp only [remove,filter,values,split,filter_append,map_append,first]
  rw [filter_cons_of_neg (by simp),second]

theorem values_set_held (m : InsertionMap κ V) (value : V) (got : m.get k = some held) :
    ∃ before after, m.values = before ++ held :: after ∧ (m.set k value).values = before ++ value :: after := by
  have replaced (entries : List (κ × V)) (got : lookup k entries = some held) :
      ∃ before after, entries.map Prod.snd = before ++ held :: after ∧ (put k value entries).map Prod.snd = before ++ value :: after := by
    induction entries with
    | nil => cases got
    | cons entry rest ih =>
      rw [lookup] at got
      split at got
      · rename_i here
        refine ⟨[],rest.map Prod.snd,?_,?_⟩
        · rw [map_cons,some.inj got]
          rfl
        · rw [put,if_pos here]
          rfl
      · rename_i apart
        obtain ⟨before,after,whole,changed⟩ := ih got
        refine ⟨entry.2 :: before,after,?_,?_⟩
        · rw [map_cons,whole]
          rfl
        · rw [put,if_neg apart,map_cons,changed]
          rfl
  exact replaced m.entries got

theorem countP_set (m : InsertionMap κ V) (p : V → Bool) (k : κ) (value : V) : (m.set k value).values.countP p + (if (m.get k).any p then 1 else 0) =
    m.values.countP p + if p value then 1 else 0 := by
  cases got : m.get k with
  | none => simp [values_set_fresh got,countP_append,countP_cons]
  | some =>
    obtain ⟨_,_,old,new⟩ := values_set_held m value got
    simp only [old,new,countP_append,countP_cons,Option.any_some]
    omega

omit [DecidableEq κ] in
theorem length_values : m.values.length = m.entries.length := length_map ..

theorem length_set_fresh (absent : m.get k = none) : (m.set k value).entries.length = m.entries.length + 1 := by
  rw [← length_values,← length_values,values_set_fresh absent]
  simp

theorem length_set_held (got : m.get k = some held) : (m.set k value).entries.length = m.entries.length := by
  obtain ⟨_,_,whole,changed⟩ := m.values_set_held value got
  rw [← length_values,← length_values,whole,changed]
  simp

theorem length_remove_held (got : m.get k = some held) : (m.remove k).entries.length < m.entries.length := by
  obtain ⟨_,_,whole,rest⟩ := values_remove got
  rw [← length_values,← length_values,whole,rest]
  simp

end Updates

section Whole
variable {W : Type v} {m : InsertionMap κ V}

def map (m : InsertionMap κ V) (f : V → W) : InsertionMap κ W :=
  ⟨m.entries.map (fun entry => (entry.1,f entry.2)),by
    rw [map_map]
    exact m.distinct⟩

theorem get_map : (m.map f).get k = (m.get k).map f := by
  have got (entries : List (κ × V)) : lookup k (entries.map (fun entry => (entry.1,f entry.2))) = (lookup k entries).map f := by
    induction entries with
    | nil => rfl
    | cons _ _ ih =>
      simp only [map_cons,lookup,ih]
      split <;> rfl
  exact got m.entries

-- The last element with a key gives the value.
def collect (key : α → κ) (value : α → V) (xs : List α) : InsertionMap κ V :=
  xs.foldl (fun m x => m.set (key x) (value x)) empty

theorem get_collect {value : α → V} (xs : List α) :
    (collect key value xs).get k = ((xs.filter (fun x => key x = k)).getLast?).map value := by
  have entered (m : InsertionMap κ V) : (xs.foldl (fun m x => m.set (key x) (value x)) m).get k =
      (((xs.filter (fun x => key x = k)).getLast?).map value).or (m.get k) := by
    induction xs generalizing m with
    | nil => rfl
    | cons x rest ih =>
      rw [foldl_cons,ih]
      rcases eq_or_ne (key x) k with rfl | here
      · rw [get_set,filter_cons_of_pos (by simp),getLast?_cons]
        cases (rest.filter (fun y => key y = key x)).getLast? <;> simp
      · rw [get_set_ne (Ne.symm here),filter_cons_of_neg (by simpa using here)]
  rw [collect,entered,get_empty,Option.or_none]

theorem collect_mem {value : α → V} (got : (collect key value xs).get k = some v) : ∃ x ∈ xs, key x = k ∧ value x = v := by
  rw [get_collect,Option.map_eq_some_iff] at got
  obtain ⟨x,last,rfl⟩ := got
  obtain ⟨mem,here⟩ := mem_filter.mp (mem_of_getLast? last)
  exact ⟨x,mem,of_decide_eq_true here,rfl⟩

theorem collect_none {value : α → V} : (collect key value xs).get k = none ↔ ∀ x ∈ xs, key x ≠ k := by
  simp [get_collect]

theorem collect_value {value : α → V} : (collect key value xs).get k = ((collect key id xs).get k).map value := by
  simp [get_collect]

theorem collect_entries {key : α → κ} {value : α → V} (distinct : (xs.map key).Nodup) :
    (collect key value xs).entries = xs.map (fun x => (key x,value x)) := by
  induction xs using reverseRecOn with
  | nil => rfl
  | append_singleton xs x ih =>
    rw [map_append,nodup_append] at distinct
    have fresh : (collect key value xs).get (key x) = none :=
      collect_none.mpr (fun y mem => distinct.2.2 _ (mem_map_of_mem mem) _ (mem_singleton_self _))
    rw [collect,foldl_append,map_append,← ih distinct.1]
    exact entries_set_fresh fresh

theorem collect_exact {xs : List α} (distinct : (xs.map key).Nodup) : (collect key id xs).get k = some x ↔ x ∈ xs ∧ key x = k := by
  constructor
  · intro got
    obtain ⟨y,mem,here,rfl⟩ := collect_mem got
    exact ⟨mem,here⟩
  · rintro ⟨mem,rfl⟩
    cases got : (collect key id xs).get (key x) with
    | none => exact absurd rfl (collect_none.mp got x mem)
    | some =>
      obtain ⟨z,among,same,rfl⟩ := collect_mem got
      exact congrArg some (inj_on_of_nodup_map distinct among mem same)

theorem get_collect_values {value : V → W} (keyed : ∀ k v, m.get k = some v → key v = k) :
    (collect key value m.values).get k = (m.get k).map value := by
  have own : ∀ entry ∈ m.entries, key entry.2 = entry.1 := fun entry mem => keyed entry.1 entry.2 (get_exact.mpr mem)
  have picked : m.values.filter (fun v => key v = k) = (m.entries.filter (fun entry => entry.1 = k)).map Prod.snd := by
    rw [values,filter_map]
    congr 1
    apply filter_congr
    intro entry mem
    simp [own entry mem]
  -- Keys are distinct, so the filter keeps one entry at most.
  have single : m.entries.filter (fun entry => entry.1 = k) = ((m.get k).map (fun v => (k,v))).toList := by
    have got (entries : List (κ × V)) (distinct : (entries.map Prod.fst).Nodup) :
        entries.filter (fun entry => entry.1 = k) = ((lookup k entries).map (fun v => (k,v))).toList := by
      induction entries with
      | nil => rfl
      | cons entry rest ih =>
        rw [map_cons,nodup_cons] at distinct
        by_cases here : entry.1 = k
        · have none : rest.filter (fun entry => entry.1 = k) = [] := by
            rw [filter_eq_nil_iff]
            intro _ mem same
            apply distinct.1
            rw [here,← of_decide_eq_true same]
            exact mem_map_of_mem mem
          rw [filter_cons_of_pos (by simpa using here),none,lookup,if_pos here]
          simp [← here]
        · rw [filter_cons_of_neg (by simpa using here),ih distinct.2,lookup,if_neg here]
    exact got m.entries m.distinct
  rw [get_collect,picked,single]
  cases m.get k <;> rfl

end Whole
end InsertionMap
