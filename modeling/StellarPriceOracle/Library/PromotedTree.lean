import Mathlib.Algebra.Group.Nat.Defs
import Mathlib.Data.List.Basic

namespace PromotedTree
open List (length_cons mem_cons_of_mem mem_append_right mem_cons_self mem_append_left mem_cons)
open Option (some)

-- Binary hash trees in which the last node of an odd level moves up unpaired, over any `pair`.
variable {α : Type} (pair : α → α → α)

def pairUp : List α → List α
  | left :: right :: rest => pair left right :: pairUp rest
  | [last] => [last]
  | [] => []

@[simp] theorem pairUp_length : ∀ level : List α, (pairUp pair level).length = (level.length + 1) / 2
  | left :: right :: rest => by
    simp only [pairUp,length_cons,pairUp_length rest]
    omega
  | [last] | [] => by simp [pairUp]

theorem pairUp_paired : ∀ (level : List α) (i : Nat) {left right : α}, level[2*i]? = some left →
    level[2*i+1]? = some right → (pairUp pair level)[i]? = some (pair left right)
  | a :: b :: rest,0,left,right,first,second => by
    simp only [Nat.mul_zero,Nat.zero_add,List.getElem?_cons_zero,List.getElem?_cons_succ,
      some.injEq] at first second
    simp [pairUp,first,second]
  | a :: b :: rest,i+1,left,right,first,second => by
    have shift : 2*(i+1) = 2*i+2 := by omega
    rw [shift] at first second
    exact pairUp_paired rest i first second
  | [last],i,left,right,first,second => by simp at second
  | [],i,left,right,first,second => by simp at first

theorem pairUp_promoted : ∀ (level : List α) (i : Nat) {last : α}, level[2*i]? = some last →
    level.length = 2*i+1 → (pairUp pair level)[i]? = some last
  | a :: b :: rest,0,last,got,odd => by simp at odd
  | a :: b :: rest,i+1,last,got,odd => by
    have shift : 2*(i+1) = 2*i+2 := by omega
    rw [shift] at got
    exact pairUp_promoted rest i got (by simp only [length_cons] at odd; omega)
  | [only],0,last,got,odd => by simpa [pairUp] using got
  | [only],i+1,last,got,odd | [],i,last,got,odd => by simp at odd

def reduce : Nat → List α → List α
  | 0,level => level
  | fuel+1,level => if level.length ≤ 1 then level else reduce fuel (pairUp pair level)

theorem reduce_nonempty (mem : level ≠ []) : reduce pair fuel level ≠ [] := by
  induction fuel generalizing level with
  | zero => exact mem
  | succ _ ih =>
    have pos := List.length_pos_iff.mpr mem
    rw [reduce]
    split
    · exact mem
    · refine ih (List.ne_nil_of_length_pos ?_)
      rw [pairUp_length]
      omega

def placed (index : Nat) (current sibling : α) : α × α :=
  if index % 2 = 0 then (current,sibling) else (sibling,current)

theorem placed_inj (same : placed index a x = placed index b y) : a = b := by
  unfold placed at same
  split at same
  · exact (Prod.mk.inj same).1
  · exact (Prod.mk.inj same).2

def join (p : α × α) : α := pair p.1 p.2

theorem join_placed : join pair (placed index current sibling) =
    if index % 2 = 0 then pair current sibling else pair sibling current := by
  unfold join placed
  split <;> rfl

-- Recomputing the top from a node at `index`; a promoted node takes no sibling.
def walk : Nat → Nat → Nat → List α → α → Option α
  | 0,_,_,_,current => some current
  | fuel+1,index,size,siblings,current =>
    if size ≤ 1 then some current
    else if index + 1 = size ∧ size % 2 = 1 then walk fuel (index/2) ((size+1)/2) siblings current
    else match siblings with
      | [] => none
      | sibling :: rest => walk fuel (index/2) ((size+1)/2) rest (join pair (placed index current sibling))

theorem walk_top (short : size ≤ 1) : walk pair fuel index size siblings current = some current := by
  cases fuel <;> simp [walk,short]

theorem walk_promoted (long : ¬ size ≤ 1) (promoted : index + 1 = size ∧ size % 2 = 1) :
    walk pair (fuel+1) index size siblings current = walk pair fuel (index/2) ((size+1)/2) siblings current := by
  cases siblings <;> rw [walk,if_neg long,if_pos promoted]

theorem walk_paired (long : ¬ size ≤ 1) (paired : ¬ (index + 1 = size ∧ size % 2 = 1)) :
    walk pair (fuel+1) index size (sibling :: rest) current =
      walk pair fuel (index/2) ((size+1)/2) rest (join pair (placed index current sibling)) := by
  rw [walk,if_neg long,if_neg paired]

theorem walk_starved (long : ¬ size ≤ 1) (paired : ¬ (index + 1 = size ∧ size % 2 = 1)) :
    walk pair (fuel+1) index size [] current = none := by
  rw [walk,if_neg long,if_neg paired]

@[simp] def siblingIndex (index : Nat) : Nat := if index % 2 = 0 then index + 1 else index - 1

def copath : Nat → Nat → List α → List α
  | 0,_,_ => []
  | fuel+1,index,level =>
    if level.length ≤ 1 then []
    else if index + 1 = level.length ∧ level.length % 2 = 1 then copath fuel (index/2) (pairUp pair level)
    else level[siblingIndex index]?.toList ++ copath fuel (index/2) (pairUp pair level)

def pairs : List α → List (α × α)
  | left :: right :: rest => (left,right) :: pairs rest
  | _ => []

theorem pairs_at : ∀ (level : List α) (i : Nat) {left right : α}, level[2*i]? = some left →
    level[2*i+1]? = some right → (left,right) ∈ pairs level
  | a :: b :: rest,0,left,right,first,second => by
    simp only [Nat.mul_zero,Nat.zero_add,List.getElem?_cons_zero,List.getElem?_cons_succ,
      some.injEq] at first second
    simp [pairs,first,second]
  | a :: b :: rest,i+1,left,right,first,second => by
    have shift : 2*(i+1) = 2*i+2 := by omega
    rw [shift] at first second
    exact mem_cons_of_mem _ (pairs_at rest i first second)
  | [last],i,left,right,first,second => by simp at second
  | [],i,left,right,first,second => by simp at first

theorem pairUp_above (got : level[index]? = some node) (paired : ¬ (index + 1 = level.length ∧ level.length % 2 = 1)) :
    ∃ sibling, level[siblingIndex index]? = some sibling ∧ placed index node sibling ∈ pairs level ∧
      (pairUp pair level)[index/2]? = some (join pair (placed index node sibling)) := by
  obtain ⟨_,_⟩ := List.getElem?_eq_some_iff.mp got
  by_cases even : index % 2 = 0
  · have next : index + 1 < level.length := by omega
    have left : level[2*(index/2)]? = some node := by rwa [show 2*(index/2) = index by omega]
    have right : level[2*(index/2)+1]? = some level[index+1] := by
      rw [show 2*(index/2)+1 = index+1 by omega]
      exact List.getElem?_eq_getElem next
    refine ⟨level[index+1],by simp [even,next],?_⟩
    rw [placed,if_pos even]
    exact ⟨pairs_at level (index/2) left right,pairUp_paired pair level (index/2) left right⟩
  · have prev : index - 1 < level.length := by omega
    have left : level[2*(index/2)]? = some level[index-1] := by
      rw [show 2*(index/2) = index-1 by omega]
      exact List.getElem?_eq_getElem prev
    have right : level[2*(index/2)+1]? = some node := by rwa [show 2*(index/2)+1 = index by omega]
    refine ⟨level[index-1],by simp [even,prev],?_⟩
    rw [placed,if_neg even]
    exact ⟨pairs_at level (index/2) left right,pairUp_paired pair level (index/2) left right⟩

theorem pairUp_above_promoted (got : level[index]? = some node)
    (promoted : index + 1 = level.length ∧ level.length % 2 = 1) : (pairUp pair level)[index/2]? = some node := by
  refine pairUp_promoted pair level (index/2) ?_ (by omega)
  rwa [show 2*(index/2) = index by omega]

theorem single_node {index : Nat} (got : level[index]? = some node) (short : level.length ≤ 1) : level = [node] := by
  cases level with
  | nil => simp at got
  | cons _ rest =>
    have alone : rest = [] := List.eq_nil_of_length_eq_zero (by simp only [length_cons] at short; omega)
    subst alone
    cases index with
    | zero => simpa using got
    | succ => simp at got

theorem copath_complete (enough : level.length ≤ fuel) (got : level[index]? = some node) :
    walk pair fuel index level.length (copath pair fuel index level) node = (reduce pair fuel level).head? := by
  induction fuel generalizing index level node with
  | zero =>
    obtain ⟨_,_⟩ := List.getElem?_eq_some_iff.mp got
    omega
  | succ fuel ih =>
    by_cases short : level.length ≤ 1
    · rw [single_node got short]
      simp [walk,reduce]
    · have shrinks : (pairUp pair level).length ≤ fuel := by rw [pairUp_length]; omega
      rw [reduce,copath,if_neg short,if_neg short]
      by_cases promoted : index + 1 = level.length ∧ level.length % 2 = 1
      · rw [if_pos promoted,walk_promoted pair short promoted,← pairUp_length pair]
        exact ih shrinks (pairUp_above_promoted pair got promoted)
      · obtain ⟨_,beside,_,above⟩ := pairUp_above pair got promoted
        rw [if_neg promoted,beside,Option.toList_some,List.singleton_append,walk_paired pair short promoted,
          ← pairUp_length pair]
        exact ih shrinks above

theorem copath_length (bound : level.length ≤ 2^depth) : (copath pair fuel index level).length ≤ depth := by
  induction fuel generalizing index level depth with
  | zero => simp [copath]
  | succ fuel ih =>
    rw [copath]
    split
    · simp
    · rename_i long
      cases depth with
      | zero => simp at bound; omega
      | succ depth =>
        have halved : (pairUp pair level).length ≤ 2^depth := by
          rw [pairUp_length]
          rw [Nat.pow_succ] at bound
          omega
        have rest : (copath pair fuel (index/2) (pairUp pair level)).length ≤ depth := ih halved
        split
        · omega
        · have one : (level[siblingIndex index]?.toList).length ≤ 1 := by
            cases level[siblingIndex index]? <;> simp
          rw [List.length_append]
          omega

def built : Nat → List α → List (α × α)
  | 0,_ => []
  | fuel+1,level => if level.length ≤ 1 then [] else pairs level ++ built fuel (pairUp pair level)

def walked : Nat → Nat → Nat → List α → α → List (α × α)
  | 0,_,_,_,_ => []
  | fuel+1,index,size,siblings,current =>
    if size ≤ 1 then []
    else if index + 1 = size ∧ size % 2 = 1 then walked fuel (index/2) ((size+1)/2) siblings current
    else match siblings with
      | [] => []
      | sibling :: rest => placed index current sibling ::
          walked fuel (index/2) ((size+1)/2) rest (join pair (placed index current sibling))

theorem walked_promoted (long : ¬ size ≤ 1) (promoted : index + 1 = size ∧ size % 2 = 1) :
    walked pair (fuel+1) index size siblings current =
      walked pair fuel (index/2) ((size+1)/2) siblings current := by
  cases siblings <;> rw [walked,if_neg long,if_pos promoted]

theorem walked_paired (long : ¬ size ≤ 1) (paired : ¬ (index + 1 = size ∧ size % 2 = 1)) :
    walked pair (fuel+1) index size (sibling :: rest) current = placed index current sibling ::
      walked pair fuel (index/2) ((size+1)/2) rest (join pair (placed index current sibling)) := by
  rw [walked,if_neg long,if_neg paired]

-- A walk that reaches the top of a tree of its size started at the node the tree has there.
theorem walk_position (enough : level.length ≤ fuel) (got : level[index]? = some node)
    (separate : ∀ p ∈ walked pair fuel index level.length siblings current, ∀ q ∈ built pair fuel level,
      join pair p = join pair q → p = q)
    (top : (reduce pair fuel level).head? = some root)
    (ran : walk pair fuel index level.length siblings current = some root) : current = node := by
  induction fuel generalizing index level node siblings current with
  | zero =>
    obtain ⟨_,_⟩ := List.getElem?_eq_some_iff.mp got
    omega
  | succ fuel ih =>
    by_cases short : level.length ≤ 1
    · rw [walk_top pair short] at ran
      rw [single_node got short] at top
      simp only [reduce,List.length_singleton,Nat.le_refl,if_true,List.head?_cons] at top
      exact some.inj (ran.trans top.symm)
    · have shrinks : (pairUp pair level).length ≤ fuel := by rw [pairUp_length]; omega
      rw [reduce,if_neg short] at top
      rw [built,if_neg short] at separate
      by_cases promoted : index + 1 = level.length ∧ level.length % 2 = 1
      · rw [walk_promoted pair short promoted,← pairUp_length pair] at ran
        rw [walked_promoted pair short promoted,← pairUp_length pair] at separate
        exact ih shrinks (pairUp_above_promoted pair got promoted)
          (fun p hp q hq => separate p hp q (mem_append_right _ hq)) top ran
      · obtain ⟨_,_,paired,above⟩ := pairUp_above pair got promoted
        cases siblings with
        | nil =>
          rw [walk_starved pair short promoted] at ran
          cases ran
        | cons =>
          rw [walk_paired pair short promoted,← pairUp_length pair] at ran
          rw [walked_paired pair short promoted,← pairUp_length pair] at separate
          have same := ih shrinks above
            (fun p hp q hq => separate p (mem_cons_of_mem _ hp) q (mem_append_right _ hq)) top ran
          exact placed_inj (separate _ mem_cons_self _ (mem_append_left _ paired) same)

def nodes : Nat → List α → List α
  | 0,level => level
  | fuel+1,level => level ++ if level.length ≤ 1 then [] else nodes fuel (pairUp pair level)

theorem pairUp_members : ∀ level : List α, v ∈ pairUp pair level → v ∈ level ∨ ∃ q ∈ pairs level, v = join pair q
  | a :: b :: rest,mem => by
    rcases mem_cons.mp mem with rfl | later
    · exact Or.inr ⟨(a,b),mem_cons_self,rfl⟩
    · rcases pairUp_members rest later with old | ⟨q,paired,value⟩
      · exact Or.inl (by simp [old])
      · exact Or.inr ⟨q,mem_cons_of_mem _ paired,value⟩
  | [last],mem | [],mem => Or.inl mem

theorem nodes_parts (mem : v ∈ nodes pair fuel level) : v ∈ level ∨ ∃ q ∈ built pair fuel level, v = join pair q := by
  induction fuel generalizing level with
  | zero => exact Or.inl mem
  | succ _ ih =>
    rw [nodes] at mem
    rcases List.mem_append.mp mem with leaf | higher
    · exact Or.inl leaf
    · by_cases short : level.length ≤ 1
      · simp [short] at higher
      · rw [if_neg short] at higher
        rw [built,if_neg short]
        rcases ih higher with up | ⟨q,formed,value⟩
        · rcases pairUp_members pair level up with leaf | ⟨q,formed,value⟩
          · exact Or.inl leaf
          · exact Or.inr ⟨q,mem_append_left _ formed,value⟩
        · exact Or.inr ⟨q,mem_append_right _ formed,value⟩

theorem pairs_members : ∀ level : List α, ∀ q ∈ pairs level, q.1 ∈ level ∧ q.2 ∈ level
  | a :: b :: rest,q,mem => by
    rcases mem_cons.mp mem with rfl | later
    · simp
    · obtain ⟨left,right⟩ := pairs_members rest q later
      simp [left,right]
  | [last],q,mem | [],q,mem => by simp [pairs] at mem

theorem built_nodes (mem : q ∈ built pair fuel level) : q.1 ∈ nodes pair fuel level ∧ q.2 ∈ nodes pair fuel level := by
  induction fuel generalizing level with
  | zero => cases mem
  | succ _ ih =>
    rw [built] at mem
    rw [nodes]
    split at mem
    · cases mem
    · rename_i long
      rw [if_neg long]
      rcases List.mem_append.mp mem with here | higher
      · obtain ⟨left,right⟩ := pairs_members level q here
        exact ⟨mem_append_left _ left,mem_append_left _ right⟩
      · obtain ⟨left,right⟩ := ih higher
        exact ⟨mem_append_right _ left,mem_append_right _ right⟩

theorem top_node (top : (reduce pair fuel level).head? = some root) : root ∈ nodes pair fuel level := by
  induction fuel generalizing level with
  | zero => exact List.mem_of_mem_head? top
  | succ _ ih =>
    rw [reduce] at top
    rw [nodes]
    split at top
    · exact mem_append_left _ (List.mem_of_mem_head? top)
    · rename_i long
      rw [if_neg long]
      exact mem_append_right _ (ih top)

-- Whatever size and index a proof claims, a walk that ends in the tree began in it.
theorem walk_descends (separate : ∀ p ∈ walked pair fuel index size siblings current, ∀ q ∈ built pair depth level,
      join pair p = join pair q → p = q)
    (interior : ∀ p ∈ walked pair fuel index size siblings current, join pair p ∉ level)
    (ran : walk pair fuel index size siblings current = some root) (mem : root ∈ nodes pair depth level) :
    current ∈ nodes pair depth level := by
  induction fuel generalizing index size siblings current with
  | zero =>
    cases ran
    exact mem
  | succ _ ih =>
    by_cases short : size ≤ 1
    · rw [walk_top pair short] at ran
      cases ran
      exact mem
    · by_cases promoted : index + 1 = size ∧ size % 2 = 1
      · rw [walk_promoted pair short promoted] at ran
        rw [walked_promoted pair short promoted] at separate interior
        exact ih separate interior ran
      · cases siblings with
        | nil =>
          rw [walk_starved pair short promoted] at ran
          cases ran
        | cons =>
          rw [walk_paired pair short promoted] at ran
          rw [walked_paired pair short promoted] at separate interior
          have above := ih (fun p hp => separate p (mem_cons_of_mem _ hp))
            (fun p hp => interior p (mem_cons_of_mem _ hp)) ran
          rcases nodes_parts pair above with leaf | ⟨q,formed,value⟩
          · exact absurd leaf (interior _ mem_cons_self)
          · obtain ⟨left,right⟩ := built_nodes pair formed
            have same := separate _ mem_cons_self q formed value
            unfold placed at same
            split at same
            · rw [← same] at left
              exact left
            · rw [← same] at right
              exact right

theorem nodes_all {P : α → Prop} (leaves : ∀ v ∈ level, P v) (joined : ∀ p, P (join pair p)) : ∀ v ∈ nodes pair fuel level, P v := by
  intro v mem
  rcases nodes_parts pair mem with leaf | ⟨q,_,rfl⟩
  · exact leaves v leaf
  · exact joined q

theorem walked_running {P : α → Prop} (start : P current) (joined : ∀ p, P (join pair p))
    (mem : p ∈ walked pair fuel index size siblings current) :
    ∃ i running sibling, p = placed i running sibling ∧ P running := by
  induction fuel generalizing index size siblings current with
  | zero => cases mem
  | succ _ ih =>
    by_cases short : size ≤ 1
    · cases siblings <;> simp [walked,short] at mem
    · by_cases promoted : index + 1 = size ∧ size % 2 = 1
      · rw [walked_promoted pair short promoted] at mem
        exact ih start mem
      · cases siblings with
        | nil => rw [walked,if_neg short,if_neg promoted] at mem; cases mem
        | cons sibling =>
          rw [walked_paired pair short promoted] at mem
          rcases mem_cons.mp mem with rfl | later
          · exact ⟨index,current,sibling,rfl,start⟩
          · exact ih (joined _) later

end PromotedTree
