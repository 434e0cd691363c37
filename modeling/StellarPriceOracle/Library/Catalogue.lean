import Mathlib.Data.Finset.Card

namespace Catalogue
open List

-- A set of members and a list of things in the order in which they first occurred.
structure Register (α β : Type) where
  members : Finset α
  listed : List β
  once : listed.Nodup

inductive Effect (α β : Type) where
  | add (a : α)
  | drop (a : α)
  | record (b : β)
  | keep

def Effect.listed : Effect α β → Option β
  | .record b => some b
  | _ => none

theorem eraseDups_snoc [BEq β] [LawfulBEq β] (list : List β) (b : β) :
    (list ++ [b]).eraseDups = if b ∈ list then list.eraseDups else list.eraseDups ++ [b] := by
  rw [eraseDups_append]
  split
  · rename_i mem
    simp [removeAll,mem]
  · rename_i fresh
    simp [removeAll,fresh,eraseDups_cons]

section
variable {α β : Type} [DecidableEq α] [DecidableEq β]

def Register.empty : Register α β := ⟨∅,[],nodup_nil⟩

def Register.apply (r : Register α β) : Effect α β → Register α β
  | .add a => {r with members := insert a r.members}
  | .drop a => {r with members := r.members.erase a}
  | .record b => if fresh : b ∈ r.listed then r else {r with listed := r.listed ++ [b], once := by simpa using r.once.concat fresh}
  | .keep => r

theorem record_listed (r : Register α β) (b : β) :
    (r.apply (.record b)).listed = if b ∈ r.listed then r.listed else r.listed ++ [b] := by
  simp only [Register.apply]
  split <;> rfl

theorem replay_listed [BEq β] [LawfulBEq β] (effects : List (Effect α β)) :
    (effects.foldl Register.apply Register.empty).listed = (effects.filterMap Effect.listed).eraseDups := by
  induction effects using reverseRecOn with
  | nil => rfl
  | append_singleton _ last ih =>
    rw [foldl_append,filterMap_append]
    cases last with
    | record =>
      simp only [foldl_cons,foldl_nil,filterMap_cons,Effect.listed,filterMap_nil]
      rw [record_listed,eraseDups_snoc,ih]
      simp [mem_eraseDups]
    | add a | drop a | keep =>
      simp only [foldl_cons,foldl_nil,filterMap_cons,Effect.listed,filterMap_nil,append_nil]
      exact ih

end
end Catalogue
