import StellarPriceOracle.Merkle

namespace StellarPriceOracle.AggregatorMerkle
open PromotedTree
open List
open Merkle

-- services/aggregator/src/infrastructure/merkle.ts, over any encoding of leaves.
abbrev Buffer := Bytes

def nodeDomainTag : Buffer := [0x01]

def hashPair (sha256 : Bytes → Bytes) (left right : Buffer) : Buffer := sha256 (nodeDomainTag ++ left ++ right)

def parents (sha256 : Bytes → Bytes) : List Buffer → List Buffer
  | left :: right :: rest => hashPair sha256 left right :: parents sha256 rest
  | [left] => [left]
  | [] => []

-- The `while (current.length > 1)` loop; `levels` collects every level from the leaves up.
def buildLevels (sha256 : Bytes → Bytes) : Nat → List Buffer → List (List Buffer)
  | 0,current => [current]
  | fuel+1,current => current :: if 1 < current.length then buildLevels sha256 fuel (parents sha256 current) else []

structure MerkleTree where
  leaves : List Buffer
  levels : List (List Buffer)

structure MerkleProof where
  leafIndex : Nat
  siblings : List Buffer

namespace MerkleTree

def construct (sha256 : Bytes → Bytes) (hashLeaf : ε → Buffer) (entries : List ε) : Except String MerkleTree :=
  if entries.length = 0 then .error "MerkleTree: cannot build tree from empty entry list"
  else
    let leaves := entries.map hashLeaf
    .ok ⟨leaves,buildLevels sha256 leaves.length leaves⟩

def root (tree : MerkleTree) : Option Buffer := tree.levels.getLast?.bind head?

-- The loop of `getProof`; an index outside a level, which would push `undefined`, is `none`.
def siblingsAlong : List (List Buffer) → Nat → Option (List Buffer)
  | [],_ => some []
  | levelNodes :: rest,index => do
    let isLast := index + 1 = levelNodes.length
    let isOddLevel := levelNodes.length % 2 = 1
    if isLast ∧ isOddLevel then siblingsAlong rest (index/2)
    else do
      let sibling ← levelNodes[if index % 2 = 0 then index + 1 else index - 1]?
      let siblings ← siblingsAlong rest (index/2)
      some (sibling :: siblings)

def getProof (tree : MerkleTree) (leafIndex : Nat) : Except String (Option MerkleProof) :=
  if tree.leaves.length ≤ leafIndex then
    .error ("MerkleTree: leafIndex " ++ toString leafIndex ++ " out of range")
  else .ok ((siblingsAlong tree.levels.dropLast leafIndex).map (fun siblings => ⟨leafIndex,siblings⟩))

end MerkleTree

section
variable (sha256 : Bytes → Bytes)

theorem hashPair_exact : hashPair sha256 = Merkle.hashPair sha256 := by
  funext left right
  simp [hashPair,Merkle.hashPair,nodePreimage,nodeDomainTag,Merkle.nodeDomainTag]

theorem parents_exact : ∀ level, parents sha256 level = pairUp (Merkle.hashPair sha256) level
  | left :: right :: rest => by rw [parents,pairUp,parents_exact rest,hashPair_exact]
  | [left] | [] => rfl

theorem buildLevels_nonempty : buildLevels sha256 fuel level ≠ [] := by
  cases fuel <;> simp [buildLevels]

theorem buildLevels_top : (buildLevels sha256 fuel level).getLast? = some (reduce (Merkle.hashPair sha256) fuel level) := by
  induction fuel generalizing level with
  | zero => rfl
  | succ _ ih =>
    rw [buildLevels,reduce]
    by_cases short : level.length ≤ 1
    · rw [if_pos short,if_neg (by omega)]
      rfl
    · rw [if_neg short,if_pos (by omega),getLast?_cons,ih,parents_exact]
      rfl

theorem siblingsAlong_exact (enough : level.length ≤ fuel) (got : level[index]? = some node) :
    MerkleTree.siblingsAlong (buildLevels sha256 fuel level).dropLast index =
      some (copath (Merkle.hashPair sha256) fuel index level) := by
  induction fuel generalizing index level node with
  | zero => simp [buildLevels,MerkleTree.siblingsAlong,copath]
  | succ fuel ih =>
    rw [buildLevels,copath]
    by_cases short : level.length ≤ 1
    · rw [if_pos short,if_neg (by omega)]
      rfl
    · rw [if_neg short,if_pos (by omega),dropLast_cons_of_ne_nil (buildLevels_nonempty sha256),parents_exact]
      have shrinks : (pairUp (Merkle.hashPair sha256) level).length ≤ fuel := by rw [pairUp_length]; omega
      by_cases promoted : index + 1 = level.length ∧ level.length % 2 = 1
      · have above := ih shrinks (pairUp_above_promoted _ got promoted)
        simp only [MerkleTree.siblingsAlong,if_pos promoted]
        exact above
      · obtain ⟨_,beside,_,above⟩ := pairUp_above (Merkle.hashPair sha256) got promoted
        have rest := ih shrinks above
        unfold siblingIndex at beside
        simp only [MerkleTree.siblingsAlong,if_neg promoted,siblingIndex,beside,rest]
        rfl

end

-- What the contract answers to the aggregator's proof for `index`, and whether the roots agree.
structure Accepted (sha256 : Bytes → Bytes) (hashLeaf : BatchPriceEntry → Buffer) (entries : List BatchPriceEntry)
    (index : Nat) (entry : BatchPriceEntry) (tree : MerkleTree) (proof : MerkleProof) (root : Buffer) : Prop where
  constructed : MerkleTree.construct sha256 hashLeaf entries = .ok tree
  proved : tree.getProof index = .ok (some proof)
  rooted : tree.root = some root
  verified : verifyProof sha256 entry index entries.length proof.siblings root = .ok true
  agreed : root = computeRoot sha256 (entries.map hashLeaf)

section
variable (sha256 : Bytes → Bytes) (hashLeaf : BatchPriceEntry → Buffer) {entries : List BatchPriceEntry}
  {index : Nat} {entry : BatchPriceEntry}

theorem construct_parts (got : entries[index]? = some entry) : ∃ tree, MerkleTree.construct sha256 hashLeaf entries = .ok tree ∧
    tree.getProof index = .ok (some ⟨index,
      copath (Merkle.hashPair sha256) (entries.map hashLeaf).length index (entries.map hashLeaf)⟩) ∧
    tree.root = some (computeRoot sha256 (entries.map hashLeaf)) := by
  obtain ⟨inside,_⟩ := List.getElem?_eq_some_iff.mp got
  have hashed : (entries.map hashLeaf)[index]? = some (hashLeaf entry) := by simp [got]
  have mem : entries.map hashLeaf ≠ [] := by
    intro empty
    simp [empty] at hashed
  refine ⟨_,if_neg (by omega),?_,?_⟩
  · rw [MerkleTree.getProof,if_neg (by simpa using inside)]
    rw [siblingsAlong_exact sha256 (Nat.le_refl _) hashed]
    rfl
  · rw [MerkleTree.root,buildLevels_top,Option.bind_some,computeRoot_top sha256 mem]

theorem copath_fits (bounded : entries.length < 2^32) :
    (copath (Merkle.hashPair sha256) fuel index (entries.map hashLeaf)).length ≤ maxProofSiblings := by
  have deep : (entries.map hashLeaf).length ≤ 2^32 := by
    rw [length_map]
    omega
  have short : (copath (Merkle.hashPair sha256) fuel index (entries.map hashLeaf)).length ≤ 32 := copath_length _ deep
  unfold maxProofSiblings
  omega

theorem copath_walk (got : entries[index]? = some entry) : walk (Merkle.hashPair sha256) entries.length index entries.length
      (copath (Merkle.hashPair sha256) entries.length index (entries.map hashLeaf)) (hashLeaf entry) =
      some (computeRoot sha256 (entries.map hashLeaf)) := by
  have hashed : (entries.map hashLeaf)[index]? = some (hashLeaf entry) := by simp [got]
  have mem : entries.map hashLeaf ≠ [] := by
    intro empty
    simp [empty] at hashed
  have complete := copath_complete (Merkle.hashPair sha256) (Nat.le_refl _) hashed
  rw [computeRoot_top sha256 mem] at complete
  simpa only [length_map] using complete

-- At u32::MAX entries `level_size + 1` overflows in the first round.
theorem full_rejected (hashed : Merkle.hashLeaf sha256 entry = .ok (hashLeaf entry))
    (got : entries[index]? = some entry) (full : entries.length = 2^32 - 1) :
    ¬ ∃ tree proof root, Accepted sha256 hashLeaf entries index entry tree proof root := by
  rintro ⟨_,proof,root,valid⟩
  obtain ⟨inside,_⟩ := List.getElem?_eq_some_iff.mp got
  obtain ⟨tree,constructed,proved,_⟩ := construct_parts sha256 hashLeaf got
  cases Except.ok.inj (constructed.symm.trans valid.constructed)
  cases Option.some.inj (Except.ok.inj (proved.symm.trans valid.proved))
  have supplied : walk (Merkle.hashPair sha256) entries.length index entries.length
      (copath (Merkle.hashPair sha256) entries.length index (entries.map hashLeaf)) (hashLeaf entry) ≠ none := by
    rw [copath_walk sha256 hashLeaf got]
    simp
  have verified := valid.verified
  rw [length_map,verifyProof_overflow sha256 (copath_fits sha256 hashLeaf (by omega)) inside hashed full
    supplied] at verified
  cases verified

-- The contract accepts the builder's proofs, for every tree its u32 arithmetic can walk.
theorem proof_accepted_exact (agree : ∀ e ∈ entries, Merkle.hashLeaf sha256 e = .ok (hashLeaf e))
    (bounded : entries.length < 2^32) (found : entries[index]? = some entry) :
    (∃ tree proof root, Accepted sha256 hashLeaf entries index entry tree proof root) ↔
      entries.length ≠ 2^32 - 1 := by
  have hashed := agree entry (mem_of_getElem? found)
  constructor
  · intro accepted full
    exact full_rejected sha256 hashLeaf hashed found full accepted
  · intro _
    obtain ⟨inside,_⟩ := List.getElem?_eq_some_iff.mp found
    obtain ⟨tree,constructed,proved,rooted⟩ := construct_parts sha256 hashLeaf found
    refine ⟨tree,_,_,constructed,proved,rooted,?_,rfl⟩
    rw [length_map,Merkle.verifyProof_walk sha256 (copath_fits sha256 hashLeaf bounded) inside hashed (by omega)]
    simp [copath_walk sha256 hashLeaf found]

end

def Sample.hashLeaf (e : BatchPriceEntry) : Buffer := (Merkle.hashLeaf Sample.sha256 e).toOption.getD []

theorem three_entries_accepted : ∃ tree proof root, Accepted Merkle.Sample.sha256 Sample.hashLeaf
    [Merkle.Sample.entry 1,Merkle.Sample.entry 2,Merkle.Sample.entry 3] 2 (Merkle.Sample.entry 3) tree proof root :=
  (proof_accepted_exact Merkle.Sample.sha256 Sample.hashLeaf (by decide) (by decide) rfl).mpr (by decide)

theorem full_batch_rejected : (replicate (2^32 - 1) (Merkle.Sample.entry 1)).length < 2^32 ∧
    (replicate (2^32 - 1) (Merkle.Sample.entry 1))[0]? = some (Merkle.Sample.entry 1) ∧
    (∀ e ∈ replicate (2^32 - 1) (Merkle.Sample.entry 1),
      Merkle.hashLeaf Merkle.Sample.sha256 e = .ok (Sample.hashLeaf e)) ∧
    ¬ ∃ tree proof root, Accepted Merkle.Sample.sha256 Sample.hashLeaf (replicate (2^32 - 1) (Merkle.Sample.entry 1)) 0
      (Merkle.Sample.entry 1) tree proof root := by
  have long : (replicate (2^32 - 1) (Merkle.Sample.entry 1)).length = 2^32 - 1 := length_replicate
  have found : (replicate (2^32 - 1) (Merkle.Sample.entry 1))[0]? = some (Merkle.Sample.entry 1) :=
    List.getElem?_replicate_of_lt (by omega)
  have hashed : Merkle.hashLeaf Merkle.Sample.sha256 (Merkle.Sample.entry 1) = .ok (Sample.hashLeaf (Merkle.Sample.entry 1)) := rfl
  refine ⟨by omega,found,?_,full_rejected _ _ hashed found long⟩
  intro e present
  rw [eq_of_mem_replicate present]
  exact hashed

end StellarPriceOracle.AggregatorMerkle
