import Mathlib.Data.List.Forall2
import Mathlib.Data.Set.Function
import StellarPriceOracle.Types
import StellarPriceOracle.Library.PromotedTree

namespace StellarPriceOracle.Merkle
open Guarded PromotedTree
open List
open Prod (ext fst snd)
open Except (ok)

def maxStringLen : Nat := 64
def maxProofSiblings : Nat := 64
def leafDomainTag : UInt8 := 0x00
def nodeDomainTag : UInt8 := 0x01

-- Declared to return `Bytes`, but the body and its callers treat it as a Result.
def stringToBytes (text : Str) : Outcome Bytes := do
  ensure (text.length ≤ maxStringLen) .assetNameTooLong
  .ok text

def beBytes : Nat → Nat → Bytes
  | 0,_ => []
  | width+1,n => UInt8.ofNat (n / 256^width) :: beBytes width n

def leafPreimage (entry : BatchPriceEntry) : Outcome Bytes := do
  let asset ← stringToBytes entry.asset
  let source ← stringToBytes entry.source.strkey
  .ok (leafDomainTag :: (asset ++ 0x00 :: (beBytes 16 (entry.price % 2^128).toNat ++ beBytes 4 entry.decimals ++
    beBytes 8 entry.timestamp ++ source)))

def nodePreimage (left right : Bytes) : Bytes := nodeDomainTag :: (left ++ right)

@[simp] theorem beBytes_length (width n : Nat) : (beBytes width n).length = width := by
  induction width with
  | zero => rfl
  | succ _ ih => rw [beBytes,length_cons,ih]

theorem beBytes_split (high low n : Nat) : beBytes (high + low) n = beBytes high (n / 256^low) ++ beBytes low n := by
  induction high with
  | zero => rw [Nat.zero_add,beBytes,nil_append]
  | succ high ih =>
    have quotient : n / 256^(high + low) = n / 256^low / 256^high := by
      rw [Nat.div_div_eq_div_mul,← Nat.pow_add,Nat.add_comm low high]
    rw [Nat.add_right_comm,beBytes,beBytes,ih,cons_append,quotient]

theorem beBytes_mod (width n : Nat) : beBytes width (n % 256^width) = beBytes width n := by
  induction width generalizing n with
  | zero => rfl
  | succ width ih =>
    have digit : n % 256^(width + 1) / 256^width = n / 256^width % 256 := by
      rw [Nat.pow_succ,Nat.mod_mul_right_div_self]
    have byte : UInt8.ofNat (n / 256^width % 256) = UInt8.ofNat (n / 256^width) := UInt8.ofNat_mod_size
    have rest : n % 256^(width + 1) % 256^width = n % 256^width :=
      Nat.mod_mod_of_dvd n (Nat.pow_dvd_pow 256 (Nat.le_succ width))
    rw [beBytes,beBytes,digit,byte,← ih (n % 256^(width + 1)),rest,ih n]

def ofBeBytes : Bytes → Nat
  | [] => 0
  | byte :: rest => byte.toNat * 256^rest.length + ofBeBytes rest

theorem ofBeBytes_beBytes (width n : Nat) : ofBeBytes (beBytes width n) = n % 256^width := by
  induction width with
  | zero => rw [beBytes,ofBeBytes,Nat.pow_zero,Nat.mod_one]
  | succ width ih =>
    have byte : (UInt8.ofNat (n / 256^width)).toNat = n / 256^width % 256 := UInt8.toNat_ofNat'
    rw [beBytes,ofBeBytes,ih,beBytes_length,byte,Nat.pow_succ,Nat.mod_mul,Nat.add_comm,Nat.mul_comm]

theorem beBytes_inj (fits : a < 256^width) (other : b < 256^width) (same : beBytes width a = beBytes width b) : a = b := by
  have numbers := congrArg ofBeBytes same
  rwa [ofBeBytes_beBytes,ofBeBytes_beBytes,Nat.mod_eq_of_lt fits,Nat.mod_eq_of_lt other] at numbers

section
variable (sha256 : Bytes → Bytes)

def hashLeaf (entry : BatchPriceEntry) : Outcome Bytes := do
  let buf ← leafPreimage entry
  .ok (sha256 buf)

def hashPair (left right : Bytes) : Bytes := sha256 (nodePreimage left right)

-- The loop of `verify_proof`, with `level_size` as fuel; rounding up traps at u32::MAX.
def verifyLoop : Nat → Nat → Nat → List Bytes → Bytes → Outcome (Option Bytes)
  | 0,_,_,_,current => .ok (some current)
  | fuel+1,index,levelSize,siblings,current =>
    if levelSize ≤ 1 then .ok (some current)
    else if index = levelSize - 1 ∧ levelSize % 2 = 1 then do
      let rounded ← addU32 levelSize 1
      verifyLoop fuel (index/2) (rounded/2) siblings current
    else match siblings with
      | [] => .ok none
      | sibling :: rest => do
        let rounded ← addU32 levelSize 1
        verifyLoop fuel (index/2) (rounded/2) rest
          (if index % 2 = 0 then hashPair sha256 current sibling else hashPair sha256 sibling current)

def verifyProof (entry : BatchPriceEntry) (leafIndex batchSize : Nat) (siblings : List Bytes) (root : Bytes) : Outcome Bool :=
  if maxProofSiblings < siblings.length then .ok false else do
    ensure (leafIndex < batchSize) .batchIndexOutOfRange
    let current ← hashLeaf sha256 entry
    match ← verifyLoop sha256 batchSize leafIndex batchSize siblings current with
    | some current => .ok (decide (current = root))
    | none => .ok false

def nextLevel : List Bytes → List Bytes
  | left :: right :: rest => hashPair sha256 left right :: nextLevel rest
  | [left] => [left]
  | [] => []

def rootLoop : Nat → List Bytes → List Bytes
  | 0,level => level
  | fuel+1,level => if level.length = 1 then level else rootLoop fuel (nextLevel sha256 level)

def computeRoot (leaves : List Bytes) : Bytes :=
  match leaves with
  | [] => []
  | [leaf] => leaf
  | _ => (rootLoop sha256 leaves.length leaves).headD []

theorem nextLevel_exact : ∀ level, nextLevel sha256 level = pairUp (hashPair sha256) level
  | left :: right :: rest => by rw [nextLevel,pairUp,nextLevel_exact rest]
  | [left] | [] => rfl

theorem rootLoop_exact (mem : level ≠ []) : rootLoop sha256 fuel level = reduce (hashPair sha256) fuel level := by
  induction fuel generalizing level with
  | zero => rfl
  | succ _ ih =>
    have pos := length_pos_iff.mpr mem
    rw [rootLoop,reduce]
    by_cases single : level.length = 1
    · rw [if_pos single,if_pos (by omega)]
    · rw [if_neg single,if_neg (by omega),nextLevel_exact]
      refine ih (ne_nil_of_length_pos ?_)
      rw [pairUp_length]
      omega

theorem computeRoot_top (mem : leaves ≠ []) :
    (reduce (hashPair sha256) leaves.length leaves).head? = some (computeRoot sha256 leaves) := by
  match leaves with
  | [leaf] => simp [reduce,computeRoot]
  | first :: second :: rest =>
    rw [computeRoot,rootLoop_exact sha256 mem]
    · cases top : reduce (hashPair sha256) (first :: second :: rest).length (first :: second :: rest) with
      | nil => exact absurd top (reduce_nonempty (hashPair sha256) mem)
      | cons => rfl
    · simp
    · simp

theorem verifyLoop_exact (small : levelSize + 1 < 2^32) : verifyLoop sha256 fuel index levelSize siblings current =
    .ok (walk (hashPair sha256) fuel index levelSize siblings current) := by
  induction fuel generalizing index levelSize siblings current with
  | zero => rfl
  | succ _ ih =>
    have rounded : addU32 levelSize 1 = .ok (levelSize+1) := addBelow_ok.mpr ⟨small,rfl⟩
    by_cases short : levelSize ≤ 1
    · rw [walk_top _ short]
      cases siblings <;> rw [verifyLoop,if_pos short]
    · have halved : (levelSize+1)/2 + 1 < 2^32 := by omega
      by_cases promoted : index + 1 = levelSize ∧ levelSize % 2 = 1
      · have last : index = levelSize - 1 ∧ levelSize % 2 = 1 := by omega
        rw [walk_promoted _ short promoted,← ih halved]
        cases siblings <;> rw [verifyLoop,if_neg short,if_pos last,rounded] <;> rfl
      · have inner : ¬ (index = levelSize - 1 ∧ levelSize % 2 = 1) := by omega
        cases siblings with
        | nil => rw [walk_starved _ short promoted,verifyLoop,if_neg short,if_neg inner]
        | cons =>
          rw [walk_paired _ short promoted,join_placed,← ih halved,verifyLoop,if_neg short,if_neg inner,rounded]
          rfl

theorem verifyLoop_overflow (full : levelSize = 2^32 - 1)
    (supplied : walk (hashPair sha256) (fuel+1) index levelSize siblings current ≠ none) :
    verifyLoop sha256 (fuel+1) index levelSize siblings current = .error .trap := by
  have long : ¬ levelSize ≤ 1 := by omega
  have rounded : addU32 levelSize 1 = .error .trap := by
    subst full
    rfl
  by_cases last : index = levelSize - 1 ∧ levelSize % 2 = 1
  · cases siblings <;> rw [verifyLoop,if_neg long,if_pos last,rounded] <;> rfl
  · cases siblings with
    | nil => exact absurd (walk_starved _ long (by omega)) supplied
    | cons =>
      rw [verifyLoop,if_neg long,if_neg last,rounded]
      rfl

theorem verifyLoop_walks (ended : verifyLoop sha256 fuel index levelSize siblings current = .ok (some final)) :
    walk (hashPair sha256) fuel index levelSize siblings current = some final := by
  by_cases full : levelSize + 1 < 2^32
  · rw [verifyLoop_exact sha256 full] at ended
    exact ok.inj ended
  · cases fuel with
    | zero => exact ok.inj ended
    | succ =>
      have long : ¬ levelSize ≤ 1 := by omega
      have rounded : addU32 levelSize 1 = .error .trap := if_neg full
      by_cases last : index = levelSize - 1 ∧ levelSize % 2 = 1
      · cases siblings <;> rw [verifyLoop,if_neg long,if_pos last,rounded] at ended <;> cases ended
      · cases siblings with
        | nil =>
          rw [verifyLoop,if_neg long,if_neg last] at ended
          cases ended
        | cons =>
          rw [verifyLoop,if_neg long,if_neg last,rounded] at ended
          cases ended

theorem verifyProof_walk (fits : siblings.length ≤ maxProofSiblings) (inside : leafIndex < batchSize)
    (hashed : hashLeaf sha256 entry = .ok leaf) (small : batchSize + 1 < 2^32) :
    verifyProof sha256 entry leafIndex batchSize siblings root =
      .ok (decide (walk (hashPair sha256) batchSize leafIndex batchSize siblings leaf = some root)) := by
  have checked : ensure (leafIndex < batchSize) .batchIndexOutOfRange = .ok () := require_ok.mpr inside
  rw [verifyProof,if_neg (by omega),checked,hashed]
  simp only [bind,Except.bind,verifyLoop_exact sha256 small]
  cases walk (hashPair sha256) batchSize leafIndex batchSize siblings leaf <;> simp

theorem verifyProof_overflow (fits : siblings.length ≤ maxProofSiblings) (inside : leafIndex < batchSize)
    (hashed : hashLeaf sha256 entry = .ok leaf) (full : batchSize = 2^32 - 1)
    (supplied : walk (hashPair sha256) batchSize leafIndex batchSize siblings leaf ≠ none) :
    verifyProof sha256 entry leafIndex batchSize siblings root = .error .trap := by
  have checked : ensure (leafIndex < batchSize) .batchIndexOutOfRange = .ok () := require_ok.mpr inside
  obtain ⟨fuel,sized⟩ : ∃ fuel, batchSize = fuel+1 := ⟨batchSize-1,by omega⟩
  have trapped : verifyLoop sha256 batchSize leafIndex batchSize siblings leaf = .error .trap := by
    rw [sized] at supplied full ⊢
    exact verifyLoop_overflow sha256 full supplied
  rw [verifyProof,if_neg (by omega),checked,hashed]
  simp [bind,Except.bind,trapped]

theorem verifyProof_parts (ran : verifyProof sha256 entry leafIndex batchSize siblings root = .ok true) :
    leafIndex < batchSize ∧ ∃ leaf, hashLeaf sha256 entry = .ok leaf ∧
      walk (hashPair sha256) batchSize leafIndex batchSize siblings leaf = some root := by
  unfold verifyProof at ran
  split at ran
  · cases ran
  · simp only [bind_ok,require_ok] at ran
    obtain ⟨_,inside,leaf,hashed,final,ended,compared⟩ := ran
    cases final with
    | none => cases compared
    | some final =>
      have reached : final = root := by simpa using compared
      subst reached
      exact ⟨inside,leaf,hashed,verifyLoop_walks sha256 ended⟩

theorem hashLeaf_parts (hashed : hashLeaf sha256 entry = .ok leaf) : ∃ buf, leafPreimage entry = .ok buf ∧ sha256 buf = leaf := by
  simpa only [hashLeaf,bind_ok,ok.injEq] using hashed

-- The domain tags: no leaf buffer is a node buffer.
theorem leafPreimage_tag (encoded : leafPreimage entry = .ok (nodePreimage left right)) : False := by
  simp only [leafPreimage,bind_ok,ok.injEq] at encoded
  obtain ⟨_,_,_,_,same⟩ := encoded
  have tags := (cons.inj same).1
  revert tags
  decide

-- One 32-byte side fixes where a node buffer is cut, whatever the other side is.
theorem nodePreimage_split (fixed : running.length = 32) (first : q.1.length = 32) (second : q.2.length = 32)
    (same : nodePreimage (placed i running sibling).1 (placed i running sibling).2 = nodePreimage q.1 q.2) :
    placed i running sibling = q := by
  have bytes := (cons.inj same).2
  unfold placed at bytes ⊢
  split at bytes
  · rename_i even
    rw [if_pos even]
    obtain ⟨left,right⟩ := append_inj bytes (fixed.trans first.symm)
    exact ext left right
  · rename_i odd
    rw [if_neg odd]
    obtain ⟨left,right⟩ := append_inj' bytes (fixed.trans second.symm)
    exact ext left right

def Hashed (entries : List BatchPriceEntry) (leaves : List Bytes) (entry : BatchPriceEntry) (leafIndex batchSize : Nat)
    (siblings : List Bytes) (buf : Bytes) : Prop :=
  (∃ e ∈ entry :: entries, leafPreimage e = .ok buf) ∨
  (∃ q ∈ built (hashPair sha256) leaves.length leaves, nodePreimage q.1 q.2 = buf) ∨
  ∃ leaf, hashLeaf sha256 entry = .ok leaf ∧
    ∃ p ∈ walked (hashPair sha256) batchSize leafIndex batchSize siblings leaf, nodePreimage p.1 p.2 = buf

section Soundness
variable {entries : List BatchPriceEntry} {leaves siblings : List Bytes} {entry : BatchPriceEntry}
  {leafIndex batchSize : Nat} {leaf : Bytes}

section
variable (hashed : List.Forall₂ (fun e value => hashLeaf sha256 e = .ok value) entries leaves)
include hashed

theorem leaf_at {i : Nat} (got : leaves[i]? = some value) : ∃ e buf, entries[i]? = some e ∧ leafPreimage e = .ok buf ∧ sha256 buf = value := by
  induction hashed generalizing i with
  | nil => simp at got
  | @cons e first rest others encoded _ ih =>
    cases i with
    | zero =>
      cases got
      obtain ⟨buf,filled,value⟩ := hashLeaf_parts sha256 encoded
      exact ⟨e,buf,rfl,filled,value⟩
    | succ => exact ih got

theorem leaf_of (mem : value ∈ leaves) : ∃ e ∈ entries, ∃ buf, leafPreimage e = .ok buf ∧ sha256 buf = value := by
  obtain ⟨i,got⟩ := mem_iff_getElem?.mp mem
  obtain ⟨e,buf,at_i,filled,value⟩ := leaf_at sha256 hashed got
  exact ⟨e,mem_of_getElem? at_i,buf,filled,value⟩

end

section
variable (digest : ∀ buf, (sha256 buf).length = 32)
  (injective : Set.InjOn sha256 {buf | Hashed sha256 entries leaves entry leafIndex batchSize siblings buf})
  (hashed : List.Forall₂ (fun e value => hashLeaf sha256 e = .ok value) entries leaves)
  (start : hashLeaf sha256 entry = .ok leaf)
include digest injective hashed start

theorem pairs_separate : ∀ p ∈ walked (hashPair sha256) batchSize leafIndex batchSize siblings leaf,
    ∀ q ∈ built (hashPair sha256) leaves.length leaves, join (hashPair sha256) p = join (hashPair sha256) q → p = q := by
  intro p walking q building same
  have buffers : nodePreimage p.1 p.2 = nodePreimage q.1 q.2 :=
    injective (Or.inr (Or.inr ⟨leaf,start,p,walking,rfl⟩)) (Or.inr (Or.inl ⟨q,building,rfl⟩)) same
  have wide : ∀ value ∈ nodes (hashPair sha256) leaves.length leaves, value.length = 32 := by
    refine nodes_all _ ?_ (fun _ => digest _)
    intro value mem
    obtain ⟨_,_,_,_,rfl⟩ := leaf_of sha256 hashed mem
    exact digest _
  have fixed : leaf.length = 32 := by
    obtain ⟨_,_,rfl⟩ := hashLeaf_parts sha256 start
    exact digest _
  obtain ⟨left,right⟩ := built_nodes (hashPair sha256) building
  obtain ⟨i,_,_,rfl,width⟩ := walked_running (hashPair sha256) (P := fun value => value.length = 32)
    fixed (fun _ => digest _) walking
  exact nodePreimage_split width (wide _ left) (wide _ right) buffers

omit digest in
theorem pairs_interior : ∀ p ∈ walked (hashPair sha256) batchSize leafIndex batchSize siblings leaf,
    join (hashPair sha256) p ∉ leaves := by
  intro p walking mem
  obtain ⟨e,member,buf,filled,same⟩ := leaf_of sha256 hashed mem
  have buffers : buf = nodePreimage p.1 p.2 :=
    injective (Or.inl ⟨e,mem_cons_of_mem _ member,filled⟩) (Or.inr (Or.inr ⟨leaf,start,p,walking,rfl⟩)) same
  rw [buffers] at filled
  exact leafPreimage_tag filled

end

-- An accepted proof is for an entry of the batch; with the true size, for the one at its index.
theorem verify_proof_sound (digest : ∀ buf, (sha256 buf).length = 32)
    (injective : Set.InjOn sha256 {buf | Hashed sha256 entries leaves entry leafIndex batchSize siblings buf})
    (present : entries ≠ []) (hashed : List.Forall₂ (fun e value => hashLeaf sha256 e = .ok value) entries leaves)
    (accepted : verifyProof sha256 entry leafIndex batchSize siblings (computeRoot sha256 leaves) = .ok true) :
    ∃ buf, leafPreimage entry = .ok buf ∧ (∃ other ∈ entries, leafPreimage other = .ok buf) ∧
      (batchSize = entries.length → ∃ other, entries[leafIndex]? = some other ∧ leafPreimage other = .ok buf) := by
  obtain ⟨inside,_,start,reached⟩ := verifyProof_parts sha256 accepted
  obtain ⟨buf,filled,value⟩ := hashLeaf_parts sha256 start
  have here : Hashed sha256 entries leaves entry leafIndex batchSize siblings buf :=
    Or.inl ⟨entry,List.mem_cons_self,filled⟩
  have top : (reduce (hashPair sha256) leaves.length leaves).head? = some (computeRoot sha256 leaves) := by
    refine computeRoot_top sha256 (List.ne_nil_of_length_pos ?_)
    rw [← hashed.length_eq]
    exact List.length_pos_iff.mpr present
  have separate := pairs_separate sha256 digest injective hashed start
  refine ⟨buf,filled,?_,?_⟩
  · have inTree := walk_descends (hashPair sha256) separate (pairs_interior sha256 injective hashed start) reached
      (top_node _ top)
    rcases nodes_parts _ inTree with isLeaf | ⟨q,building,isPair⟩
    · obtain ⟨other,member,otherBuf,otherFilled,same⟩ := leaf_of sha256 hashed isLeaf
      have buffers : otherBuf = buf := injective (Or.inl ⟨other,List.mem_cons_of_mem _ member,otherFilled⟩) here
        (same.trans value.symm)
      exact ⟨other,member,buffers ▸ otherFilled⟩
    · have buffers : buf = nodePreimage q.1 q.2 := injective here (Or.inr (Or.inl ⟨q,building,rfl⟩)) (value.trans isPair)
      rw [buffers] at filled
      exact (leafPreimage_tag filled).elim
  · intro sized
    have lengths : batchSize = leaves.length := sized.trans hashed.length_eq
    rw [lengths] at reached separate inside
    have found : leaves[leafIndex]? = some leaves[leafIndex] := List.getElem?_eq_getElem inside
    have same := walk_position (hashPair sha256) (Nat.le_refl _) found separate top reached
    obtain ⟨other,otherBuf,at_index,otherFilled,otherValue⟩ := leaf_at sha256 hashed found
    have buffers : otherBuf = buf := injective
      (Or.inl ⟨other,List.mem_cons_of_mem _ (List.mem_of_getElem? at_index),otherFilled⟩) here
      (otherValue.trans (same.symm.trans value.symm))
    exact ⟨other,at_index,buffers ▸ otherFilled⟩

end Soundness
end

namespace Sample
def source : Address := .repeated 0x47
def entry (price : Int) : BatchPriceEntry := ⟨[0x58,0x4c,0x4d],price,7,1000,source⟩
def buffer (price : Int) : Bytes := (leafPreimage (entry price)).toOption.getD []
def leaf1 : Bytes := beBytes 32 0x4460542377cd94a11abeee62391a7cb71c32eea7800d4ca424ed3f499618a86d
def leaf2 : Bytes := beBytes 32 0x5395e2bfaeb7b94486482923e65154a3ede646a1076f9b45ecec29b29845a0b7
def leaf3 : Bytes := beBytes 32 0x6943bbb8acb6a016b80179973067c71003b6292edba5b34f582ea0bf45fbec32
def node12 : Bytes := beBytes 32 0x53675782ccc18b7e3576c374198d58027d1ca37a7a6e41bdfa204d4fc9d31d8c
def root : Bytes := beBytes 32 0x6e0cb85b10e378b724e1197c827dc22bf9f159b6975f0d3524a9a0c32105adf5

def digests : List (Bytes × Bytes) :=
  [(buffer 1,leaf1),(buffer 2,leaf2),(buffer 3,leaf3),(nodePreimage leaf1 leaf2,node12),(nodePreimage node12 leaf3,root)]

def sha256 (buf : Bytes) : Bytes := ((digests.find? (fun row => row.1 = buf)).map snd).getD (List.replicate 32 0)

theorem sha256_digest (buf : Bytes) : (sha256 buf).length = 32 := by
  unfold sha256
  cases got : digests.find? (fun row => row.1 = buf) with
  | none => simp
  | some row =>
    have wide : ∀ row ∈ digests, row.2.length = 32 := by decide +kernel
    exact wide row (mem_of_find?_eq_some got)

theorem sha256_injective : ∀ a ∈ digests.map fst, ∀ b ∈ digests.map fst, sha256 a = sha256 b → a = b := by
  decide +kernel

theorem hashed_listed (hashed : Hashed sha256 [entry 1,entry 2,entry 3] [leaf1,leaf2,leaf3] (entry 3) 2 3 [node12] buf) :
    buf ∈ digests.map fst := by
  rcases hashed with ⟨e,member,filled⟩ | ⟨q,building,rfl⟩ | ⟨leaf,start,p,walking,rfl⟩
  · have mem : ∀ e ∈ [entry 3,entry 1,entry 2,entry 3], (leafPreimage e).toOption.getD [] ∈ digests.map fst := by
      decide +kernel
    have here := mem e member
    rw [filled] at here
    exact here
  · have mem : ∀ q ∈ built (hashPair sha256) 3 [leaf1,leaf2,leaf3], nodePreimage q.1 q.2 ∈ digests.map fst := by
      decide +kernel
    exact mem q building
  · have third : leaf = leaf3 := ok.inj (start.symm.trans (by rfl))
    subst third
    have mem : ∀ p ∈ walked (hashPair sha256) 3 2 3 [node12] leaf3, nodePreimage p.1 p.2 ∈ digests.map fst := by
      decide +kernel
    exact mem p walking

end Sample

open Sample

theorem third_entry_sound :
    verifyProof sha256 (entry 3) 2 3 [node12] root = .ok true ∧
    ∃ buf, leafPreimage (entry 3) = .ok buf ∧
      (∃ other ∈ [entry 1,entry 2,entry 3], leafPreimage other = .ok buf) ∧
      (3 = [entry 1,entry 2,entry 3].length → ∃ other,
        [entry 1,entry 2,entry 3][2]? = some other ∧ leafPreimage other = .ok buf) := by
  have accepted : verifyProof sha256 (entry 3) 2 3 [node12] root = .ok true := by rfl
  have rooted : computeRoot sha256 [leaf1,leaf2,leaf3] = root := by rfl
  refine ⟨accepted,verify_proof_sound sha256 sha256_digest ?_ (by simp) ?_ (rooted ▸ accepted)⟩
  · intro a hashedA b hashedB same
    exact sha256_injective a (hashed_listed hashedA) b (hashed_listed hashedB) same
  · exact .cons rfl (.cons rfl (.cons rfl .nil))

end StellarPriceOracle.Merkle
