import Mathlib.Algebra.GroupWithZero.Nat
import StellarPriceOracle.Library.InsertionMap
import StellarPriceOracle.Library.JsArray
import StellarPriceOracle.Library.Runs

namespace StellarPriceOracle.WsReplay
open Runs (loop loop_carries)
open InsertionMap (get_set_ne get_remove first_held values_set_fresh get_set length_remove_held values length_set_fresh length_set_held)
open List hiding count

-- api/src/infrastructure/ws-replay.ts.
structure BufferedMessage (α : Type) where
  sequenceId : Nat
  asset : String
  timestamp : Nat
  data : α
  deriving DecidableEq

structure ReplayBounds where
  (maxMessages maxBytes : Nat)

structure ReplayScope where
  feeds : Option (List String)
  operations : List String
  environment : String
  expiresAt : Option Nat

def isAssetPermitted (scope : ReplayScope) (asset : String) : Bool := scope.feeds.all (fun feeds => asset ∈ feeds)

structure ReplayWindow (α : Type) where
  messages : List (BufferedMessage α)
  truncated : Bool
  (remaining bytes : Nat)

structure ReplayBuffer (α : Type) where
  (maxAssets messagesPerAsset maxBytes : Nat)
  buffers : InsertionMap String (List (BufferedMessage α))
  (totalBytes totalMessages : Nat)

structure ReplayRateLimiter where
  maxRequests : Nat
  windowMs : Int
  hits : InsertionMap String (List Int)

def ReplayRateLimiter.recent (limiter : ReplayRateLimiter) (key : String) (now : Int) : List Int :=
  ((limiter.hits.get key).getD []).filter (fun t => decide (now - t < limiter.windowMs))

def ReplayRateLimiter.allow (limiter : ReplayRateLimiter) (key : String) (now : Int) : Bool × ReplayRateLimiter :=
  if (limiter.recent key now).length ≥ limiter.maxRequests then
    (false,{limiter with hits := limiter.hits.set key (limiter.recent key now)})
  else (true,{limiter with hits := limiter.hits.set key (limiter.recent key now ++ [now])})

section
variable {α : Type} (size : α → Nat)

-- `size` is the length of the data's JSON text.
def messageBytes (message : BufferedMessage α) : Nat := size message.data + 64

def weigh (messages : List (BufferedMessage α)) : Nat := (messages.map (messageBytes size)).sum

def fillWindow (bounds : ReplayBounds) (count bytes : Nat) : List (BufferedMessage α) → List (BufferedMessage α)
  | [] => []
  | entry :: rest =>
    if count ≥ bounds.maxMessages then []
    else if bytes + messageBytes size entry > bounds.maxBytes ∧ count > 0 then []
    else entry :: fillWindow bounds (count + 1) (bytes + messageBytes size entry) rest

def candidates (sources : List (List (BufferedMessage α))) (lastSequenceId : Nat) (scope : Option ReplayScope) : List (BufferedMessage α) :=
  sources.flatten.filter (fun entry => lastSequenceId < entry.sequenceId && scope.all (fun scope => isAssetPermitted scope entry.asset))

def bySequence (l : List (BufferedMessage α)) : List (BufferedMessage α) :=
  JsArray.sortBy (fun a b => decide (a.sequenceId ≤ b.sequenceId)) l

def collectReplayWindow (sources : List (List (BufferedMessage α))) (lastSequenceId : Nat) (bounds : ReplayBounds) (scope : Option ReplayScope) :
    ReplayWindow α :=
  let sorted := bySequence (candidates sources lastSequenceId scope)
  let messages := fillWindow size bounds 0 0 sorted
  let remaining := sorted.length - messages.length
  ⟨messages,remaining > 0,remaining,weigh size messages⟩

namespace ReplayBuffer

def create (maxAssets messagesPerAsset maxBytes : Nat) : ReplayBuffer α := ⟨maxAssets,messagesPerAsset,maxBytes,.empty,0,0⟩

section
variable (b : ReplayBuffer α)

@[simp] def held (asset : String) : List (BufferedMessage α) := (b.buffers.get asset).getD []

def dropOldest (asset : String) : ReplayBuffer α :=
  match b.buffers.get asset with
  | some (dropped :: rest) =>
    {b with
      buffers := b.buffers.set asset rest
      totalMessages := b.totalMessages - 1
      totalBytes := b.totalBytes - messageBytes size dropped}
  | _ => b

def evictOldestAsset : ReplayBuffer α :=
  match b.buffers.first with
  | none => b
  | some oldest =>
    {b with
      buffers := b.buffers.remove oldest
      totalMessages := b.totalMessages - (b.held oldest).length
      totalBytes := b.totalBytes - weigh size (b.held oldest)}

def discardEmpty (asset : String) : ReplayBuffer α :=
  match b.buffers.get asset with
  | some [] => {b with buffers := b.buffers.remove asset}
  | _ => b

def dropOldestFromOldestAsset : ReplayBuffer α :=
  match b.buffers.first with
  | none => b
  | some oldest => (b.dropOldest size oldest).discardEmpty oldest

def makeRoom (asset : String) : ReplayBuffer α :=
  match b.buffers.get asset with
  | some existing => {b with buffers := (b.buffers.remove asset).set asset existing}
  | none =>
    let b := if b.buffers.entries.length ≥ b.maxAssets then b.evictOldestAsset size else b
    {b with buffers := b.buffers.set asset []}

def enter (asset : String) (entry : BufferedMessage α) : ReplayBuffer α :=
  {b with
    buffers := b.buffers.set asset (b.held asset ++ [entry])
    totalMessages := b.totalMessages + 1
    totalBytes := b.totalBytes + messageBytes size entry}

end

def crowded (asset : String) (b : ReplayBuffer α) : Bool := (b.held asset).length > b.messagesPerAsset

section
variable (b : ReplayBuffer α)

def heavy : Bool := b.totalBytes > b.maxBytes && b.totalMessages > 0

-- Each turn of the second loop drops a message or an empty buffer.
def push (asset : String) (entry : BufferedMessage α) : ReplayBuffer α :=
  let b := (b.makeRoom size asset).enter size asset entry
  let b := loop (crowded asset) (fun b => b.dropOldest size asset) (b.held asset).length b
  loop heavy (fun b => b.dropOldestFromOldestAsset size) (b.totalMessages + b.buffers.entries.length) b

def sources (assets : Option (List String)) (scope : Option ReplayScope) : List (List (BufferedMessage α)) :=
  match assets with
  | none =>
    match scope with
    | none => b.buffers.values
    | some scope => b.buffers.values.map (fun buffer => buffer.filter (fun entry => isAssetPermitted scope entry.asset))
  | some assets => (assets.filter (fun asset => scope.all (fun scope => isAssetPermitted scope asset))).map b.held

@[simp] def oldest : List (List (BufferedMessage α)) → Option Nat → Option Nat
  | [],found => found
  | [] :: rest,found => oldest rest found
  | (entry :: _) :: rest,found => oldest rest (if found.all (fun n => entry.sequenceId < n) then some entry.sequenceId else found)

def oldestSequence (assets : Option (List String)) : Option Nat :=
  match assets with
  | none => oldest b.buffers.values none
  | some assets => oldest (assets.map b.held) none

end

end ReplayBuffer
end

section
variable {α : Type} {b : ReplayBuffer α}

@[simp] theorem weigh_nil : weigh size [] = 0 := rfl

@[simp] theorem weigh_cons : weigh size (entry :: rest) = messageBytes size entry + weigh size rest := by
  simp [weigh]

@[simp] theorem weigh_append : weigh size (first ++ second) = weigh size first + weigh size second := by
  simp [weigh]

namespace ReplayBuffer

-- Only the oldest messages go.
def Shrinks (before after : ReplayBuffer α) : Prop := ∀ asset, after.held asset <:+ before.held asset

theorem Shrinks.refl (b : ReplayBuffer α) : Shrinks b b := fun _ => suffix_rfl

theorem Shrinks.trans (a b c : ReplayBuffer α) (first : Shrinks a b) (second : Shrinks b c) : Shrinks a c :=
  fun asset => (second asset).trans (first asset)

theorem dropOldest_shrinks (b : ReplayBuffer α) : Shrinks b (b.dropOldest size asset) := by
  intro other
  unfold dropOldest
  split
  · rename_i _ _ got
    rcases eq_or_ne other asset with rfl | here
    · simp [got]
    · simp [get_set_ne here]
  · exact suffix_rfl

theorem remove_shrinks : Shrinks b {b with buffers := b.buffers.remove asset,totalMessages := n,totalBytes := m} := by
  intro _
  simp only [held,get_remove]
  split
  · exact nil_suffix
  · exact suffix_rfl

theorem evictOldestAsset_shrinks : Shrinks b (b.evictOldestAsset size) := by
  unfold evictOldestAsset
  split
  · exact .refl b
  · exact remove_shrinks

theorem discardEmpty_shrinks : Shrinks b (b.discardEmpty asset) := by
  unfold discardEmpty
  split
  · exact remove_shrinks
  · exact .refl b

theorem dropOldestFromOldestAsset_shrinks (b : ReplayBuffer α) : Shrinks b (b.dropOldestFromOldestAsset size) := by
  unfold dropOldestFromOldestAsset
  split
  · exact .refl b
  · exact (dropOldest_shrinks b).trans _ _ _ discardEmpty_shrinks

theorem makeRoom_shrinks : Shrinks b (b.makeRoom size asset) := by
  intro other
  unfold makeRoom
  split
  · rename_i _ got
    rcases eq_or_ne other asset with rfl | here
    · simp [got]
    · simp [get_set_ne here,get_remove,here]
  · rcases eq_or_ne other asset with rfl | here
    · simp
    · simp only [held,get_set_ne here]
      split
      · exact evictOldestAsset_shrinks other
      · exact suffix_rfl

theorem enter_held : (b.enter size asset entry).held other = if other = asset then b.held other ++ [entry] else b.held other := by
  unfold enter
  rcases eq_or_ne other asset with rfl | here
  · simp
  · simp [get_set_ne here,here]

theorem trim_shrinks (b : ReplayBuffer α) (n : Nat) : Shrinks b (loop (crowded asset) (fun b => b.dropOldest size asset) n b) :=
  loop_carries n Shrinks.refl Shrinks.trans dropOldest_shrinks

theorem lighten_shrinks (b : ReplayBuffer α) (n : Nat) : Shrinks b (loop heavy (fun b => b.dropOldestFromOldestAsset size) n b) :=
  loop_carries n Shrinks.refl Shrinks.trans dropOldestFromOldestAsset_shrinks

theorem push_held : (b.push size asset entry).held other <:+ if other = asset then b.held other ++ [entry] else b.held other := by
  refine ((trim_shrinks _ _).trans _ _ _ (lighten_shrinks _ _) other).trans ?_
  rw [enter_held]
  split
  · obtain ⟨lost,whole⟩ : (b.makeRoom size asset).held other <:+ b.held other := makeRoom_shrinks other
    exact ⟨lost,by rw [← append_assoc,whole]⟩
  · exact makeRoom_shrinks other

structure Consistent (size : α → Nat) (b : ReplayBuffer α) : Prop where
  messages : b.totalMessages = (b.buffers.values.map length).sum
  bytes : b.totalBytes = (b.buffers.values.map (weigh size)).sum

section
variable {size : α → Nat} (consistent : Consistent size b)
include consistent

theorem Consistent.replace (new : List (BufferedMessage α)) (got : b.buffers.get asset = some old) :
    ((b.buffers.set asset new).values.map length).sum + old.length = b.totalMessages + new.length ∧
      ((b.buffers.set asset new).values.map (weigh size)).sum + weigh size old = b.totalBytes + weigh size new := by
  obtain ⟨_,_,whole,changed⟩ := b.buffers.values_set_held new got
  rw [consistent.messages,consistent.bytes,whole,changed]
  simp only [map_append,map_cons,sum_append,sum_cons]
  omega

theorem Consistent.removed (got : b.buffers.get asset = some old) :
    ((b.buffers.remove asset).values.map length).sum + old.length = b.totalMessages ∧
      ((b.buffers.remove asset).values.map (weigh size)).sum + weigh size old = b.totalBytes := by
  obtain ⟨_,_,whole,rest⟩ := InsertionMap.values_remove got
  rw [consistent.messages,consistent.bytes,whole,rest]
  simp only [map_append,map_cons,sum_append,sum_cons]
  omega

theorem dropOldest_consistent : Consistent size (b.dropOldest size asset) := by
  unfold dropOldest
  split
  · rename_i _ rest got
    obtain ⟨messages,bytes⟩ := consistent.replace rest got
    rw [length_cons] at messages
    rw [weigh_cons] at bytes
    constructor <;> dsimp only <;> omega
  · exact consistent

theorem evictOldestAsset_consistent : Consistent size (b.evictOldestAsset size) := by
  unfold evictOldestAsset
  split
  · exact consistent
  · rename_i _ leads
    obtain ⟨_,got⟩ := first_held leads
    obtain ⟨_,_⟩ := consistent.removed got
    constructor <;> simp only [held,got,Option.getD_some] <;> omega

theorem discardEmpty_consistent : Consistent size (b.discardEmpty asset) := by
  unfold discardEmpty
  split
  · rename_i got
    obtain ⟨messages,bytes⟩ := consistent.removed got
    exact ⟨messages.symm,bytes.symm⟩
  · exact consistent

theorem dropOldestFromOldestAsset_consistent : Consistent size (b.dropOldestFromOldestAsset size) := by
  unfold dropOldestFromOldestAsset
  split
  · exact consistent
  · exact discardEmpty_consistent (dropOldest_consistent consistent)

theorem Consistent.fresh (absent : b.buffers.get asset = none) : Consistent size {b with buffers := b.buffers.set asset []} := by
  constructor
  · simp [values_set_fresh absent,consistent.messages]
  · simp [values_set_fresh absent,consistent.bytes]

end

theorem evictOldestAsset_absent (absent : b.buffers.get asset = none) : (b.evictOldestAsset size).buffers.get asset = none := by
  unfold evictOldestAsset
  split
  · exact absent
  · rw [get_remove]
    split
    · rfl
    · exact absent

theorem makeRoom_consistent (consistent : Consistent size b) : Consistent size (b.makeRoom size asset) := by
  unfold makeRoom
  split
  · rename_i _ got
    obtain ⟨messages,bytes⟩ := consistent.removed got
    have gone : (b.buffers.remove asset).get asset = none := by simp [get_remove]
    constructor
    · simp [values_set_fresh gone,← messages]
    · simp [values_set_fresh gone,← bytes]
  · rename_i absent
    split
    · exact (evictOldestAsset_consistent consistent).fresh (evictOldestAsset_absent absent)
    · exact consistent.fresh absent

theorem makeRoom_present : ∃ old, (b.makeRoom size asset).buffers.get asset = some old := by
  unfold makeRoom
  split <;> exact ⟨_,get_set⟩

theorem enter_consistent (consistent : Consistent size b) (got : b.buffers.get asset = some old) :
    Consistent size (b.enter size asset entry) := by
  have same : b.held asset = old := by rw [held,got,Option.getD_some]
  obtain ⟨messages,bytes⟩ := consistent.replace (old ++ [entry]) got
  rw [length_append,length_singleton] at messages
  rw [weigh_append,weigh_cons,weigh_nil] at bytes
  constructor <;> simp only [enter,same] <;> omega

theorem loop_consistent (consistent : Consistent size b)
    (each : ∀ b, Consistent size b → Consistent size (body b)) (n : Nat) : Consistent size (loop goes body n b) :=
  loop_carries (R := fun a c => Consistent size a → Consistent size c) n (fun _ given => given)
    (fun _ _ _ first second given => second (first given)) each consistent

theorem discardEmpty_length : (b.discardEmpty asset).buffers.entries.length ≤ b.buffers.entries.length := by
  unfold discardEmpty
  split
  · rename_i got
    exact Nat.le_of_lt (length_remove_held got)
  · exact Nat.le_refl _

theorem discardEmpty_total : (b.discardEmpty asset).totalMessages = b.totalMessages := by
  unfold discardEmpty
  split <;> rfl

def burden (b : ReplayBuffer α) : Nat := b.totalMessages + b.buffers.entries.length

-- A turn of the loop over the whole buffer leaves fewer messages, or fewer assets.
theorem dropOldestFromOldestAsset_falls (consistent : Consistent size b) (filled : b.totalMessages > 0) :
    (b.dropOldestFromOldestAsset size).burden < b.burden := by
  unfold dropOldestFromOldestAsset
  split
  · rename_i none
    have empty : b.buffers.values = [] := by
      rw [InsertionMap.first,Option.map_eq_none_iff,head?_eq_none_iff] at none
      rw [values,none,map_nil]
    rw [consistent.messages,empty] at filled
    cases filled
  · rename_i oldest leads
    obtain ⟨buffer,got⟩ := first_held leads
    cases buffer with
    | nil =>
      have same : b.dropOldest size oldest = b := by simp [dropOldest,got]
      have less := length_remove_held got
      rw [same]
      simp only [burden,discardEmpty,got]
      omega
    | cons =>
      have fewer : (b.dropOldest size oldest).totalMessages = b.totalMessages - 1 := by simp [dropOldest,got]
      have same : (b.dropOldest size oldest).buffers.entries.length = b.buffers.entries.length := by
        simp only [dropOldest,got]
        exact length_set_held got
      have length : ((b.dropOldest size oldest).discardEmpty oldest).buffers.entries.length ≤ _ := discardEmpty_length
      rw [burden,discardEmpty_total,burden]
      omega

-- Both loops of `push` end by their conditions.
theorem trim_stops : crowded asset (loop (crowded asset) (fun b => b.dropOldest size asset) (b.held asset).length b) = false := by
  apply Runs.loop_stops (P := fun _ => True) (fun b => (b.held asset).length) trivial
  · intro b _ on
    refine ⟨trivial,?_⟩
    simp only [crowded,decide_eq_true_eq] at on
    cases got : b.buffers.get asset with
    | none => simp [got] at on
    | some buffer =>
      cases buffer with
      | nil => simp [got] at on
      | cons => simp [dropOldest,got]
  · exact Nat.le_refl _

theorem push_settles (consistent : Consistent size b) :
    Consistent size (b.push size asset entry) ∧ heavy (b.push size asset entry) = false := by
  obtain ⟨old,mem⟩ : ∃ old, (b.makeRoom size asset).buffers.get asset = some old := makeRoom_present
  have entered : Consistent size ((b.makeRoom size asset).enter size asset entry) := enter_consistent (makeRoom_consistent consistent) mem
  have trimmed : Consistent size (loop (crowded asset) (fun b => b.dropOldest size asset) _ _) :=
    loop_consistent entered (fun _ held => dropOldest_consistent held) (((b.makeRoom size asset).enter size asset entry).held asset).length
  refine ⟨loop_consistent trimmed (fun _ => dropOldestFromOldestAsset_consistent) _,?_⟩
  apply Runs.loop_stops burden trimmed
  · intro b valid on
    simp only [heavy,Bool.and_eq_true,decide_eq_true_eq] at on
    exact ⟨dropOldestFromOldestAsset_consistent valid,dropOldestFromOldestAsset_falls valid on.2⟩
  · exact Nat.le_refl _

def caps (b : ReplayBuffer α) : Nat × Nat × Nat := (b.maxAssets,b.messagesPerAsset,b.maxBytes)

def Narrows (before after : ReplayBuffer α) : Prop :=
  after.caps = before.caps ∧ after.buffers.entries.length ≤ before.buffers.entries.length

theorem Narrows.refl (b : ReplayBuffer α) : Narrows b b := ⟨rfl,Nat.le_refl _⟩

theorem Narrows.trans (a b c : ReplayBuffer α) (first : Narrows a b) (second : Narrows b c) : Narrows a c :=
  ⟨second.1.trans first.1,Nat.le_trans second.2 first.2⟩

theorem dropOldest_narrows (b : ReplayBuffer α) : Narrows b (b.dropOldest size asset) := by
  unfold dropOldest
  split
  · rename_i got
    exact ⟨rfl,Nat.le_of_eq (length_set_held got)⟩
  · exact .refl b

theorem discardEmpty_narrows : Narrows b (b.discardEmpty asset) := by
  refine ⟨?_,discardEmpty_length⟩
  unfold discardEmpty
  split <;> rfl

theorem dropOldestFromOldestAsset_narrows (b : ReplayBuffer α) : Narrows b (b.dropOldestFromOldestAsset size) := by
  unfold dropOldestFromOldestAsset
  split
  · exact .refl b
  · exact (dropOldest_narrows b).trans _ _ _ discardEmpty_narrows

theorem evictOldestAsset_narrows (size : α → Nat) (filled : 0 < b.buffers.entries.length) :
    (b.evictOldestAsset size).caps = b.caps ∧ (b.evictOldestAsset size).buffers.entries.length < b.buffers.entries.length := by
  unfold evictOldestAsset
  split
  · rename_i none
    rw [InsertionMap.first,Option.map_eq_none_iff,head?_eq_none_iff] at none
    simp [none] at filled
  · rename_i _ leads
    obtain ⟨_,got⟩ := first_held leads
    exact ⟨rfl,length_remove_held got⟩

theorem makeRoom_caps (size : α → Nat) (asset : String) (some : 1 ≤ b.maxAssets) (few : b.buffers.entries.length ≤ b.maxAssets) :
    (b.makeRoom size asset).caps = b.caps ∧ (b.makeRoom size asset).buffers.entries.length ≤ b.maxAssets := by
  unfold makeRoom
  split
  · rename_i got
    have less := length_remove_held got
    refine ⟨rfl,?_⟩
    dsimp only
    rw [length_set_fresh (by simp [get_remove])]
    omega
  · rename_i absent
    dsimp only
    split
    · rename_i full
      obtain ⟨same,less⟩ := evictOldestAsset_narrows size (b := b) (by omega)
      rw [length_set_fresh (evictOldestAsset_absent absent)]
      exact ⟨same,by omega⟩
    · rw [length_set_fresh absent]
      exact ⟨rfl,by omega⟩

theorem push_caps (size : α → Nat) (asset : String) (entry : BufferedMessage α) (some : 1 ≤ b.maxAssets)
    (few : b.buffers.entries.length ≤ b.maxAssets) :
    (b.push size asset entry).caps = b.caps ∧ (b.push size asset entry).buffers.entries.length ≤ b.maxAssets ∧
      ((b.push size asset entry).held asset).length ≤ b.messagesPerAsset := by
  obtain ⟨same,fits⟩ := makeRoom_caps size asset some few
  obtain ⟨old,got⟩ : ∃ old, (b.makeRoom size asset).buffers.get asset = .some old := makeRoom_present
  generalize whole : (b.makeRoom size asset).enter size asset entry = full
  have entered : full.caps = b.caps := by rw [← whole]; exact same
  have assets : full.buffers.entries.length ≤ b.maxAssets := by
    rw [← whole,enter,length_set_held got]
    exact fits
  have trimmed (n : Nat) : Narrows full (loop (crowded asset) (fun b => b.dropOldest size asset) n full) :=
    loop_carries n Narrows.refl Narrows.trans dropOldest_narrows
  have lightened (b : ReplayBuffer α) (n : Nat) : Narrows b (loop heavy (fun b => b.dropOldestFromOldestAsset size) n b) :=
    loop_carries n Narrows.refl Narrows.trans dropOldestFromOldestAsset_narrows
  have stops : crowded asset (loop (crowded asset) (fun b => b.dropOldest size asset) (full.held asset).length full) = false := trim_stops
  simp only [crowded,decide_eq_false_iff_not,Nat.not_lt] at stops
  have kept := (trimmed (full.held asset).length).1.trans entered
  simp only [push,whole]
  refine ⟨(lightened _ _).1.trans kept,Nat.le_trans (lightened _ _).2 (Nat.le_trans (trimmed _).2 assets),?_⟩
  exact Nat.le_trans (lighten_shrinks _ _ asset).length_le (Nat.le_trans stops (Nat.le_of_eq (congrArg (fun caps => caps.2.1) kept)))

theorem Consistent.weightless (consistent : Consistent size b) (empty : b.totalMessages = 0) : b.totalBytes = 0 := by
  rw [consistent.messages] at empty
  rw [consistent.bytes]
  revert empty
  induction b.buffers.values with
  | nil => exact fun _ => rfl
  | cons _ _ ih =>
    intro empty
    simp only [map_cons,sum_cons,Nat.add_eq_zero_iff,length_eq_zero_iff] at empty ⊢
    exact ⟨by rw [empty.1,weigh_nil],ih empty.2⟩

structure Accounted (size : α → Nat) (limits : Nat × Nat × Nat) (calls : List (String × BufferedMessage α)) (b : ReplayBuffer α) : Prop where
  caps : b.caps = limits
  totals : Consistent size b
  assets : b.buffers.entries.length ≤ b.maxAssets
  each : ∀ asset, (b.held asset).length ≤ b.messagesPerAsset
  bytes : b.totalBytes ≤ b.maxBytes
  suffix : ∀ asset, b.held asset <:+ (calls.filter (fun call => call.1 = asset)).map Prod.snd

theorem Accounted.push (some : 1 ≤ limits.1) (accounted : Accounted size limits calls b) :
    Accounted size limits (calls ++ [(asset,entry)]) (b.push size asset entry) := by
  obtain ⟨caps,totals,assets,each,_,suffix⟩ := accounted
  obtain ⟨same,few,own⟩ := push_caps size asset entry (Nat.le_trans some (Nat.le_of_eq (congrArg Prod.fst caps.symm))) assets
  obtain ⟨settled,light⟩ : Consistent size (b.push size asset entry) ∧ _ := push_settles totals
  simp only [ReplayBuffer.caps,Prod.mk.injEq] at same
  have held (other : String) : (b.push size asset entry).held other <:+ _ := push_held
  refine ⟨by rw [← caps]; simpa [ReplayBuffer.caps] using same,settled,same.1 ▸ few,fun other => ?_,?_,fun other => (held other).trans ?_⟩
  · rw [same.2.1]
    by_cases here : other = asset
    · exact here ▸ own
    · exact Nat.le_trans ((held other).length_le) (by simpa [here] using each other)
  · rw [heavy,Bool.and_eq_false_iff,decide_eq_false_iff_not,decide_eq_false_iff_not] at light
    rcases light with _ | _
    · omega
    · rw [settled.weightless (by omega)]
      exact Nat.zero_le _
  · rw [filter_append,map_append]
    by_cases here : other = asset
    · obtain ⟨lost,whole⟩ := suffix asset
      exact ⟨lost,by simp [here,← whole]⟩
    · simpa [here,Ne.symm here] using suffix other

theorem pushes_accounted {maxAssets messagesPerAsset maxBytes : Nat} (some : 1 ≤ maxAssets) (calls : List (String × BufferedMessage α)) :
    Accounted size (maxAssets,messagesPerAsset,maxBytes) calls
      (calls.foldl (fun b call => b.push size call.1 call.2) (create maxAssets messagesPerAsset maxBytes)) := by
  induction calls using reverseRecOn with
  | nil => exact ⟨rfl,⟨rfl,rfl⟩,Nat.zero_le _,fun _ => Nat.zero_le _,Nat.zero_le _,fun _ => nil_suffix⟩
  | append_singleton _ _ ih =>
    rw [foldl_append]
    exact ih.push some

theorem second_asset_evicts : ∃ b : ReplayBuffer Nat,
    Accounted id (1,2,200) [("XLM",⟨1,"XLM",0,7⟩),("BTC",⟨2,"BTC",0,9⟩)] b ∧ b.held "XLM" = [] ∧ b.totalBytes = 73 :=
  ⟨_,pushes_accounted (by decide) _,by decide⟩

end ReplayBuffer

-- A first message is sent however long it is.
def Fits (size : α → Nat) (bounds : ReplayBounds) (messages : List (BufferedMessage α)) : Prop :=
  messages.length ≤ bounds.maxMessages ∧ (messages.length ≤ 1 ∨ weigh size messages ≤ bounds.maxBytes)

theorem fillWindow_front (bounds : ReplayBounds) (count bytes : Nat) (l : List (BufferedMessage α)) :
    ∃ rest, l = fillWindow size bounds count bytes l ++ rest := by
  induction l generalizing count bytes with
  | nil => exact ⟨[],rfl⟩
  | cons entry _ ih =>
    unfold fillWindow
    split
    · exact ⟨_,rfl⟩
    · split
      · exact ⟨_,rfl⟩
      · obtain ⟨later,whole⟩ := ih (count + 1) (bytes + messageBytes size entry)
        exact ⟨later,congrArg (entry :: ·) whole⟩

theorem fillWindow_after (begun : 0 < count) :
    fillWindow size bounds count bytes l = l ↔ l = [] ∨ count + l.length ≤ bounds.maxMessages ∧ bytes + weigh size l ≤ bounds.maxBytes := by
  induction l generalizing count bytes with
  | nil => simp [fillWindow]
  | cons entry rest ih =>
    have step : fillWindow size bounds (count + 1) (bytes + messageBytes size entry) rest = rest ↔ _ := ih (Nat.succ_pos count)
    unfold fillWindow
    split
    · simp
      omega
    · split
      · simp
        omega
      · simp only [cons.injEq,true_and,step,reduceCtorEq,false_or,length_cons,weigh_cons]
        constructor
        · rintro (rfl | both)
          · simp
            omega
          · omega
        · intro _
          exact .inr (by omega)

theorem fillWindow_all : fillWindow size bounds 0 0 l = l ↔ Fits size bounds l := by
  cases l with
  | nil => simp [fillWindow,Fits]
  | cons _ rest =>
    unfold fillWindow
    split
    · simp [Fits]
      omega
    · rw [if_neg (by omega)]
      simp only [cons.injEq,true_and,Fits,length_cons,weigh_cons]
      rw [fillWindow_after (Nat.zero_lt_one)]
      cases rest with
      | nil | cons => simp; omega

theorem Fits.perm (same : first.Perm second) : Fits size bounds first ↔ Fits size bounds second := by
  rw [Fits,Fits,same.length_eq,weigh,weigh,(same.map (messageBytes size)).sum_nat]

theorem collectReplayWindow_truncated : (collectReplayWindow size sources last bounds scope).truncated = false ↔
    fillWindow size bounds 0 0 (bySequence (candidates sources last scope)) = bySequence (candidates sources last scope) := by
  obtain ⟨rest,whole⟩ : ∃ rest, bySequence (candidates sources last scope) = fillWindow size bounds 0 0 _ ++ rest := fillWindow_front ..
  have length := congrArg length whole
  rw [length_append] at length
  simp only [collectReplayWindow,decide_eq_false_iff_not]
  constructor
  · intro _
    have empty : rest = [] := length_eq_zero_iff.mp (by omega)
    rw [empty,append_nil] at whole
    exact whole.symm
  · intro all
    rw [all]
    omega

-- The window is not truncated exactly when the bounds let all candidates through.
theorem collectReplayWindow_fits :
    (collectReplayWindow size sources last bounds scope).truncated = false ↔ Fits size bounds (candidates sources last scope) := by
  rw [collectReplayWindow_truncated,fillWindow_all]
  exact Fits.perm JsArray.sortBy_perm

theorem collectReplayWindow_all (whole : (collectReplayWindow size sources last bounds scope).truncated = false) :
    m ∈ (collectReplayWindow size sources last bounds scope).messages ↔ m ∈ candidates sources last scope := by
  have same : (collectReplayWindow size sources last bounds scope).messages = bySequence (candidates sources last scope) :=
    collectReplayWindow_truncated.mp whole
  rw [same]
  exact JsArray.mem_sortBy

def Beyond (last : Nat) (buffers : List (List (BufferedMessage α))) : Prop :=
  (∃ buffer ∈ buffers, buffer ≠ []) ∧ ∀ buffer ∈ buffers, ∀ m, buffer.head? = some m → last + 1 < m.sequenceId

theorem oldest_beyond : (ReplayBuffer.oldest buffers got).any (fun n => decide (last + 1 < n)) = true ↔
      (got.isSome = true ∨ ∃ buffer ∈ buffers, buffer ≠ []) ∧ (∀ n, got = some n → last + 1 < n) ∧
        ∀ buffer ∈ buffers, ∀ m, buffer.head? = some m → last + 1 < m.sequenceId := by
  induction buffers generalizing got with
  | nil => cases got <;> simp
  | cons buffer _ ih =>
    cases buffer with
    | nil => simp [ih]
    | cons entry =>
      rw [ReplayBuffer.oldest,ih]
      cases got with
      | none => simp
      | some n =>
        by_cases less : entry.sequenceId < n
        · simp [less]
          omega
        · simp [less]
          omega

theorem oldestSequence_beyond :
    (b.oldestSequence (some assets)).any (fun n => decide (last + 1 < n)) = true ↔ Beyond last (assets.map b.held) := by
  rw [ReplayBuffer.oldestSequence,oldest_beyond]
  simp [Beyond]

end

end StellarPriceOracle.WsReplay
