import StellarPriceOracle.Library.InsertionMap
import StellarPriceOracle.Library.JsNumber

namespace StellarPriceOracle.PriceRegister

-- replication/price-crdt.ts: the register that the regions replicate.
inductive RecordSource where
  | localNode | remote
  deriving DecidableEq

structure RegionPriceRecord where
  (region asset : String)
  price : Int
  decimals : Nat
  (timestamp receivedAt : Int)
  source : RecordSource
  epoch : Int
  (traceparent tracestate : Option String)
  deriving DecidableEq

structure StaleEpochRejection where
  (region asset : String)
  (recordEpoch currentEpoch timestamp : Int)

structure LwwPriceRegister where
  values : InsertionMap String RegionPriceRecord
  (epochs localEpochs : InsertionMap String Int)
  rejectedStaleEpochs : Nat
  lastRejection : Option StaleEpochRejection

def LwwPriceRegister.new : LwwPriceRegister := ⟨.empty,.empty,.empty,0,none⟩

inductive MergeAnswer where
  | rejected | applied | kept
  deriving DecidableEq

def keyFor (region asset : String) : String := region ++ ":" ++ asset

def keyOf (record : RegionPriceRecord) : String := keyFor record.region record.asset

section
variable (r : LwwPriceRegister)

def epochFor (region : String) : Int := (r.epochs.get region).getD 0

def currentEpoch (region : String) : Int :=
  max ((r.localEpochs.get region).getD 0) ((r.epochs.get region).getD 0)

def accept (record : RegionPriceRecord) : MergeAnswer × LwwPriceRegister :=
  match r.values.get (keyOf record) with
  | none => (.applied,{r with values := r.values.set (keyOf record) record})
  | some current =>
    if record.timestamp > current.timestamp then (.applied,{r with values := r.values.set (keyOf record) record})
    else (.kept,r)

end

-- `now` is the clock the rejection is stamped with.
def merge (now : Int) (r : LwwPriceRegister) (record : RegionPriceRecord) : MergeAnswer × LwwPriceRegister :=
  let current := epochFor r record.region
  if record.epoch < current then
    (.rejected,{r with
      rejectedStaleEpochs := r.rejectedStaleEpochs + 1
      lastRejection := some ⟨record.region,record.asset,record.epoch,current,now⟩})
  else if record.epoch > current then accept {r with epochs := r.epochs.set record.region record.epoch} record
  else accept r record

section
variable (r : LwwPriceRegister)

def restoreEpoch (region : String) (persisted : Int) : LwwPriceRegister :=
  if persisted > currentEpoch r region then
    {r with localEpochs := r.localEpochs.set region persisted, epochs := r.epochs.set region persisted}
  else r

def nextEpoch (region : String) (proposed : Option Int) : Int :=
  let floor := currentEpoch r region
  match proposed with
  | some proposed => max proposed (Double.addInt floor 1)
  | none => Double.addInt floor 1

def storeEpoch (region : String) (next : Int) : LwwPriceRegister :=
  {r with localEpochs := r.localEpochs.set region next, epochs := r.epochs.set region next}

def byAsset (asset : String) : List RegionPriceRecord :=
  r.values.values.filter (fun record => record.asset = asset)

def later (winner record : RegionPriceRecord) : RegionPriceRecord :=
  if record.timestamp > winner.timestamp then record else winner

def latest (asset : String) : Option RegionPriceRecord :=
  match byAsset r asset with
  | [] => none
  | first :: rest => some (rest.foldl later first)

end

theorem accept_epochs : (accept r record).2.epochs = r.epochs := by
  unfold accept
  split
  · rfl
  · split <;> rfl

theorem accept_localEpochs : (accept r record).2.localEpochs = r.localEpochs := by
  unfold accept
  split
  · rfl
  · split <;> rfl

def Newer (r : LwwPriceRegister) (record : RegionPriceRecord) : Prop :=
  ∀ current ∈ r.values.get (keyOf record), current.timestamp < record.timestamp

theorem accept_newer (newer : Newer r record) : (accept r record).2.values = r.values.set (keyOf record) record := by
  unfold accept
  split
  · rfl
  · rename_i current held
    rw [if_pos (newer current held)]

theorem accept_older (older : ¬ Newer r record) : (accept r record).2.values = r.values := by
  unfold accept
  split
  · rename_i held
    exact absurd (by simp [Newer,held]) older
  · rename_i _ held
    split
    · rename_i newer
      exact absurd (by simpa [Newer,held] using newer) older
    · rfl

theorem merge_stale (stale : record.epoch < epochFor r record.region) : (merge now r record).2.values = r.values := by
  simp [merge,if_pos stale]

theorem merge_newer (fresh : epochFor r record.region ≤ record.epoch) (newer : Newer r record) :
    (merge now r record).2.values = r.values.set (keyOf record) record := by
  simp only [merge,if_neg (Int.not_lt.mpr fresh)]
  split
  · exact accept_newer (r := {r with epochs := r.epochs.set record.region record.epoch}) newer
  · exact accept_newer newer

theorem merge_older (older : ¬ Newer r record) : (merge now r record).2.values = r.values := by
  simp only [merge]
  split
  · rfl
  · split
    · exact accept_older (r := {r with epochs := r.epochs.set record.region record.epoch}) older
    · exact accept_older older

theorem merge_cases : (epochFor r record.region ≤ record.epoch ∧ Newer r record ∧
      (merge now r record).2.values = r.values.set (keyOf record) record) ∨
    ((record.epoch < epochFor r record.region ∨ ¬ Newer r record) ∧ (merge now r record).2.values = r.values) := by
  by_cases stale : record.epoch < epochFor r record.region
  · exact .inr ⟨.inl stale,merge_stale stale⟩
  · have fresh := Int.not_lt.mp stale
    by_cases newer : Newer r record
    · exact .inl ⟨fresh,newer,merge_newer fresh newer⟩
    · exact .inr ⟨.inr newer,merge_older newer⟩

theorem merge_localEpochs : (merge now r record).2.localEpochs = r.localEpochs := by
  simp only [merge]
  split
  · rfl
  · split <;> exact accept_localEpochs

theorem merge_epochFor : epochFor (merge now r record).2 region =
    if record.region = region then max (epochFor r region) record.epoch else epochFor r region := by
  simp only [merge]
  rcases eq_or_ne record.region region with rfl | here
  · rw [if_pos rfl]
    split
    · rename_i stale
      rw [Int.max_eq_left (Int.le_of_lt stale)]
      rfl
    · rename_i fresh
      have fresh := Int.not_lt.mp fresh
      rw [Int.max_eq_right fresh]
      split
      · simp [epochFor,accept_epochs]
      · rename_i level
        have level := Int.le_antisymm (Int.not_lt.mp level) fresh
        simp only [epochFor,accept_epochs] at level ⊢
        exact level.symm
  · rw [if_neg here]
    split
    · rfl
    · split
      · simp [epochFor,accept_epochs,InsertionMap.get_set_ne (Ne.symm here)]
      · simp [epochFor,accept_epochs]

end StellarPriceOracle.PriceRegister
