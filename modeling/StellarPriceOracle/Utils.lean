import StellarPriceOracle.Storage
import StellarPriceOracle.Library.BoundedLog

namespace StellarPriceOracle.Utils
open Storage
open List hiding count

def reputationAccuracyThresholdBps : Nat := 2000
def u32Max : Nat := 2^32 - 1
def u128Max : Nat := 2^128 - 1

def pushAt (history : List PriceDataPoint) (keep : PriceDataPoint → Bool) (result : List PriceDataPoint) (i : Nat) : List PriceDataPoint :=
  match history[i]? with
  | some point => if keep point then result ++ [point] else result
  | none => result

theorem pushAt_getElem (inside : i < history.length) : pushAt history keep result i = if keep history[i] then result ++ [history[i]] else result := by
  simp [pushAt,getElem?_eq_getElem inside]

theorem pushAt_loop (keep : PriceDataPoint → Bool) (start : Nat) :
    (range' start (history.length - start)).foldl (pushAt history keep) r = r ++ (history.drop start).filter keep := by
  induction count : history.length - start generalizing start r with
  | zero => simp [drop_eq_nil_of_le (Nat.sub_eq_zero_iff_le.mp count)]
  | succ n ih =>
    have inside : start < history.length := by omega
    rw [range'_succ,foldl_cons,ih (start + 1) (by omega),pushAt_getElem inside,drop_eq_getElem_cons inside,filter_cons]
    split <;> simp

-- A Vec of the host has no remove: the oldest entry goes by copying the others.
def shifted (history : List PriceDataPoint) : List PriceDataPoint :=
  (range' 1 (history.length - 1)).foldl (pushAt history (fun _ => true)) []

theorem shifted_tail : shifted history = history.tail := by simp [shifted,pushAt_loop]

def appendHistory (s : Storage) (asset : Str) (point : PriceDataPoint) : Storage :=
  let history := getPriceHistory s asset
  if maxHistoryLen ≤ history.length then
    setPriceHistory s asset (shifted history ++ [point])
  else setPriceHistory s asset (history ++ [point])

@[simp] theorem appendHistory_self : (appendHistory s asset point).get (.priceHistory asset) =
    some (BoundedLog.push maxHistoryLen (getPriceHistory s asset) point) := by
  simp only [appendHistory,shifted_tail,BoundedLog.push,setPriceHistory]
  split <;> simp

@[simp] theorem appendHistory_get (other : k ≠ .priceHistory asset) : (appendHistory s asset point).get k = s.get k := by
  simp only [appendHistory,setPriceHistory]
  split <;> simp [other]

-- The two saturating operations are the only places that differ from exact arithmetic.
def deviationExceeds (newPrice prevPrice : Int) (thresholdBps : Nat) : Bool :=
  if prevPrice = 0 then false else
  let prevAbs := prevPrice.natAbs
  let newAbs := newPrice.natAbs
  let diff :=
    if decide (0 ≤ newPrice) = decide (0 ≤ prevPrice) then
      if prevAbs ≤ newAbs then newAbs - prevAbs else prevAbs - newAbs
    else min (newAbs + prevAbs) u128Max
  let deviationBps := min (diff * 10000) u128Max / prevAbs
  decide (thresholdBps < deviationBps)

def updateReputation (s : Storage) (source : Address) (newPrice : Int) (asset : Str) (timestamp : Nat) : Storage :=
  let isAccurate := match getLatestPrice s asset with
    | none => true
    | some prev => !deviationExceeds newPrice prev.price reputationAccuracyThresholdBps
  let rep := (getSourceReputation s source).getD ⟨10000,0,0,timestamp⟩
  let total := min (rep.totalSubmissions + 1) u32Max
  let accurate := if isAccurate then min (rep.accurateSubmissions + 1) u32Max else rep.accurateSubmissions
  let score := if total = 0 then 10000 else min (accurate * 10000) u32Max / total
  setSourceReputation s source ⟨score,total,accurate,timestamp⟩

@[simp] theorem updateReputation_get (ne : k ≠ .sourceReputation source) :
    (updateReputation s source price asset timestamp).get k = s.get k := by
  simp [updateReputation,setSourceReputation,ne]

def vecContainsAddress (accounts : List Address) (target : Address) : Bool := accounts.contains target

@[simp] theorem vecContainsAddress_iff : vecContainsAddress accounts target = true ↔ target ∈ accounts := by
  simp [vecContainsAddress]

end StellarPriceOracle.Utils
