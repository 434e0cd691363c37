import Mathlib.Data.List.Induction
import StellarPriceOracle.Utils

namespace StellarPriceOracle.HistoryQueries
open Storage Utils
open List hiding count

-- contract/queries.rs.
def maxHistoryLimit : Nat := maxHistoryLen

def effectiveLimit (limit : Nat) : Nat := if limit = 0 ∨ maxHistoryLimit < limit then maxHistoryLimit else limit

def getPriceHistory (s : Storage) (asset : Str) (limit : Nat) : List PriceDataPoint :=
  let effective := effectiveLimit limit
  let allHistory := Storage.getPriceHistory s asset
  let len := allHistory.length
  let start := if effective < len then len - effective else 0
  (range' start (len - start)).foldl (pushAt allHistory (fun _ => true)) []

def collectSince (history : List PriceDataPoint) (effective sinceTimestamp : Nat) : List Nat → List PriceDataPoint → List PriceDataPoint
  | [],result => result
  | i :: rest,result =>
    if effective ≤ result.length then result
    else collectSince history effective sinceTimestamp rest (pushAt history (fun point => decide (sinceTimestamp ≤ point.timestamp)) result i)

def getPriceHistorySince (s : Storage) (asset : Str) (sinceTimestamp limit : Nat) : List PriceDataPoint :=
  let allHistory := Storage.getPriceHistory s asset
  collectSince allHistory (effectiveLimit limit) sinceTimestamp (range' 0 allHistory.length) []

structure LastOf (count : Nat) (whole part : List α) : Prop where
  suffix : part <:+ whole
  length : part.length = min whole.length count

structure FirstOf (count : Nat) (whole part : List α) : Prop where
  start : part <+: whole
  length : part.length = min whole.length count

theorem lastOf_drop : LastOf count whole (whole.drop (whole.length - count)) :=
  ⟨drop_suffix _ _,by rw [length_drop]; omega⟩

theorem firstOf_take : FirstOf count whole (whole.take count) :=
  ⟨ take_prefix _ _,by rw [length_take,Nat.min_comm]⟩

theorem getPriceHistory_drop : getPriceHistory s asset limit =
    (Storage.getPriceHistory s asset).drop ((Storage.getPriceHistory s asset).length - effectiveLimit limit) := by
  have start : (if effectiveLimit limit < (Storage.getPriceHistory s asset).length then
      (Storage.getPriceHistory s asset).length - effectiveLimit limit else 0) = (Storage.getPriceHistory s asset).length - effectiveLimit limit := by
    split <;> omega
  simp [getPriceHistory,start,pushAt_loop]

theorem collectSince_loop (effective sinceTimestamp start : Nat) (room : r.length ≤ effective) :
    collectSince history effective sinceTimestamp (range' start (history.length - start)) r =
      r ++ ((history.drop start).filter (fun point => decide (sinceTimestamp ≤ point.timestamp))).take (effective - r.length) := by
  induction count : history.length - start generalizing start r with
  | zero => simp [collectSince,drop_eq_nil_of_le (Nat.sub_eq_zero_iff_le.mp count)]
  | succ n ih =>
    have inside : start < history.length := by omega
    rw [range'_succ,collectSince]
    split
    · rename_i full
      simp [Nat.sub_eq_zero_of_le full]
    · rename_i more
      rw [pushAt_getElem inside,drop_eq_getElem_cons inside,filter_cons]
      split
      · have left : effective - r.length = effective - (r ++ [history[start]]).length + 1 := by
          rw [length_append,length_singleton]
          omega
        rw [ih (start + 1) (by rw [length_append,length_singleton]; omega) (by omega),left,take_succ_cons,append_assoc]
        rfl
      · exact ih (start + 1) room (by omega)

theorem getPriceHistorySince_take : getPriceHistorySince s asset sinceTimestamp limit =
    ((Storage.getPriceHistory s asset).filter (fun point => decide (sinceTimestamp ≤ point.timestamp))).take (effectiveLimit limit) := by
  have whole : range' 0 (Storage.getPriceHistory s asset).length = range' 0 ((Storage.getPriceHistory s asset).length - 0) := rfl
  rw [getPriceHistorySince,whole,collectSince_loop _ _ _ (Nat.zero_le _)]
  simp

def appendAll (s : Storage) (calls : List (Str × PriceDataPoint)) : Storage := calls.foldl (fun s call => appendHistory s call.1 call.2) s

def appended (asset : Str) (calls : List (Str × PriceDataPoint)) : List PriceDataPoint :=
  (calls.filter (fun call => decide (call.1 = asset))).map Prod.snd

theorem appendHistory_here : Storage.getPriceHistory (appendHistory s asset point) asset =
    BoundedLog.push maxHistoryLen (Storage.getPriceHistory s asset) point := by
  simp [Storage.getPriceHistory]

theorem appendHistory_elsewhere (elsewhere : other ≠ asset) :
    Storage.getPriceHistory (appendHistory s other point) asset = Storage.getPriceHistory s asset := by
  have apart : DataKey.priceHistory asset ≠ .priceHistory other := fun same => elsewhere (DataKey.priceHistory.inj same).symm
  simp [Storage.getPriceHistory,apart]

theorem appendAll_history : Storage.getPriceHistory (appendAll .empty calls) asset =
    (appended asset calls).drop ((appended asset calls).length - maxHistoryLen) := by
  induction calls using reverseRecOn with
  | nil => rfl
  | append_singleton calls call ih =>
    have last : appendAll .empty (calls ++ [call]) = appendHistory (appendAll .empty calls) call.1 call.2 := by
      simp [appendAll]
    rw [last]
    by_cases here : call.1 = asset
    · have longer : appended asset (calls ++ [call]) = appended asset calls ++ [call.2] := by simp [appended,here]
      rw [here,appendHistory_here,ih,longer,BoundedLog.push_drop (by decide)]
    · have same : appended asset (calls ++ [call]) = appended asset calls := by simp [appended,here]
      rw [appendHistory_elsewhere here,ih,same]

-- The history is the last hundred points; the queries return its end and what is recent in it.
theorem history_last_hundred (calls : List (Str × PriceDataPoint)) (asset : Str) :
    LastOf 100 (appended asset calls) (Storage.getPriceHistory (appendAll .empty calls) asset) ∧
    (∀ other point, other = asset ∨ Storage.getPriceHistory (appendHistory (appendAll .empty calls) other point) asset =
      Storage.getPriceHistory (appendAll .empty calls) asset) ∧
    ∀ limit, LastOf (if limit = 0 ∨ 100 < limit then 100 else limit) (Storage.getPriceHistory (appendAll .empty calls) asset)
        (getPriceHistory (appendAll .empty calls) asset limit) ∧
      ∀ sinceTimestamp, FirstOf (if limit = 0 ∨ 100 < limit then 100 else limit)
        ((Storage.getPriceHistory (appendAll .empty calls) asset).filter (fun point => decide (sinceTimestamp ≤ point.timestamp)))
        (getPriceHistorySince (appendAll .empty calls) asset sinceTimestamp limit) := by
  refine ⟨?_,?_,?_⟩
  · rw [appendAll_history]
    exact lastOf_drop
  · intro other _
    by_cases here : other = asset
    · exact .inl here
    · exact .inr (appendHistory_elsewhere here)
  · intro _
    refine ⟨?_,?_⟩
    · rw [getPriceHistory_drop]
      exact lastOf_drop
    · intro _
      rw [getPriceHistorySince_take]
      exact firstOf_take

end StellarPriceOracle.HistoryQueries
