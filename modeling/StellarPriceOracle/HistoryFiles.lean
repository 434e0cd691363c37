import Mathlib.Logic.Function.Basic

namespace StellarPriceOracle.HistoryFiles

-- persistence/history.ts. A history file is given by what reading it yields; reads and writes are atomic.
structure HistoricalPriceEntry where
  price : String
  decimals : Nat
  source : String
  timestamp : Int
  deriving DecidableEq

inductive HistoryFailureReason where
  | unreadable | undecryptable | malformed
  deriving DecidableEq

inductive HistoryFileStatus where
  | absent
  | empty
  | ok (entries : List HistoricalPriceEntry)
  | unreadable (reason : HistoryFailureReason)

abbrev DataDir := String → HistoryFileStatus

structure HistoryConfig where
  maxEntries : Nat
  retentionSeconds : Int

def HistoryFileStatus.entries : HistoryFileStatus → List HistoricalPriceEntry
  | .ok entries => entries
  | _ => []

def readHistoryFile : HistoryFileStatus → Except HistoryFailureReason (List HistoricalPriceEntry)
  | .unreadable reason => .error reason
  | status => .ok status.entries

def pruneHistory (config : HistoryConfig) (now : Int) (history : List HistoricalPriceEntry) : List HistoricalPriceEntry :=
  let pruned := if config.retentionSeconds > 0 then
      history.filter (fun h => h.timestamp ≥ now - config.retentionSeconds)
    else history
  if config.maxEntries > 0 ∧ pruned.length > config.maxEntries then pruned.drop (pruned.length - config.maxEntries)
  else pruned

def appendTo (dir : DataDir) (asset : String) (entry : HistoricalPriceEntry) : List HistoricalPriceEntry :=
  (dir asset).entries ++ [entry]

-- The asset is the one in the file's name, which is lower case.
def appendHistoricalPrice (config : HistoryConfig) (now : Int) (dir : DataDir) (asset : String)
    (entry : HistoricalPriceEntry) : DataDir :=
  Function.update dir asset (.ok (pruneHistory config now (appendTo dir asset entry)))

theorem readHistoryFile_ok (read : readHistoryFile status = .ok history) : history = status.entries := by
  cases status with
  | absent | empty | ok entries => exact (Except.ok.inj read).symm
  | unreadable => cases read

end StellarPriceOracle.HistoryFiles
