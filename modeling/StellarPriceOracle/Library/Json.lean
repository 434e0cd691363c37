import Mathlib.Algebra.Group.Nat.Defs
import Mathlib.Algebra.Notation.Defs
import Mathlib.Data.List.Sort
import StellarPriceOracle.Library.JsText

-- JSON values over a type of numbers, and what JavaScript's operators make of them.
inductive Json (ν : Type) where
  | null
  | bool (b : Bool)
  | num (n : ν)
  | str (s : String)
  | arr (items : List (Json ν))
  | obj (fields : List (String × Json ν))

namespace Json
variable {ν : Type}

mutual
def decEq [DecidableEq ν] (a b : Json ν) : Decidable (a = b) := by
  cases a <;> cases b <;> try (refine isFalse ?_; intro same; cases same; done)
  case null.null => exact isTrue rfl
  case bool.bool a b => exact decidable_of_iff (a = b) (by simp)
  case num.num a b => exact decidable_of_iff (a = b) (by simp)
  case str.str a b => exact decidable_of_iff (a = b) (by simp)
  case arr.arr as bs =>
    exact match decEqItems as bs with
    | isTrue same => isTrue (by rw [same])
    | isFalse apart => isFalse (by simpa using apart)
  case obj.obj as bs =>
    exact match decEqFields as bs with
    | isTrue same => isTrue (by rw [same])
    | isFalse apart => isFalse (by simpa using apart)
def decEqItems [DecidableEq ν] : (as bs : List (Json ν)) → Decidable (as = bs)
  | [],[] => isTrue rfl
  | [],_ :: _ => isFalse nofun
  | _ :: _,[] => isFalse nofun
  | a :: as,b :: bs =>
    match decEq a b,decEqItems as bs with
    | isTrue first,isTrue rest => isTrue (by rw [first,rest])
    | isFalse apart,_ => isFalse (by simp [apart])
    | _,isFalse apart => isFalse (by simp [apart])
def decEqFields [DecidableEq ν] : (as bs : List (String × Json ν)) → Decidable (as = bs)
  | [],[] => isTrue rfl
  | [],_ :: _ => isFalse nofun
  | _ :: _,[] => isFalse nofun
  | (name,a) :: as,(other,b) :: bs =>
    match instDecidableEqString name other,decEq a b,decEqFields as bs with
    | isTrue named,isTrue first,isTrue rest => isTrue (by rw [named,first,rest])
    | isFalse apart,_,_ => isFalse (by simp [apart])
    | _,isFalse apart,_ => isFalse (by simp [apart])
    | _,_,isFalse apart => isFalse (by simp [apart])
end

instance [DecidableEq ν] : DecidableEq (Json ν) := decEq

def isObject : Json ν → Bool
  | .arr _ => true
  | .obj _ => true
  | _ => false

-- `===`, `none` for undefined: no object is another one.
def same [DecidableEq ν] (a b : Option (Json ν)) : Bool := a = b ∧ ¬ a.any isObject

def orElse (fallback : Json ν) : Option (Json ν) → Json ν
  | none => fallback
  | some .null => fallback
  | some value => value

def truthy [DecidableEq ν] [Zero ν] : Json ν → Bool
  | .null => false
  | .bool b => b
  | .num n => n ≠ 0
  | .str s => s ≠ ""
  | _ => true

inductive TypeError where
  | cannotConvertObject
  deriving DecidableEq

mutual
def text [ToString ν] : Json ν → Except TypeError String
  | .null => .ok "null"
  | .bool b => .ok (toString b)
  | .num n => .ok (toString n)
  | .str s => .ok s
  | .arr items => (texts items).map (String.intercalate ",")
  | .obj fields => if fields.any (fun field => field.1 = "toString") then .error .cannotConvertObject else .ok "[object Object]"
def texts [ToString ν] : List (Json ν) → Except TypeError (List String)
  | [] => .ok []
  | .null :: rest => (texts rest).map (fun later => "" :: later)
  | item :: rest => do
    let first ← text item
    let later ← texts rest
    .ok (first :: later)
end

def plusOne [Zero ν] [One ν] [Add ν] [ToString ν] : Json ν → Except TypeError (Json ν)
  | .null => .ok (.num (0 + 1))
  | .bool b => .ok (.num ((if b then 1 else 0) + 1))
  | .num n => .ok (.num (n + 1))
  | value => value.text.map (fun s => .str (s ++ "1"))

structure Key (ν : Type) where
  value : Json ν
  place : Option Nat
  deriving DecidableEq

def key (value : Json ν) (place : Nat) : Key ν := ⟨value,if value.isObject then some place else none⟩

-- A key that an array would take as an index.
def arrayIndex (key : String) : Option Nat :=
  (CharText.leadingNat key.toList).filter (fun n => toString n = key ∧ n < 2^32 - 1)

-- Indices come by their value and before all other keys.
def rank (key : String) : Nat := (arrayIndex key).getD (2^32)

-- The fields as JavaScript lists an object's own properties; those of one rank stay as they were entered.
def ownOrder (fields : List (String × Json ν)) : List (String × Json ν) :=
  fields.insertionSort (fun a b => rank a.1 ≤ rank b.1)

theorem ownOrder_perm (fields : List (String × Json ν)) : (ownOrder fields).Perm fields := List.perm_insertionSort ..

theorem mem_ownOrder {fields : List (String × Json ν)} : f ∈ ownOrder fields ↔ f ∈ fields := (ownOrder_perm fields).mem_iff

theorem ownOrder_settled (fields : List (String × Json ν)) : ownOrder (ownOrder fields) = ownOrder fields := by
  have ranked := List.pairwise_insertionSort (fun a b : String × Json ν => rank a.1 ≤ rank b.1) fields
  exact ranked.insertionSort_eq

end Json
