import Mathlib.Algebra.Group.Int.Defs
import Mathlib.Algebra.Group.Nat.Defs
import Mathlib.Data.Rat.Defs

-- JavaScript's numbers by their values: one zero, and results are not rounded.
inductive JsNumber where
  | nan
  | infinite (negative : Bool)
  | finite (q : ℚ)
  deriving DecidableEq

namespace JsNumber

instance : OfNat JsNumber n := ⟨.finite n⟩

instance : Inhabited JsNumber := ⟨0⟩

def lt : JsNumber → JsNumber → Bool
  | .finite a,.finite b => a < b
  | .infinite negative,.finite _ => negative
  | .finite _,.infinite negative => !negative
  | .infinite a,.infinite b => a && !b
  | _,_ => false

def le : JsNumber → JsNumber → Bool
  | .nan,_ => false
  | _,.nan => false
  | a,b => !lt b a

def same (a b : JsNumber) : Bool := a = b ∧ a ≠ .nan

def isInteger : JsNumber → Bool
  | .finite q => q.den = 1
  | _ => false

def floor : JsNumber → JsNumber
  | .finite q => .finite q.floor
  | other => other

def ceil : JsNumber → JsNumber
  | .finite q => .finite q.ceil
  | other => other

def orElse (fallback : JsNumber) : Option JsNumber → JsNumber
  | none => fallback
  | some n => if n = 0 ∨ n = .nan then fallback else n

def pred : JsNumber → JsNumber
  | .finite q => .finite (q - 1)
  | other => other

def min : JsNumber → JsNumber → JsNumber
  | .nan,_ => .nan
  | _,.nan => .nan
  | a,b => if lt b a then b else a

def max : JsNumber → JsNumber → JsNumber
  | .nan,_ => .nan
  | _,.nan => .nan
  | a,b => if lt a b then b else a

def add : JsNumber → JsNumber → JsNumber
  | .finite a,.finite b => .finite (a + b)
  | .infinite negative,.finite _ => .infinite negative
  | .finite _,.infinite negative => .infinite negative
  | .infinite a,.infinite b => if a = b then .infinite a else .nan
  | _,_ => .nan

def neg : JsNumber → JsNumber
  | .finite a => .finite (-a)
  | .infinite negative => .infinite (!negative)
  | .nan => .nan

def sub (a b : JsNumber) : JsNumber := add a (neg b)

def mul : JsNumber → JsNumber → JsNumber
  | .finite a,.finite b => .finite (a * b)
  | .infinite negative,.finite a => if a = 0 then .nan else .infinite (negative ^^ decide (a < 0))
  | .finite a,.infinite negative => if a = 0 then .nan else .infinite (negative ^^ decide (a < 0))
  | .infinite a,.infinite b => .infinite (a ^^ b)
  | _,_ => .nan

def sliceEnd (length : Nat) : JsNumber → Nat
  | .nan => 0
  | .infinite negative => if negative then 0 else length
  | .finite q =>
    let n := q.num.tdiv q.den
    if n < 0 then (length + n).toNat else Nat.min n.toNat length

def reaches (threshold : JsNumber) (n : Nat) : Bool := le threshold (.finite n)

theorem finite_zero : finite (0 : Nat) = 0 := rfl

theorem lt_irrefl (a : JsNumber) : lt a a = false := by
  cases a <;> simp [lt]

theorem finite_le (less : a ≤ b) (within : le (.finite b) limit = true) : le (.finite a) limit = true := by
  cases limit with
  | nan => cases within
  | infinite => exact within
  | finite =>
    simp only [le,lt,Bool.not_eq_true',decide_eq_false_iff_not,Rat.not_lt] at within ⊢
    exact Rat.le_trans less within

theorem reaches_zero (pos : le 1 threshold = true) : reaches threshold 0 = false := by
  cases threshold with
  | nan => cases pos
  | infinite negative =>
    cases negative with
    | true => cases pos
    | false => rfl
  | finite q =>
    have least : (1 : ℚ) ≤ q := by
      simpa [le,lt,OfNat.ofNat,Rat.not_lt] using pos
    have more : ¬ q ≤ 0 := fun none => absurd (Rat.le_trans least none) (by decide)
    simpa [reaches,le,lt,Rat.not_lt,Rat.not_le] using more

end JsNumber

namespace Double

-- Whole numbers in binary64; from 2^53 on only multiples of a power of two. No overflow.
def spacing (n : Nat) : Nat := 2^(n.log2 + 1 - 53)

def round (n : Nat) : Nat :=
  let quotient := n / spacing n
  let rest := n % spacing n
  if 2 * rest < spacing n ∨ (2 * rest = spacing n ∧ quotient % 2 = 0) then quotient * spacing n
  else (quotient + 1) * spacing n

def add (a b : Nat) : Nat := round (a + b)
def mul (a b : Nat) : Nat := round (a * b)

theorem spacing_safe (safe : n < 2^53) : spacing n = 1 := by
  have short : n.log2 < 53 := by
    by_cases zero : n = 0
    · subst zero
      decide
    · exact (Nat.log2_lt zero).mpr safe
  have none : n.log2 + 1 - 53 = 0 := by omega
  rw [spacing,none,Nat.pow_zero]

theorem round_safe (safe : n < 2^53) : round n = n := by
  simp [round,spacing_safe safe,Nat.mod_one]

theorem add_safe (safe : a + b < 2^53) : add a b = a + b := round_safe safe

theorem mul_safe (safe : a * b < 2^53) : mul a b = a * b := round_safe safe

-- The same with a sign.
def roundInt (n : Int) : Int := n.sign * round n.natAbs

def addInt (a b : Int) : Int := roundInt (a + b)
def subInt (a b : Int) : Int := roundInt (a - b)

-- `Number.isSafeInteger`
def Safe (n : Int) : Prop := n.natAbs < 2^53

instance : Decidable (Safe n) := inferInstanceAs (Decidable (_ < _))

theorem roundInt_safe (safe : Safe n) : roundInt n = n := by
  rw [roundInt,round_safe safe,Int.sign_mul_natAbs]

theorem addInt_safe (safe : Safe (a + b)) : addInt a b = a + b := roundInt_safe safe

theorem subInt_safe (safe : Safe (a - b)) : subInt a b = a - b := roundInt_safe safe

end Double
