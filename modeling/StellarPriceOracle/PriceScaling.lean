import StellarPriceOracle.CommonScale
import StellarPriceOracle.LeafEncoding

-- oracle-sources/response-validation.ts and base.ts: from a provider's price to an integer.
namespace StellarPriceOracle.PriceScaling
open CommonScale (NormalizedPrice)
open LeafEncoding

def minDecimals : Nat := 0
def maxDecimals : Nat := 18

inductive ProviderPrice where
  | text (value : String)
  | number (value : JsNumber)
  deriving DecidableEq

structure Host where
  bigNumber : ProviderPrice → JsNumber
  overflows : ℚ → Bool
  priceText : ProviderPrice → String
  numberText : JsNumber → String

def wholeDecimals : JsNumber → Option Nat
  | .finite q => if q.den = 1 ∧ (minDecimals : Int) ≤ q.num ∧ q.num ≤ maxDecimals then some q.num.toNat else none
  | _ => none

def scaleValidatedPrice (host : Host) (price : ProviderPrice) (decimals : JsNumber) : Except String Int :=
  match wholeDecimals decimals with
  | none => .error ("decimals " ++ host.numberText decimals ++ " outside [0, 18]")
  | some places =>
    match host.bigNumber price with
    | .finite q =>
      if q ≤ 0 then .error ("price " ++ host.priceText price ++ " is not a positive finite number")
      else
        let scaled := q * 10^places
        if host.overflows scaled then .error ("price " ++ host.priceText price ++ " overflows at " ++ host.numberText decimals ++ " decimals")
        else
          let scaledInt := BigNumber.round scaled
          if scaledInt ≤ 0 then .error "scaled price rounded to zero" else .ok scaledInt
    | _ => .error ("price " ++ host.priceText price ++ " is not a positive finite number")

def signedBe (bytes : Bytes) : Int :=
  if Merkle.ofBeBytes bytes < 2^127 then Merkle.ofBeBytes bytes else Merkle.ofBeBytes bytes - 2^128

structure Survives (scaled : Int) : Prop where
  positive : 0 < scaled
  below : scaled < 2^127
  decoded : ∃ bytes, priceBuf scaled = some bytes ∧ bytes.length = 16 ∧ signedBe bytes = scaled

structure Scaled (host : Host) (price : ProviderPrice) (decimals : JsNumber) (q : ℚ) (places : Nat) : Prop where
  price : host.bigNumber price = .finite q
  places : wholeDecimals decimals = some places

section
variable {host : Host} {price : ProviderPrice} {decimals : JsNumber} {scaled : Int}

theorem scaled_parts (ran : scaleValidatedPrice host price decimals = .ok scaled) : ∃ q places, Scaled host price decimals q places ∧
    0 < q ∧ scaled = BigNumber.round (q * 10^places) ∧ 0 < scaled := by
  unfold scaleValidatedPrice at ran
  cases places : wholeDecimals decimals with
  | none => simp [places] at ran
  | some k =>
    cases value : host.bigNumber price with
    | nan | infinite negative => simp [places,value] at ran
    | finite q =>
      simp only [places,value] at ran
      split at ran
      · cases ran
      · rename_i positive
        split at ran
        · cases ran
        · split at ran
          · cases ran
          · rename_i _ more
            cases ran
            exact ⟨q,k,⟨value,places⟩,not_le.mp positive,rfl,not_le.mp more⟩

theorem signedBe_price : ∃ bytes, priceBuf scaled = some bytes ∧ bytes.length = 16 ∧ signedBe bytes = asIntN 128 scaled := by
  refine ⟨_,priceBuf_exact scaled,Merkle.beBytes_length _ _,?_⟩
  have fits := complement_fits scaled
  rw [signedBe,Merkle.ofBeBytes_beBytes,Nat.mod_eq_of_lt fits]
  unfold complement asIntN
  split <;> omega

theorem survives_below (positive : 0 < scaled) : Survives scaled ↔ scaled < 2^127 := by
  constructor
  · exact fun survives => survives.below
  · intro below
    obtain ⟨bytes,written,length,decoded⟩ := signedBe_price
    refine ⟨positive,below,bytes,written,length,?_⟩
    rw [decoded]
    unfold asIntN
    omega

theorem scaled_price_survives_exactly (accepted : scaleValidatedPrice host price decimals = .ok scaled) :
    Survives scaled ↔ ∀ q places, Scaled host price decimals q places → q * 10^places < 2^127 - 1/2 := by
  obtain ⟨q,places,parts,_,rfl,positive⟩ := scaled_parts accepted
  have bound : BigNumber.round (q * 10^places) < 2^127 ↔ q * 10^places < 2^127 - 1/2 := by
    have exact := BigNumber.round_lt (q := q * 10^places) (show (0 : Int) < 2^127 by decide)
    rwa [Int.cast_pow,Int.cast_ofNat] at exact
  rw [survives_below positive,bound]
  constructor
  · intro below r k other
    have same : JsNumber.finite r = .finite q := other.price.symm.trans parts.price
    have scale : some k = some places := other.places.symm.trans parts.places
    cases same
    cases scale
    exact below
  · intro all
    exact all q places parts

end

namespace Sample

def host : Host where
  bigNumber
    | .text value => if value = "1e21" then .finite (10^21) else if value = "0.12345" then .finite (12345 / 100000) else .nan
    | .number value => value
  overflows _ := false
  priceText
    | .text value => value
    | .number _ => "NaN"
  numberText _ := "18"

-- A price of 10^21 with 18 decimals is accepted, and its sixteen bytes are a negative number.
theorem large_price_truncated : scaleValidatedPrice host (.text "1e21") 18 = .ok (10^39) ∧ ¬ Survives (10^39) ∧
    (priceBuf (10^39)).map signedBe = some (-20847100762815390390123822295304634368) := by
  refine ⟨by decide +kernel,?_,by decide +kernel⟩
  rw [survives_below (by decide)]
  decide

theorem small_price_survives : scaleValidatedPrice host (.text "0.12345") 7 = .ok 1234500 ∧ Survives 1234500 := by
  have accepted : scaleValidatedPrice host (.text "0.12345") 7 = .ok 1234500 := by decide +kernel
  refine ⟨accepted,(scaled_price_survives_exactly accepted).mpr ?_⟩
  intro q places parts
  have value : JsNumber.finite (12345 / 100000) = .finite q := parts.price
  have scale : some 7 = some places := (show wholeDecimals 7 = some 7 by decide +kernel).symm.trans parts.places
  cases value
  cases scale
  decide +kernel

end Sample

end StellarPriceOracle.PriceScaling
