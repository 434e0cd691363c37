import StellarPriceOracle.Merkle
import StellarPriceOracle.Library.JsText

-- `hashLeaf` of infrastructure/merkle.ts beside the contract's `hash_leaf`.
namespace StellarPriceOracle.LeafEncoding
open Merkle (beBytes beBytes_split beBytes_mod beBytes_inj leafPreimage stringToBytes maxStringLen)
open List
open Utf8

abbrev Buffer := Bytes

structure BatchPriceEntry where
  asset : String
  price : Int
  (decimals timestamp : Nat)
  source : String
  deriving DecidableEq

def leafDomainTag : Buffer := [0x00]

def asIntN (bits : Nat) (n : Int) : Int := (n + 2^(bits - 1)) % 2^bits - 2^(bits - 1)

def asUintN (bits : Nat) (n : Int) : Nat := (n % 2^bits).toNat

-- `writeUInt32BE` and `writeBigUInt64BE` throw a RangeError on a value too large.
def writeUIntBE (width n : Nat) : Option Buffer := if n < 256^width then some (beBytes width n) else none

def high (price : Int) : Nat := asUintN 64 (asIntN 128 price >>> (64 : Nat))

def low (price : Int) : Nat := asUintN 64 (asIntN 128 price % 2^64)

def priceBuf (price : Int) : Option Buffer := do
  let high ← writeUIntBE 8 (high price)
  let low ← writeUIntBE 8 (low price)
  some (high ++ low)

def leafBuffer (entry : BatchPriceEntry) : Option Buffer := do
  let assetBytes := encode entry.asset
  let sep : Buffer := [0x00]
  let priceBuf ← priceBuf entry.price
  let decBuf ← writeUIntBE 4 entry.decimals
  let tsBuf ← writeUIntBE 8 entry.timestamp
  let sourceBuf := encode entry.source
  some (leafDomainTag ++ assetBytes ++ sep ++ priceBuf ++ decBuf ++ tsBuf ++ sourceBuf)

-- An address string is a strkey: 56 characters of base32.
structure AddressText (text : String) : Prop where
  length : text.length = 56
  ascii : isAscii text = true

def maxSafeInteger : Nat := 2^53 - 1

structure Encodable (entry : BatchPriceEntry) : Prop where
  asset : (encode entry.asset).length ≤ 64
  above : -2^127 ≤ entry.price
  below : entry.price < 2^127
  decimals : entry.decimals < 2^32
  timestamp : entry.timestamp ≤ maxSafeInteger
  source : AddressText entry.source

structure Matches (entry : BatchPriceEntry) (e : StellarPriceOracle.BatchPriceEntry) : Prop where
  asset : e.asset = encode entry.asset
  price : e.price = entry.price
  decimals : e.decimals = entry.decimals
  timestamp : e.timestamp = entry.timestamp
  source : e.source.strkey = encode entry.source

def complement (price : Int) : Nat := (price % 2^128).toNat

theorem complement_fits (price : Int) : complement price < 256^16 := by
  unfold complement
  omega

theorem high_exact : high price = complement price / 256^8 := by
  unfold high complement asUintN asIntN
  rw [Int.shiftRight_eq_div_pow]
  omega

theorem low_exact : low price = complement price % 256^8 := by
  unfold low complement asUintN asIntN
  omega

theorem writeUIntBE_fits (fits : n < 256^width) : writeUIntBE width n = some (beBytes width n) := if_pos fits

theorem priceBuf_exact (price : Int) : priceBuf price = some (beBytes 16 (complement price)) := by
  have whole := complement_fits price
  have highFits : high price < 256^8 := by rw [high_exact]; omega
  have lowFits : low price < 256^8 := by rw [low_exact]; omega
  have bytes : beBytes 16 (complement price) = beBytes 8 (high price) ++ beBytes 8 (low price) := by
    rw [high_exact,low_exact,beBytes_mod,← beBytes_split 8 8]
  rw [priceBuf,writeUIntBE_fits highFits,writeUIntBE_fits lowFits,bytes]
  rfl

theorem complement_inj (above : -2^127 ≤ a) (below : a < 2^127) (other : -2^127 ≤ b) (bound : b < 2^127)
    (same : complement a = complement b) : a = b := by
  unfold complement at same
  omega

theorem AddressText.bytes (address : AddressText text) : (encode text).length = 56 := by
  rw [encode_length address.ascii,address.length]

def bytesOf (entry : BatchPriceEntry) : Buffer :=
  0x00 :: (encode entry.asset ++ 0x00 :: (beBytes 16 (complement entry.price) ++ beBytes 4 entry.decimals ++
    beBytes 8 entry.timestamp ++ encode entry.source))

theorem leafBuffer_exact (fits : Encodable entry) : leafBuffer entry = some (bytesOf entry) := by
  have decimals : entry.decimals < 256^4 := fits.decimals
  have timestamp : entry.timestamp < 256^8 := Nat.lt_of_le_of_lt fits.timestamp (by decide)
  rw [leafBuffer,priceBuf_exact,writeUIntBE_fits decimals,writeUIntBE_fits timestamp]
  simp [leafDomainTag,bytesOf]

theorem leafPreimage_exact (fits : Encodable entry) (same : Matches entry e) : leafPreimage e = .ok (bytesOf entry) := by
  have asset : stringToBytes e.asset = .ok e.asset := by
    have short : e.asset.length ≤ maxStringLen := same.asset ▸ fits.asset
    simp [stringToBytes,ensure,short]
  have source : stringToBytes e.source.strkey = .ok e.source.strkey := by
    have short : e.source.strkey.length ≤ maxStringLen := by rw [e.source.size]; decide
    simp [stringToBytes,ensure,short]
  rw [leafPreimage,asset,source,same.asset,same.price,same.decimals,same.timestamp,same.source]
  rfl

theorem matched (fits : Encodable entry) : ∃ e, Matches entry e :=
  ⟨⟨encode entry.asset,entry.price,entry.decimals,entry.timestamp,⟨encode entry.source,fits.source.bytes⟩⟩,
    rfl,rfl,rfl,rfl,rfl⟩

-- The fields behind the asset have fixed widths, so what is left of them is the asset.
theorem bytesOf_injective (fits : Encodable a) (other : Encodable b) (same : bytesOf a = bytesOf b) : a = b := by
  have tails : (0x00 :: (beBytes 16 (complement a.price) ++ beBytes 4 a.decimals ++ beBytes 8 a.timestamp ++ encode a.source)).length =
      (0x00 :: (beBytes 16 (complement b.price) ++ beBytes 4 b.decimals ++ beBytes 8 b.timestamp ++ encode b.source)).length := by
    simp [fits.source.bytes,other.source.bytes]
  obtain ⟨assets,tail⟩ := append_inj' (cons.inj same).2 tails
  have fields := (cons.inj tail).2
  obtain ⟨fields,sources⟩ := append_inj' fields (by rw [fits.source.bytes,other.source.bytes])
  obtain ⟨fields,timestamps⟩ := append_inj' fields (by simp)
  obtain ⟨prices,decimals⟩ := append_inj' fields (by simp)
  have asset : a.asset = b.asset := encode_inj assets
  have price : a.price = b.price := complement_inj fits.above fits.below other.above other.below
    (beBytes_inj (complement_fits a.price) (complement_fits b.price) prices)
  have decimals : a.decimals = b.decimals := beBytes_inj fits.decimals other.decimals decimals
  have timestamp : a.timestamp = b.timestamp := beBytes_inj (Nat.lt_of_le_of_lt fits.timestamp (by decide))
    (Nat.lt_of_le_of_lt other.timestamp (by decide)) timestamps
  have source : a.source = b.source := encode_inj sources
  cases a
  cases b
  simp_all

theorem hashed_bytes_agree_and_determine_entry {entry : BatchPriceEntry} (fits : Encodable entry) :
    ∃ bytes, leafBuffer entry = some bytes ∧ (∃ e, Matches entry e) ∧ (∀ e, Matches entry e → leafPreimage e = .ok bytes) ∧
      ∀ other, Encodable other → leafBuffer other = some bytes → other = entry := by
  refine ⟨bytesOf entry,leafBuffer_exact fits,matched fits,fun e same => leafPreimage_exact fits same,?_⟩
  intro _ otherFits same
  rw [leafBuffer_exact otherFits] at same
  exact bytesOf_injective otherFits fits (Option.some.inj same)

namespace Sample

def entry : BatchPriceEntry :=
  ⟨"XL\x00M",-2^127,7,1700000000,"GAAZI4TCR3TY5OJHCTJC2A4QSY6CJWJH5IAJTGKIN2ER7LBNVKOCCWN7"⟩

theorem encodable : Encodable entry :=
  ⟨by decide,by decide,by decide,by decide,by decide,⟨by decide,by decide⟩⟩

theorem zero_byte_entry_determined : Encodable entry ∧ ∃ bytes, leafBuffer entry = some bytes ∧ (∃ e, Matches entry e) ∧
    (∀ e, Matches entry e → leafPreimage e = .ok bytes) ∧ ∀ other, Encodable other → leafBuffer other = some bytes → other = entry :=
  ⟨encodable,hashed_bytes_agree_and_determine_entry encodable⟩

end Sample

end StellarPriceOracle.LeafEncoding
