import Mathlib.Data.List.Basic

-- What a host's string functions do, as far as programs rely on it.
structure JsText where
  (trim toUpperCase toLowerCase : String → String)
  collates : String → String → Bool
  trim_trim : ∀ s, trim (trim s) = trim s
  upper_settles : ∀ s, toUpperCase (trim (toUpperCase (trim s))) = toUpperCase (trim s)
  lower_settles : ∀ s, toLowerCase (trim (toLowerCase (trim s))) = toLowerCase (trim s)
  collates_total : ∀ a b, collates a b = true ∨ collates b a = true
  collates_trans : ∀ a b c, collates a b = true → collates b c = true → collates a c = true

-- A host whose texts are all in one case and without outer blanks.
def JsText.plain : JsText where
  trim := id
  toUpperCase := id
  toLowerCase := id
  collates := fun a b => a ≤ b
  trim_trim := fun _ => rfl
  upper_settles := fun _ => rfl
  lower_settles := fun _ => rfl
  collates_total := fun a b => by simpa using String.le_total a b
  collates_trans := fun a b c => by simpa using String.le_trans

-- Texts as lists of their characters.
abbrev CharText := List Char

namespace CharText
open List

-- `/^\d+$/`
def digits (text : CharText) : Bool := !text.isEmpty && text.all Char.isDigit

-- `/^\d+\.\d+\.\d+\.\d+$/`
def dotted (text : CharText) : Bool :=
  let parts := text.splitOn '.'
  parts.length = 4 && parts.all digits

-- What `trim` and `parseInt` skip.
def strWhiteSpace (c : Char) : Bool :=
  let n := c.toNat
  (9 ≤ n && n ≤ 13) || n = 32 || n = 0xa0 || n = 0x1680 || (0x2000 ≤ n && n ≤ 0x200a) || n = 0x2028 || n = 0x2029 ||
    n = 0x202f || n = 0x205f || n = 0x3000 || n = 0xfeff

def trim (text : CharText) : CharText := ((text.dropWhile strWhiteSpace).reverse.dropWhile strWhiteSpace).reverse

def leadingNat (text : CharText) : Option Nat :=
  let digits := text.takeWhile Char.isDigit
  if digits = [] then none else some (digits.foldl (fun n c => n * 10 + (c.toNat - '0'.toNat)) 0)

-- `parseInt(text, 10)`, none for NaN.
def parseInt (text : CharText) : Option Int :=
  match text.dropWhile strWhiteSpace with
  | '-' :: digits => (leadingNat digits).map (fun n => -(n : Int))
  | '+' :: digits => (leadingNat digits).map Int.ofNat
  | digits => (leadingNat digits).map Int.ofNat

def hexDigit (c : Char) : Option Nat :=
  let n := c.toNat
  if '0'.toNat ≤ n ∧ n ≤ '9'.toNat then some (n - '0'.toNat)
  else if 'a'.toNat ≤ n ∧ n ≤ 'f'.toNat then some (n - 'a'.toNat + 10)
  else if 'A'.toNat ≤ n ∧ n ≤ 'F'.toNat then some (n - 'A'.toNat + 10)
  else none

theorem splitOn_length (c : Char) (text : CharText) : (text.splitOn c).length = text.count c + 1 := by
  induction text with
  | nil => rfl
  | cons _ _ ih =>
    rw [splitOn,splitOnP_cons_eq_if_modifyHead,← splitOn]
    split
    · rename_i same
      rw [length_cons,ih,count_cons,if_pos same]
    · rename_i other
      rw [length_modifyHead,ih,count_cons,if_neg other,Nat.add_zero]

theorem dotted_dot (matched : dotted text = true) : '.' ∈ text := by
  simp only [dotted,splitOn_length,Bool.and_eq_true,decide_eq_true_eq] at matched
  exact count_pos_iff.mp (by omega)

end CharText

namespace Utf8
open List

-- A text as its UTF-8 bytes.
def encode (text : String) : List UInt8 := text.toUTF8.data.toList

theorem encode_inj (same : encode a = encode b) : a = b :=
  String.toByteArray_inj.mp (ByteArray.ext (Array.toList_inj.mp same))

def isAscii (text : String) : Bool := text.toList.all (fun c => c.val ≤ 127)

theorem encode_chars : encode text = text.toList.flatMap String.utf8EncodeChar := by
  have chars : text.toByteArray = text.toList.utf8Encode := by
    rw [← String.toByteArray_ofList,String.ofList_toList]
  show text.toByteArray.data.toList = _
  rw [chars]
  simp [utf8Encode]

theorem encode_length (ascii : isAscii text = true) : (encode text).length = text.length := by
  rw [encode_chars,← String.length_toList]
  have small : ∀ c ∈ text.toList, c.val ≤ 127 := by simpa [isAscii] using ascii
  generalize text.toList = chars at small
  induction chars with
  | nil => rfl
  | cons c _ ih =>
    have single : c.utf8Size = 1 := Char.utf8Size_eq_one_iff.mpr (small c (by simp))
    rw [flatMap_cons,length_append,String.length_utf8EncodeChar,single,
      ih (fun d mem => small d (by simp [mem])),length_cons]
    omega

end Utf8
