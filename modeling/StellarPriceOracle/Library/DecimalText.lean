import StellarPriceOracle.Library.BigNumber

namespace BigNumber
open List hiding head

abbrev Text := List Char

section
variable (text : Text)

def readDigits : Option Nat :=
  if text ≠ [] ∧ text.all Char.isDigit = true then some (Nat.ofDigitChars 10 text 0) else none

def readMantissa : Option ℚ :=
  match text.splitOn '.' with
  | [whole] => (readDigits whole).map (fun n : Nat => (n : ℚ))
  | [whole,fraction] => do
    let n ← readDigits whole
    let f ← readDigits fraction
    some (n + f / 10^fraction.length)
  | _ => none

def readUnsigned : Option ℚ :=
  match text.splitOn 'e' with
  | [mantissa] => readMantissa mantissa
  | [mantissa,'+' :: exponent] => do
    let q ← readMantissa mantissa
    let e ← readDigits exponent
    some (q * 10^e)
  | [mantissa,'-' :: exponent] => do
    let q ← readMantissa mantissa
    let e ← readDigits exponent
    some (q / 10^e)
  | _ => none

def denoted : Option ℚ :=
  match text with
  | '-' :: rest => (readUnsigned rest).map (fun q => -q)
  | _ => readUnsigned text

-- `BigInt(text)` on decimal literals, the only ones with a meaning here: no exponent, no point.
def bigInt : Option Int :=
  match text with
  | [] => some 0
  | '-' :: rest => (readDigits rest).map (fun n : Nat => -(n : Int))
  | '+' :: rest => (readDigits rest).map (fun n : Nat => (n : Int))
  | _ => (readDigits text).map (fun n : Nat => (n : Int))

end

def whole (n : Nat) : Text := Nat.toDigits 10 n

def signed (negative : Bool) (text : Text) : Text := if negative then '-' :: text else text

def fraction (places n : Nat) : Text := replicate (places - (whole n).length) '0' ++ whole n

def fixed (n : Nat) : Nat → Text
  | 0 => whole n
  | places + 1 =>
    if n % 10 = 0 then fixed (n / 10) places
    else whole (n / 10^(places + 1)) ++ '.' :: fraction (places + 1) (n % 10^(places + 1))

-- `toFixed()` of a whole number shifted by some places.
def toFixed (n places : Int) : Text := signed (n < 0) (fixed (n.natAbs * 10^places.toNat) (-places).toNat)

def significant (n : Nat) : Text := ((whole n).reverse.dropWhile (fun c => c = '0')).reverse

def exponential (n : Nat) : Text :=
  match significant n with
  | [] => []
  | head :: rest => head :: (if rest = [] then [] else '.' :: rest) ++ 'e' :: '+' :: whole ((whole n).length - 1)

def toString (n : Int) : Text :=
  signed (n < 0) (if (whole n.natAbs).length ≤ 21 then whole n.natAbs else exponential n.natAbs)

section
variable {c : Char} {text a b : Text}

theorem whole_digit (present : c ∈ whole n) : c.isDigit = true := Nat.isDigit_of_mem_toDigits (by decide) (by decide) present

theorem digit_ne (digit : c.isDigit = true) (other : d.isDigit = false) : c ≠ d := by
  rintro rfl
  cases digit.symm.trans other

theorem splitOn_absent (absent : c ∉ text) : text.splitOn c = [text] := by
  have joined : ([c].intercalate [text]).splitOn c = [text] := splitOn_intercalate c (by simpa using absent) (by simp)
  rwa [intercalate_singleton] at joined

theorem splitOn_once (before : c ∉ a) (after : c ∉ b) : (a ++ c :: b).splitOn c = [a,b] := by
  have joined : ([c].intercalate [a,b]).splitOn c = [a,b] := splitOn_intercalate c (by simpa using ⟨before,after⟩) (by simp)
  rwa [show [c].intercalate [a,b] = a ++ c :: b by simp [intercalate]] at joined

structure Digits (text : Text) : Prop where
  present : text ≠ []
  digits : ∀ c ∈ text, c.isDigit = true

theorem Digits.absent (written : Digits text) (other : c.isDigit = false) : c ∉ text :=
  fun present => digit_ne (written.digits c present) other rfl

theorem Digits.read (written : Digits text) : readDigits text = some (Nat.ofDigitChars 10 text 0) := by
  rw [readDigits,if_pos ⟨written.present,all_eq_true.mpr written.digits⟩]

theorem Digits.mantissa (written : Digits text) : readMantissa text = some (Nat.ofDigitChars 10 text 0 : ℚ) := by
  rw [readMantissa,splitOn_absent (written.absent (by decide))]
  simp [written.read,Option.map_some]

theorem Digits.point (front : Digits a) (back : Digits b) :
    readMantissa (a ++ '.' :: b) = some (Nat.ofDigitChars 10 a 0 + Nat.ofDigitChars 10 b 0 / 10^b.length : ℚ) := by
  rw [readMantissa,splitOn_once (front.absent (by decide)) (back.absent (by decide))]
  simp [front.read,back.read,Option.bind_eq_bind,Option.bind_some]

theorem whole_digits (n : Nat) : Digits (whole n) :=
  ⟨Nat.toDigits_ne_nil,fun _ present => Nat.isDigit_of_mem_toDigits (by decide) (by decide) present⟩

theorem whole_value (n : Nat) : Nat.ofDigitChars 10 (whole n) 0 = n := Nat.ofDigitChars_ten_toDigits

theorem fraction_digits : Digits (fraction places n) := by
  constructor
  · simp [fraction,(whole_digits n).present]
  · intro c present
    rcases mem_append.mp present with padding | digit
    · rw [eq_of_mem_replicate padding]
      rfl
    · exact (whole_digits n).digits c digit

theorem fraction_value : Nat.ofDigitChars 10 (fraction places n) 0 = n := by
  rw [fraction,Nat.ofDigitChars_append,Nat.ofDigitChars_replicate_zero,Nat.mul_zero,whole_value]

theorem fraction_length (pos : 0 < places) (small : n < 10^places) : (fraction places n).length = places := by
  have fits : (whole n).length ≤ places := (Nat.length_toDigits_le_iff (by decide) pos).mpr small
  rw [fraction,length_append,length_replicate]
  omega

theorem fixed_chars (n places : Nat) : ∀ c ∈ fixed n places, c.isDigit = true ∨ c = '.' := by
  induction places generalizing n with
  | zero => exact fun c present => .inl ((whole_digits n).digits c present)
  | succ _ ih =>
    rw [fixed]
    split
    · exact ih (n / 10)
    · intro c present
      rcases mem_append.mp present with digit | later
      · exact .inl ((whole_digits _).digits c digit)
      · rcases mem_cons.mp later with point | digit
        · exact .inr point
        · exact .inl ((fraction_digits).digits c digit)

theorem fixed_absent (other : c.isDigit = false) (ne : c ≠ '.') : c ∉ fixed n places := by
  intro present
  rcases fixed_chars n places c present with digit | point
  · cases digit.symm.trans other
  · exact ne point

theorem fixed_mantissa (n places : Nat) : readMantissa (fixed n places) = some (n / 10^places : ℚ) := by
  induction places generalizing n with
  | zero => simp [fixed,(whole_digits n).mantissa,whole_value]
  | succ places ih =>
    rw [fixed]
    split
    · rename_i even
      have exact : (n : ℚ) = (n / 10 : Nat) * 10 := by exact_mod_cast (Nat.div_mul_cancel (Nat.dvd_of_mod_eq_zero even)).symm
      rw [ih (n / 10),exact,pow_succ]
      congr 1
      field_simp
    · have small := Nat.mod_lt n (show 0 < 10^(places + 1) from Nat.pow_pos (by decide))
      have split : (n : ℚ) = 10^(places + 1) * (n / 10^(places + 1) : Nat) + (n % 10^(places + 1) : Nat) := by
        exact_mod_cast (Nat.div_add_mod n (10^(places + 1))).symm
      rw [(whole_digits _).point (fraction_digits),whole_value,fraction_value,fraction_length (by omega) small]
      congr 1
      rw [split]
      field_simp

theorem fixed_read (n places : Nat) : readUnsigned (fixed n places) = some (n / 10^places : ℚ) := by
  rw [readUnsigned,splitOn_absent (fixed_absent (by decide) (by decide))]
  exact fixed_mantissa n places

theorem denoted_signed (negative : Bool) (unsigned : text.head? ≠ some '-') (read : readUnsigned text = some q) :
    denoted (signed negative text) = some (if negative then -q else q) := by
  cases negative with
  | true => simp [signed,denoted,read]
  | false =>
    cases text with
    | nil => exact read
    | cons c =>
      have other : c ≠ '-' := by simpa using unsigned
      simp [signed,denoted,other,read]

theorem head_absent (absent : '-' ∉ text) : text.head? ≠ some '-' := fun first => absent (mem_of_head? first)

theorem signed_value (n : Int) : (if n < 0 then -(n.natAbs : ℚ) else n.natAbs) = n := by
  split
  · rename_i negative
    have same : -(n.natAbs : Int) = n := by omega
    rw [← Int.cast_natCast,← Int.cast_neg,same]
  · rename_i pos
    have same : (n.natAbs : Int) = n := by omega
    rw [← Int.cast_natCast,same]

theorem significant_split : ∃ zeros, whole n = significant n ++ replicate zeros '0' := by
  refine ⟨((whole n).reverse.takeWhile (fun c => c = '0')).length,?_⟩
  have parts := congrArg reverse (takeWhile_append_dropWhile (p := fun c => decide (c = '0')) (l := (whole n).reverse))
  have zeros : ((whole n).reverse.takeWhile (fun c => c = '0')).reverse =
      replicate ((whole n).reverse.takeWhile (fun c => c = '0')).length '0' := by
    rw [eq_replicate_iff,length_reverse]
    refine ⟨rfl,fun c present => ?_⟩
    simpa using all_eq_true.mp all_takeWhile c (mem_reverse.mp present)
  rw [reverse_append,reverse_reverse,zeros] at parts
  exact parts.symm

theorem significant_digits (pos : 0 < n) : Digits (significant n) := by
  obtain ⟨_,split⟩ := significant_split
  constructor
  · intro empty
    have value := whole_value n
    rw [split,empty,nil_append,Nat.ofDigitChars_replicate_zero] at value
    omega
  · intro c present
    exact (whole_digits n).digits c (split ▸ mem_append_left _ present)

theorem significant_value (split : whole n = significant n ++ replicate zeros '0') : n = Nat.ofDigitChars 10 (significant n) 0 * 10^zeros := by
  have value := whole_value n
  rw [split,Nat.ofDigitChars_append,Nat.ofDigitChars_replicate_zero,Nat.mul_comm] at value
  exact value.symm

theorem mantissa_read (written : Digits (head :: rest)) :
    readMantissa (head :: (if rest = [] then [] else '.' :: rest)) = some (Nat.ofDigitChars 10 (head :: rest) 0 / 10^rest.length : ℚ) := by
  have first : Digits [head] := ⟨by simp,fun c present => written.digits c (mem_singleton.mp present ▸ mem_cons_self)⟩
  split
  · rename_i empty
    subst empty
    simpa using first.mantissa
  · rename_i more
    have others : Digits rest := ⟨more,fun c present => written.digits c (mem_cons_of_mem _ present)⟩
    have value : Nat.ofDigitChars 10 (head :: rest) 0 = 10^rest.length * Nat.ofDigitChars 10 [head] 0 + Nat.ofDigitChars 10 rest 0 := by
      rw [← singleton_append,Nat.ofDigitChars_append,Nat.ofDigitChars_eq_ofDigitChars_zero]
    have read := first.point others
    rw [singleton_append] at read
    rw [read,value]
    push_cast
    congr 1
    field_simp

theorem exponential_read (pos : 0 < n) : readUnsigned (exponential n) = some (n : ℚ) := by
  obtain ⟨zeros,split⟩ := significant_split
  have written := significant_digits pos
  have value := significant_value split
  cases digits : significant n with
  | nil => exact absurd digits written.present
  | cons head rest =>
    rw [digits] at written value split
    have length : (whole n).length - 1 = rest.length + zeros := by
      rw [split,length_append,length_cons,length_replicate]
      omega
    have plain : 'e' ∉ head :: (if rest = [] then [] else '.' :: rest) := by
      have absent := written.absent (show Char.isDigit 'e' = false by decide)
      split
      · rename_i empty
        rwa [empty] at absent
      · simpa using absent
    have tail : 'e' ∉ '+' :: whole (rest.length + zeros) := by
      simpa using (whole_digits (rest.length + zeros)).absent (show Char.isDigit 'e' = false by decide)
    rw [exponential,digits]
    simp only [length,readUnsigned,splitOn_once plain tail,mantissa_read written,(whole_digits _).read,whole_value,
      Option.bind_eq_bind,Option.bind_some]
    rw [value]
    push_cast
    congr 1
    rw [pow_add]
    field_simp

theorem exponential_head (pos : 0 < n) : ∃ head rest, exponential n = head :: rest ∧ head.isDigit = true := by
  have written := significant_digits pos
  rw [exponential]
  cases digits : significant n with
  | nil => exact absurd digits written.present
  | cons head =>
    rw [digits] at written
    exact ⟨head,_,rfl,written.digits head mem_cons_self⟩

theorem exponential_starts (pos : 0 < n) (other : c.isDigit = false) : (exponential n).head? ≠ some c := by
  obtain ⟨_,_,same,digit⟩ := exponential_head pos
  rw [same]
  intro first
  exact digit_ne digit other (Option.some.inj first)

theorem whole_short : (whole n).length ≤ 21 ↔ n < 10^21 := Nat.length_toDigits_le_iff (by decide) (by decide)

theorem denoted_toString : denoted (toString n) = some (n : ℚ) := by
  unfold toString
  split
  · rw [denoted_signed (q := n.natAbs) _ (head_absent ((whole_digits _).absent (by decide))) ?_]
    · simpa using signed_value n
    · simpa [fixed] using fixed_read n.natAbs 0
  · rename_i long
    have pos : 0 < n.natAbs := by
      rw [whole_short] at long
      omega
    rw [denoted_signed (q := n.natAbs) _ (exponential_starts pos (by decide)) (exponential_read pos)]
    simpa using signed_value n

theorem denoted_toFixed : denoted (toFixed n places) = some (shiftedBy n places) := by
  have size : (if n < 0 then -((n.natAbs * 10^places.toNat : Nat) / 10^(-places).toNat : ℚ) else (n.natAbs * 10^places.toNat : Nat) / 10^(-places).toNat) =
      (n : ℚ) * 10^places.toNat / 10^(-places).toNat := by
    rw [← signed_value n]
    push_cast
    split
    · rw [neg_mul,neg_div]
    · rfl
  unfold toFixed
  rw [denoted_signed _ (head_absent (fixed_absent (by decide) (by decide))) (fixed_read _ _)]
  congr 1
  rw [shiftedBy]
  by_cases up : 0 ≤ places
  · have none : (-places).toNat = 0 := by omega
    rw [if_pos up]
    simpa [none] using size
  · have none : places.toNat = 0 := by omega
    rw [if_neg up]
    simpa [none] using size

theorem readDigits_exponential (pos : 0 < n) : readDigits (exponential n) = none := by
  have mem : 'e' ∈ exponential n := by
    have written := significant_digits pos
    rw [exponential]
    cases digits : significant n with
    | nil => exact absurd digits written.present
    | cons => simp
  rw [readDigits,if_neg]
  rintro ⟨_,all⟩
  cases all_eq_true.mp all 'e' mem

theorem bigInt_signed (present : text ≠ []) (minus : text.head? ≠ some '-') (plus : text.head? ≠ some '+') :
    bigInt (signed negative text) = (readDigits text).map (fun n : Nat => if negative then -(n : Int) else n) := by
  cases negative with
  | true => rfl
  | false =>
    cases text with
    | nil => exact absurd rfl present
    | cons c =>
      have first : c ≠ '-' := by simpa using minus
      have second : c ≠ '+' := by simpa using plus
      simp [signed,bigInt,first,second]

theorem bigInt_toString : bigInt (toString n) = if n.natAbs < 10^21 then some n else none := by
  unfold toString
  by_cases short : n.natAbs < 10^21
  · have written := whole_digits n.natAbs
    have first : ∀ c : Char, c.isDigit = false → (whole n.natAbs).head? ≠ some c :=
      fun c other got => written.absent other (mem_of_head? got)
    rw [if_pos (whole_short.mpr short),if_pos short,bigInt_signed written.present (first _ (by decide)) (first _ (by decide)),written.read,whole_value]
    simp only [Option.map_some,decide_eq_true_eq]
    congr 1
    split <;> omega
  · have pos : 0 < n.natAbs := by omega
    have present : exponential n.natAbs ≠ [] := by
      obtain ⟨_,_,same,_⟩ := exponential_head pos
      simp [same]
    rw [if_neg (fun fits => short (whole_short.mp fits)),if_neg short,bigInt_signed present (exponential_starts pos (by decide))
      (exponential_starts pos (by decide)),readDigits_exponential pos]
    rfl

end

-- What a decimal library's texts denote, however it writes them.
structure Texts where
  toString : Int → Text
  toFixed : Int → Int → Text
  denotes : denoted (toString n) = some (n : ℚ)
  integral : bigInt (toString n) = if n.natAbs < 10^21 then some n else none
  shifted : denoted (toFixed n places) = some (shiftedBy n places)

def texts : Texts := ⟨toString,toFixed,denoted_toString,bigInt_toString,denoted_toFixed⟩

end BigNumber
