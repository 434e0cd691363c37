import StellarPriceOracle.Library.JsText
import Mathlib.Data.Nat.Bitwise
import Mathlib.Tactic.Ring

-- Internet addresses as numbers, and their texts as a URL's host serializer writes them.
namespace IpAddress
open List

def InPrefix (width base bits value : Nat) : Prop := value / 2^(width - bits) = base / 2^(width - bits)

instance : Decidable (InPrefix width base bits value) := inferInstanceAs (Decidable (_ = _))

def mask (width bits : Nat) : Nat := (2^width - 1) <<< (width - bits) % 2^width

theorem and_mask (small : n < 2^width) : n &&& mask width bits = n / 2^(width - bits) * 2^(width - bits) := by
  apply Nat.eq_of_testBit_eq
  intro i
  rw [Nat.testBit_and,mask,Nat.testBit_mod_two_pow,Nat.testBit_shiftLeft,Nat.testBit_two_pow_sub_one,
    Nat.testBit_mul_two_pow,Nat.testBit_div_two_pow]
  rcases Nat.lt_or_ge i width with inside | out
  · by_cases low : width - bits ≤ i
    · have high : i - (width - bits) < width := by omega
      simp [inside,low,high]
    · simp [low]
  · have clear : n.testBit i = false := Nat.testBit_lt_two_pow (Nat.lt_of_lt_of_le small (Nat.pow_le_pow_right (by decide) out))
    by_cases low : width - bits ≤ i
    · simp [clear,low]
    · simp [clear,low]

theorem masked_inPrefix (small : n < 2^width) (based : base < 2^width) :
    n &&& mask width bits = base &&& mask width bits ↔ InPrefix width base bits n := by
  rw [and_mask small,and_mask based]
  exact Nat.mul_left_inj (Nat.ne_of_gt (Nat.two_pow_pos _))

structure Ipv4 where
  (a b c d : Fin 256)
  deriving DecidableEq

namespace Ipv4
def octets (ip : Ipv4) : List Nat := [ip.a,ip.b,ip.c,ip.d]

def value (ip : Ipv4) : Nat := ip.octets.foldl (fun n octet => n * 256 + octet) 0

def serialize (ip : Ipv4) : CharText := ['.'].intercalate (ip.octets.map (Nat.toDigits 10))

theorem value_lt (ip : Ipv4) : ip.value < 2^32 := by
  obtain ⟨a,b,c,d⟩ := ip
  simp only [value,octets,foldl_cons,foldl_nil]
  omega
end Ipv4

structure Ipv6 where
  groups : List Nat
  eight : groups.length = 8
  small : ∀ group ∈ groups, group < 2^16

namespace Ipv6
def value (ip : Ipv6) : Nat := ip.groups.foldl (fun n group => n * 2^16 + group) 0

def hexChar (digit : Nat) : Char := "0123456789abcdef".toList.getD digit '0'

def hex (group : Nat) : CharText :=
  match [group / 4096 % 16,group / 256 % 16,group / 16 % 16,group % 16].dropWhile (· = 0) with
  | [] => ['0']
  | digits => digits.map hexChar

def zeros (groups : List Nat) (i : Nat) : Nat := ((groups.drop i).takeWhile (· = 0)).length

def longest (groups : List Nat) : Nat := ((range groups.length).map (zeros groups)).foldl max 0

-- The first of the longest runs of zero groups, if one has two or more.
def compress (groups : List Nat) : Option Nat :=
  if 1 < longest groups then (range groups.length).find? (fun i => zeros groups i = longest groups) else none

def write (compress : Option Nat) : Nat → Bool → List Nat → CharText
  | _,_,[] => []
  | i,ignore0,group :: rest =>
    if ignore0 ∧ group = 0 then write compress (i + 1) true rest
    else if compress = some i then (if i = 0 then [':',':'] else [':']) ++ write compress (i + 1) true rest
    else hex group ++ (if rest = [] then [] else [':']) ++ write compress (i + 1) false rest

def serialize (ip : Ipv6) : CharText := write (compress ip.groups) 0 false ip.groups

section
variable {ip : Ipv6}

def Written (c : Char) : Prop := c = ':' ∨ c ∈ "0123456789abcdef".toList

theorem hexChar_written : Written (hexChar digit) := by
  rcases Nat.lt_or_ge digit 16 with small | large
  · have each : ∀ digit < 16, hexChar digit ∈ "0123456789abcdef".toList := by decide
    exact .inr (each digit small)
  · rw [hexChar,getD_eq_default _ _ large]
    exact .inr (by decide)

theorem hex_written (member : c ∈ hex group) : Written c := by
  unfold hex at member
  split at member
  · rw [mem_singleton.mp member]
    exact .inr (by decide)
  · obtain ⟨_,_,rfl⟩ := mem_map.mp member
    exact hexChar_written

theorem write_written (compress : Option Nat) (i : Nat) (ignore0 : Bool) (groups : List Nat) :
    ∀ c ∈ write compress i ignore0 groups, Written c := by
  induction groups generalizing i ignore0 with
  | nil => simp [write]
  | cons _ _ ih =>
    intro c member
    unfold write at member
    split at member
    · exact ih _ _ c member
    split at member
    · rcases mem_append.mp member with colon | later
      · split at colon <;> exact .inl (by simpa using colon)
      · exact ih _ _ c later
    · simp only [mem_append] at member
      rcases member with (here | colon) | later
      · exact hex_written here
      · split at colon
        · cases colon
        · exact .inl (mem_singleton.mp colon)
      · exact ih _ _ c later

theorem serialize_written (member : c ∈ ip.serialize) : Written c := write_written _ _ _ _ c member

theorem compress_start (nonzero : group ≠ 0) : compress (group :: rest) ≠ some 0 := by
  intro first
  unfold compress at first
  split at first
  · rename_i long
    have none : zeros (group :: rest) 0 = 0 := by simp [zeros,nonzero]
    have run := find?_some first
    simp only [none,decide_eq_true_eq] at run
    omega
  · cases first

theorem serialize_start (spelled : ip.groups = group :: rest) (nonzero : group ≠ 0) : hex group <+: ip.serialize := by
  rw [serialize,spelled,write,if_neg (by simp),if_neg (compress_start nonzero),append_assoc]
  exact prefix_append _ _

theorem serialize_colon (ip : Ipv6) : ':' ∈ ip.serialize := by
  have ⟨groups,eight,_⟩ := ip
  match groups,eight with
  | group :: next :: rest,_ =>
    rw [serialize,write,if_neg (by simp)]
    split <;> simp

theorem hex_four (small : group < 2^16) (long : 2^12 ≤ group) :
    hex group = [group / 4096,group / 256 % 16,group / 16 % 16,group % 16].map hexChar := by
  have top : group / 4096 % 16 = group / 4096 := Nat.mod_eq_of_lt (by omega)
  have nonzero : group / 4096 ≠ 0 := by omega
  simp [hex,top,nonzero]

theorem spelled (ip : Ipv6) : ∃ a b c d e f g h, ip.groups = [a,b,c,d,e,f,g,h] ∧
    a < 2^16 ∧ b < 2^16 ∧ c < 2^16 ∧ d < 2^16 ∧ e < 2^16 ∧ f < 2^16 ∧ g < 2^16 ∧ h < 2^16 := by
  obtain ⟨groups,eight,small⟩ := ip
  match groups,eight with
  | [a,b,c,d,e,f,g,h],_ => exact ⟨a,b,c,d,e,f,g,h,rfl,by simpa using small⟩

theorem inPrefix_leading (spelled : ip.groups = group :: rest) (short : bits ≤ 16) :
    InPrefix 128 (base * 2^112) bits ip.value ↔ group / 2^(16 - bits) = base / 2^(16 - bits) := by
  have parts : ∃ low < 2^112, ip.value = low + group * 2^112 := by
    obtain ⟨a,b,c,d,e,f,g,h,all,_⟩ := ip.spelled
    obtain ⟨rfl,rfl⟩ := cons.inj (spelled.symm.trans all)
    refine ⟨(((((b * 2^16 + c) * 2^16 + d) * 2^16 + e) * 2^16 + f) * 2^16 + g) * 2^16 + h,by omega,?_⟩
    rw [value,all]
    simp only [foldl_cons,foldl_nil]
    ring
  obtain ⟨low,small,parts⟩ := parts
  have powers : 2^(128 - bits) = 2^112 * 2^(16 - bits) := by
    rw [← Nat.pow_add]
    congr 1
    omega
  rw [InPrefix,powers,← Nat.div_div_eq_div_mul,← Nat.div_div_eq_div_mul,Nat.mul_div_cancel _ (Nat.two_pow_pos _),parts,
    Nat.add_mul_div_right _ _ (Nat.two_pow_pos _),Nat.div_eq_of_lt small,Nat.zero_add]

end
end Ipv6

inductive Literal where
  | v4 (ip : Ipv4)
  | v6 (ip : Ipv6)

def Literal.serialize : Literal → CharText
  | .v4 ip => ip.serialize
  | .v6 ip => ip.serialize

end IpAddress
