import Mathlib.Data.List.DropRight
import StellarPriceOracle.Library.InsertionMap
import StellarPriceOracle.Library.Json
import StellarPriceOracle.Library.JsText

-- Request inputs are rewritten before a handler sees them.
namespace StellarPriceOracle.Sanitization
open CharText (trim strWhiteSpace)
open Json (ownOrder mem_ownOrder ownOrder_perm ownOrder_settled)
open InsertionMap (collect collect_entries get_collect get_exact)
open List

def dangerousKeys : List String := ["__proto__","constructor","prototype"]

-- `/<[^>]*>/g`: a `<` that no `>` follows opens no tag.
def stripTags (inTag : Bool) : CharText → CharText
  | [] => []
  | c :: rest =>
    if inTag then stripTags (c ≠ '>') rest
    else if c = '<' ∧ '>' ∈ rest then stripTags true rest
    else c :: stripTags false rest

def markup : CharText := "<>\"'`;\\".toList

def isControl (c : Char) : Bool := c.toNat < 0x20 ∨ c.toNat = 0x7f

def stripControlChars (value : CharText) : CharText := value.filter (fun c => !isControl c)

def sanitizeString (value : String) : String :=
  .ofList (trim (stripControlChars ((stripTags false value.toList).filter (· ∉ markup))))

variable {ν : Type} {fields : List (String × Json ν)}

theorem field_smaller (mem : f ∈ fields) : sizeOf f.2 < sizeOf (Json.obj fields) := by
  have inner := sizeOf_lt_of_mem mem
  have own : sizeOf f = 1 + sizeOf f.1 + sizeOf f.2 := rfl
  rw [Json.obj.sizeOf_spec]
  omega

-- Fields are listed by `Object.entries`; `Object.fromEntries` gives a name its last value. What it makes is written
-- down in the order in which it would be listed again.
def sanitizeValue : Json ν → Json ν
  | .str s => .str (sanitizeString s)
  | .arr items => .arr (items.map sanitizeValue)
  | .obj fields => .obj (ownOrder (collect Prod.fst Prod.snd
      (((ownOrder fields).attach.filter (·.1.1 ∉ dangerousKeys)).map (fun f => (sanitizeString f.1.1,sanitizeValue f.1.2)))).entries)
  | value => value
decreasing_by
  · decreasing_tactic
  · exact field_smaller (mem_ownOrder.mp f.2)

theorem sanitizeValue_obj : sanitizeValue (.obj fields) = .obj (ownOrder (collect Prod.fst Prod.snd
    (((ownOrder fields).filter (·.1 ∉ dangerousKeys)).map (fun f => (sanitizeString f.1,sanitizeValue f.2)))).entries) := by
  have listed := filter_map (f := Subtype.val) (p := fun f : String × Json ν => decide (f.1 ∉ dangerousKeys)) (l := (ownOrder fields).attach)
  rw [attach_map_subtype_val] at listed
  rw [sanitizeValue,listed,map_map]
  rfl

-- Every text and every key at any depth.
def Everywhere (text key : String → Prop) : Json ν → Prop
  | .str s => text s
  | .arr items => ∀ item ∈ items, Everywhere text key item
  | .obj fields => ∀ k v, (k,v) ∈ fields → key k ∧ Everywhere text key v
  | _ => True
decreasing_by
  · decreasing_tactic
  · exact field_smaller ‹_ ∈ _›

-- The value of the last field listed that the filter keeps and the rewriting gives this name.
def kept (fields : List (String × Json ν)) (name : String) : Option (Json ν) :=
  (((ownOrder fields).filter (fun f => sanitizeString f.1 = name ∧ f.1 ∉ dangerousKeys)).getLast?).map Prod.snd

theorem kept_mem (last : kept fields name = some v) : ∃ k, (k,v) ∈ fields ∧ sanitizeString k = name := by
  obtain ⟨⟨k,_⟩,found,rfl⟩ := Option.map_eq_some_iff.mp last
  have there := mem_filter.mp (mem_of_getLast? found)
  exact ⟨k,mem_ownOrder.mp there.1,(of_decide_eq_true there.2).1⟩

def Clean : Json ν → Prop
  | .arr items => ∀ item ∈ items, Clean item
  | .obj fields => ∀ name v, kept fields name = some v → name ∉ dangerousKeys ∧ Clean v
  | _ => True
decreasing_by
  · decreasing_tactic
  · obtain ⟨k,mem,_⟩ := kept_mem ‹_›
    exact field_smaller mem

def Plain (text : String) : Prop := ∀ c ∈ text.toList, c ∉ markup ∧ isControl c = false

def Safe (key : String) : Prop := key ∉ dangerousKeys ∧ Plain key

theorem stripTags_same (plain : '<' ∉ text) : stripTags false text = text := by
  induction text with
  | nil => rfl
  | cons c rest ih =>
    rw [mem_cons,not_or] at plain
    simp [stripTags,Ne.symm plain.1,ih plain.2]

theorem trim_trim (text : CharText) : trim (trim text) = trim text := by
  have front : (trim text).dropWhile strWhiteSpace = trim text := by
    cases shown : trim text with
    | nil => rfl
    | cons c rest =>
      obtain ⟨tail,whole⟩ : trim text <+: text.dropWhile strWhiteSpace := rdropWhile_prefix ..
      have first := head?_dropWhile_not strWhiteSpace text
      rw [← whole,shown] at first
      exact dropWhile_cons_of_neg (by simpa using first)
  rw [trim,front,trim,reverse_reverse,dropWhile_idempotent]

theorem sanitizeString_plain (value : String) : Plain (sanitizeString value) := by
  intro c mem
  rw [sanitizeString,String.toList_ofList,trim,mem_reverse] at mem
  have inner := mem_filter.mp ((dropWhile_sublist _).subset (mem_reverse.mp ((dropWhile_sublist _).subset mem)))
  exact ⟨of_decide_eq_true (mem_filter.mp inner.1).2,by simpa using inner.2⟩

theorem sanitizeString_same (value : String) : sanitizeString (sanitizeString value) = sanitizeString value := by
  have plain := sanitizeString_plain value
  rw [sanitizeString,stripTags_same (fun there => (plain _ there).1 (by decide)),filter_eq_self.mpr (fun c there => by simpa using (plain c there).1),
    stripControlChars,filter_eq_self.mpr (fun c there => by simpa using (plain c there).2)]
  rw [sanitizeString,String.toList_ofList,trim_trim]

theorem sanitized_get : (collect Prod.fst Prod.snd (((ownOrder fields).filter (·.1 ∉ dangerousKeys)).map (fun f =>
    (sanitizeString f.1,sanitizeValue f.2)))).get name = (kept fields name).map sanitizeValue := by
  simp [get_collect,kept,filter_map,filter_filter,getLast?_map,Function.comp_def]

theorem everywhere_obj : Everywhere text key (sanitizeValue (.obj fields)) ↔
    ∀ name v, kept fields name = some v → key name ∧ Everywhere text key (sanitizeValue v) := by
  simp only [sanitizeValue_obj,Everywhere,mem_ownOrder,← get_exact,sanitized_get,Option.map_eq_some_iff,forall_exists_index,and_imp,forall_apply_eq_imp_iff₂]

theorem everywhere_clean (value : Json ν) : Everywhere Plain Safe (sanitizeValue value) ↔ Clean value := by
  induction value using sanitizeValue.induct with
  | case1 s => simp [sanitizeValue,Everywhere,Clean,sanitizeString_plain]
  | case2 items ih =>
    simp only [sanitizeValue,Everywhere,Clean,forall_mem_map]
    exact forall₂_congr ih
  | case3 fields ih =>
    rw [everywhere_obj,Clean]
    refine forall₂_congr fun name v => forall_congr' fun last => ?_
    obtain ⟨k,mem,rfl⟩ := kept_mem last
    rw [ih ⟨_,mem_ownOrder.mpr mem⟩,Safe,and_iff_left (sanitizeString_plain k)]
  | case4 value => cases value <;> simp_all [sanitizeValue,Everywhere,Clean]

theorem Clean.settled {value : Json ν} (clean : Clean value) : sanitizeValue (sanitizeValue value) = sanitizeValue value := by
  induction value using sanitizeValue.induct with
  | case1 s => simp [sanitizeValue,sanitizeString_same]
  | case2 items ih =>
    simp only [sanitizeValue,Clean,map_map,Json.arr.injEq,map_inj_left] at clean ⊢
    exact fun item mem => ih item mem (clean item mem)
  | case3 fields ih =>
    rw [Clean] at clean
    rw [sanitizeValue_obj]
    generalize made : (collect Prod.fst Prod.snd _ : InsertionMap String (Json ν)) = m
    have settled : ∀ f ∈ m.entries, f.1 ∉ dangerousKeys ∧ (sanitizeString f.1,sanitizeValue f.2) = f := by
      rintro ⟨name,w⟩ mem
      rw [← get_exact,← made,sanitized_get,Option.map_eq_some_iff] at mem
      obtain ⟨v,last,rfl⟩ := mem
      obtain ⟨k,mem,rfl⟩ := kept_mem last
      exact ⟨(clean _ v last).1,Prod.ext (sanitizeString_same k) (ih ⟨_,mem_ownOrder.mpr mem⟩ (clean _ v last).2)⟩
    have distinct : ((ownOrder m.entries).map Prod.fst).Nodup := ((ownOrder_perm m.entries).map _).nodup_iff.mpr m.distinct
    rw [sanitizeValue_obj,ownOrder_settled,filter_eq_self.mpr (fun f mem => by simpa using (settled f (mem_ownOrder.mp mem)).1),
      (map_congr_left (fun f mem => (settled f (mem_ownOrder.mp mem)).2)).trans (map_id _),collect_entries distinct]
    refine congrArg Json.obj (Eq.trans ?_ (ownOrder_settled m.entries))
    exact congrArg ownOrder (map_id _)
  | case4 value => cases value <;> simp_all [sanitizeValue]

theorem sanitized_exactly_when_clean (value : Json ν) : (Everywhere Plain Safe (sanitizeValue value) ∧
    sanitizeValue (sanitizeValue value) = sanitizeValue value) ↔ Clean value := by
  rw [everywhere_clean]
  exact and_iff_left_of_imp Clean.settled

-- The `;` hides the key from the filter and is then taken out of it.
theorem hidden_key_survives : ¬ Everywhere Plain Safe (sanitizeValue (.obj [("construct;or",.null)] : Json Nat)) := by
  rw [everywhere_obj]
  intro safe
  exact (safe "constructor" .null (by decide +kernel)).1.1 (by decide)

-- An index is listed first, wherever it stands: here the other field has the last word on the name.
example : kept [("1;",.obj [("construct;or",.null)]),("1",.num 0)] "1" = some (.obj [("construct;or",.null)] : Json Nat) := by
  decide +kernel

end StellarPriceOracle.Sanitization
