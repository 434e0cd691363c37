import StellarPriceOracle.Library.Guarded
import StellarPriceOracle.Library.InsertionMap
import StellarPriceOracle.Library.Json

namespace StellarPriceOracle.AuditChain
open Json Guarded
open List
open Prod (fst mk snd)
open InsertionMap (get_exact get_set_ne values)

-- api/src/governance/audit-logger.ts. An entry has the fields that the chain reads; an absent one is `none`.
structure AuditEntry (ν : Type) where
  (event timestamp ip userAgent apiKeyPrefix keyId writerId seq prevHmac details : Option (Json ν))
  (prevState newState hmac : Option (Json ν))
  deriving DecidableEq

abbrev Payload (ν : Type) := List (String × Json ν)

-- `fingerprint` is cut from the SHA-256 of a secret, `hmac` is 64 hexadecimal digits.
structure Crypto (ν : Type) where
  fingerprint : String → String
  hmac : String → Payload ν → String
  filled : ∀ secret payload, hmac secret payload ≠ ""

abbrev Keyring := InsertionMap String String

structure AuditSecrets where
  keyring : Keyring
  currentKeyId : String

abbrev Member (ν : Type) := AuditEntry ν × Nat

abbrev Groups (ν : Type) := InsertionMap (Key ν) (List (Member ν))

structure Verdict where
  valid : Bool
  firstInvalidIndex : Option Nat
  deriving DecidableEq

section
variable {ν : Type} [DecidableEq ν] [Zero ν] [One ν] [Add ν] [ToString ν]
variable (crypto : Crypto ν) (secrets : AuditSecrets)

def loadAuditSecrets (retired : List String) (current : String) : AuditSecrets :=
  ⟨(retired ++ [current]).foldl (fun keyring secret => keyring.set (crypto.fingerprint secret) secret) .empty,
    crypto.fingerprint current⟩

-- The keys of the ring are strings.
def keyringGet (keyring : Keyring) : Json ν → Option String
  | .str keyId => keyring.get keyId
  | _ => none

def secretFor (keyId : Option (Json ν)) : Option String :=
  if ¬ keyId.any truthy then secrets.keyring.get secrets.currentKeyId else keyId.bind (keyringGet secrets.keyring)

def field (name : String) (value : Option (Json ν)) : Payload ν := (value.map (fun v => (name,v))).toList

def canonicalPayload (entry : AuditEntry ν) (previousHmac : Json ν) : Payload ν :=
  field "event" entry.event ++ field "timestamp" entry.timestamp ++ field "ip" entry.ip ++
    field "userAgent" entry.userAgent ++ field "apiKeyPrefix" entry.apiKeyPrefix ++ field "keyId" entry.keyId ++
    field "writerId" entry.writerId ++ field "seq" entry.seq ++ field "details" entry.details ++
    field "prevState" entry.prevState ++ field "newState" entry.newState ++ [("prevHmac",previousHmac)]

def hmacWith (secret : String) (entry : AuditEntry ν) (previousHmac : Json ν) : String :=
  crypto.hmac secret (canonicalPayload entry previousHmac)

namespace AuditEntry
def prev (entry : AuditEntry ν) : Json ν := orElse (.str "") entry.prevHmac
def writer (entry : AuditEntry ν) : Json ν := orElse (.str "legacy") entry.writerId

def number (entry : AuditEntry ν) : Option (Json ν) := entry.seq.filter (fun value => value ≠ .null)
end AuditEntry

-- The map keeps the last index of a value.
def hmacIndex (entries : List (AuditEntry ν)) (value : Json ν) : Option Nat :=
  entries.zipIdx.foldl (fun found m => if same m.1.hmac (some value) then some m.2 else found) none

def joinGroup (groups : Groups ν) (m : Member ν) : Groups ν :=
  let writer := key m.1.writer m.2
  groups.set writer ((groups.get writer).getD [] ++ [m])

def byWriter (entries : List (AuditEntry ν)) : Groups ν := entries.zipIdx.foldl joinGroup .empty

def brokenLink (previous : Option (AuditEntry ν)) (entry : AuditEntry ν) : Bool :=
  previous.any (fun before => !same (some entry.prev) before.hmac)

def sequenceGap (previous : Option (AuditEntry ν)) (entry : AuditEntry ν) : Except TypeError Bool :=
  match previous.bind AuditEntry.number,entry.number with
  | some before,some seq => do
    let expected ← before.plusOne
    .ok (!same (some seq) (some expected))
  | _,_ => .ok false

def unanchored (entries : List (AuditEntry ν)) (previous : Option (AuditEntry ν)) (entry : AuditEntry ν) (index : Nat) : Bool :=
  previous.isNone && entry.prev ≠ .str "" && (hmacIndex entries entry.prev).all (fun anchor => anchor > index) && index ≠ 0

def entryHolds (entries : List (AuditEntry ν)) (previous : Option (AuditEntry ν)) (entry : AuditEntry ν) (index : Nat) :
    Except TypeError Bool :=
  if brokenLink previous entry then .ok false else do
    if ← sequenceGap previous entry then .ok false else
      match (secretFor secrets entry.keyId).filter (fun secret => secret ≠ "") with
      | none => .ok false
      | some secret =>
        if entry.hmac ≠ some (.str (hmacWith crypto secret entry entry.prev)) then .ok false
        else .ok (!unanchored entries previous entry index)

def verifyGroup (entries : List (AuditEntry ν)) : Option (AuditEntry ν) → List (Member ν) → Except TypeError (Option Nat)
  | _,[] => .ok none
  | previous,(entry,index) :: rest => do
    if ← entryHolds crypto secrets entries previous entry index then verifyGroup entries (some entry) rest
    else .ok (some index)

def verifyGroups (entries : List (AuditEntry ν)) : List (List (Member ν)) → Except TypeError (Option Nat)
  | [] => .ok none
  | group :: rest => do
    match ← verifyGroup crypto secrets entries none group with
    | some index => .ok (some index)
    | none => verifyGroups entries rest

def verifyAuditLogChain (entries : List (AuditEntry ν)) : Except TypeError Verdict := do
  let invalid ← verifyGroups crypto secrets entries (byWriter entries).values
  .ok ⟨invalid.isNone,invalid⟩

-- The predecessor is the entry before it in its group, if that has an HMAC.
structure Visit (ν : Type) where
  writer : Json ν
  previous : Option (AuditEntry ν)
  entry : AuditEntry ν
  index : Nat

def isString : Json ν → Bool
  | .str _ => true
  | _ => false

def predecessor (entry : AuditEntry ν) : Option (AuditEntry ν) := if entry.hmac.any isString then some entry else none

def groupVisits (writer : Json ν) : Option (AuditEntry ν) → List (Member ν) → List (Visit ν)
  | _,[] => []
  | previous,(entry,index) :: rest => ⟨writer,previous,entry,index⟩ :: groupVisits writer (predecessor entry) rest

def visits (entries : List (AuditEntry ν)) : List (Visit ν) :=
  (byWriter entries).entries.flatMap (fun group => groupVisits group.1.value none group.2)

def firstFailing (holds : Visit ν → Except TypeError Bool) : List (Visit ν) → Except TypeError (Option Nat)
  | [] => .ok none
  | v :: rest => do
    if ← holds v then firstFailing holds rest else .ok (some v.index)

def signature (entry : AuditEntry ν) : Option String :=
  ((secretFor secrets entry.keyId).filter (fun secret => secret ≠ "")).map
    (fun secret => hmacWith crypto secret entry entry.prev)

def signedPair (entry : AuditEntry ν) : Option (String × Payload ν) :=
  ((secretFor secrets entry.keyId).filter (fun secret => secret ≠ "")).map
    (fun secret => (secret,canonicalPayload entry entry.prev))

structure Sound (expected : AuditEntry ν → Option String) (entries : List (AuditEntry ν)) (v : Visit ν) : Prop where
  linked : brokenLink v.previous v.entry = false
  contiguous : sequenceGap v.previous v.entry = .ok false
  signed : ∃ mac, expected v.entry = some mac ∧ v.entry.hmac = some (.str mac)
  anchored : unanchored entries v.previous v.entry v.index = false

def Follows (a b : AuditEntry ν) : Prop := brokenLink (some a) b = false ∧ sequenceGap (some a) b = .ok false

def CollisionFree (pairs : List (String × Payload ν)) : Prop :=
  ∀ p ∈ pairs, ∀ q ∈ pairs, crypto.hmac p.1 p.2 = crypto.hmac q.1 q.2 → p = q

structure SignedWith (entry : AuditEntry ν) (pair : String × Payload ν) : Prop where
  payload : pair.2 = canonicalPayload entry entry.prev
  hmac : entry.hmac = some (.str (crypto.hmac pair.1 pair.2))

def members (entries : List (AuditEntry ν)) (writer : Key ν) : List (Member ν) :=
  entries.zipIdx.filter (fun m => key m.1.writer m.2 = writer)
end

section
variable {ν : Type}

theorem loadAuditSecrets_current (crypto : Crypto ν) (retired : List String) (current : String) :
    (loadAuditSecrets crypto retired current).keyring.get (loadAuditSecrets crypto retired current).currentKeyId = some current := by
  simp [loadAuditSecrets]

theorem string_exact {value : Option (Json ν)} : value.any isString = true ↔ ∃ s, value = some (.str s) := by
  cases value with
  | none => simp
  | some held => cases held <;> simp [isString]

theorem field_lookup :
    (field name value).lookup k = if k = name then value else none := by
  cases value with
  | none => simp [field]
  | some =>
    by_cases here : k = name
    · simp [field,here]
    · simp [field,lookup_cons,here,beq_eq_false_iff_ne.mpr here]

theorem payload_parts {e f : AuditEntry ν} {p q : Json ν} (same : canonicalPayload e p = canonicalPayload f q) :
    e.writerId = f.writerId ∧ e.seq = f.seq ∧ p = q := by
  have read (k : String) := congrArg (lookup k) same
  simp only [canonicalPayload,lookup_append,field_lookup] at read
  refine ⟨?_,?_,?_⟩
  · simpa [lookup_cons] using read "writerId"
  · simpa [lookup_cons] using read "seq"
  · simpa [lookup_cons] using read "prevHmac"

theorem signed_commits {crypto : Crypto ν} {pairs : List (String × Payload ν)} {e f : AuditEntry ν} {p q : String × Payload ν}
    (ideal : CollisionFree crypto pairs) (first : SignedWith crypto e p) (second : SignedWith crypto f q) (mine : p ∈ pairs)
    (yours : q ∈ pairs) (same : e.hmac = f.hmac) : e.writerId = f.writerId ∧ e.seq = f.seq ∧ e.prev = f.prev := by
  rw [first.hmac,second.hmac,Option.some.injEq,Json.str.injEq] at same
  cases ideal p mine q yours same
  exact payload_parts (first.payload.symm.trans second.payload)

theorem groupVisits_members (writer : Json ν) (previous : Option (AuditEntry ν)) (group : List (Member ν)) :
    (groupVisits writer previous group).map (fun v => (v.entry,v.index)) = group := by
  induction group generalizing previous with
  | nil => rfl
  | cons _ _ ih => rw [groupVisits,map_cons,ih]

theorem last_set (p : Member ν → Bool) (init : Option Nat) (ms : List (Member ν)) :
    ms.foldl (fun got m => if p m then some m.2 else got) init = ((ms.filter p).getLast?.map snd).or init := by
  induction ms generalizing init with
  | nil => rfl
  | cons m rest ih =>
    rw [foldl_cons,ih]
    cases here : p m with
    | false => simp [here]
    | true =>
      rw [filter_cons_of_pos here,getLast?_cons]
      cases (rest.filter p).getLast? <;> simp

theorem firstFailing_append :
    firstFailing holds (first ++ second) = (do
      match ← firstFailing holds first with
      | some index => .ok (some index)
      | none => firstFailing holds second) := by
  induction first with
  | nil => rfl
  | cons v _ ih =>
    simp only [cons_append,firstFailing,ih]
    cases holds v with
    | error => rfl
    | ok held => cases held <;> rfl

theorem firstFailing_none {holds : Visit ν → Except TypeError Bool} {vs : List (Visit ν)} :
    firstFailing holds vs = .ok none ↔ ∀ v ∈ vs, holds v = .ok true := by
  induction vs with
  | nil => simp [firstFailing]
  | cons v _ ih =>
    rw [forall_mem_cons,← ih]
    simp only [firstFailing]
    cases holds v with
    | error => simp [bind,Except.bind]
    | ok held => cases held <;> simp [ok_bind]

theorem firstFailing_throws {holds : Visit ν → Except TypeError Bool} {earlier : List (Visit ν)} {v : Visit ν}
    (before : ∀ u ∈ earlier, holds u = .ok true) (thrown : Throws (holds v)) :
    Throws (firstFailing holds (earlier ++ v :: later)) := by
  obtain ⟨_,failed⟩ := thrown
  rw [firstFailing_append,firstFailing_none.mpr before,ok_bind,firstFailing,failed]
  exact throws_error
end

section
variable {ν : Type} [DecidableEq ν]

theorem joined (groups : Groups ν) (ms : List (Member ν)) (writer : Key ν) :
    ((ms.foldl joinGroup groups).get writer).getD [] =
      (groups.get writer).getD [] ++ ms.filter (fun m => key m.1.writer m.2 = writer) := by
  induction ms generalizing groups with
  | nil => simp
  | cons m _ ih =>
    rw [foldl_cons,ih]
    by_cases own : key m.1.writer m.2 = writer
    · subst own
      simp [joinGroup]
    · have other : (joinGroup groups m).get writer = groups.get writer := get_set_ne (Ne.symm own)
      simp [other,own]

theorem byWriter_members (entries : List (AuditEntry ν)) (writer : Key ν) :
    ((byWriter entries).get writer).getD [] = members entries writer := by
  rw [byWriter,joined]
  simp [members]

theorem hmacIndex_last (entries : List (AuditEntry ν)) (value : Json ν) :
    hmacIndex entries value = (entries.zipIdx.filter (fun m => same m.1.hmac (some value))).getLast?.map snd := by
  rw [hmacIndex,last_set,Option.or_none]

theorem anchor_found {entries : List (AuditEntry ν)} {m : Member ν} (anchored : unanchored entries none m.1 m.2 = false) (off : m.2 ≠ 0) (linked : m.1.prev ≠ .str "") :
    ∃ anchor, (anchor ∈ entries.zipIdx ∧ anchor.1.hmac = some m.1.prev) ∧ anchor.2 ≤ m.2 := by
  simp only [unanchored,Option.isNone_none,Bool.true_and,Bool.and_eq_false_iff,decide_eq_false_iff_not,not_not] at anchored
  rcases anchored with (empty | above) | zero
  · exact absurd empty linked
  · rw [hmacIndex_last,← Bool.not_eq_true,Option.all_eq_true] at above
    simp only [Option.map_eq_some_iff,not_forall] at above
    obtain ⟨_,⟨anchor,last,rfl⟩,below⟩ := above
    obtain ⟨mem,hmac⟩ := mem_filter.mp (mem_of_getLast? last)
    simp only [same,decide_eq_true_eq] at hmac
    exact ⟨anchor,⟨mem,hmac.1⟩,by simpa using below⟩
  · exact absurd zero off

theorem member_of {entries : List (AuditEntry ν)} {e : AuditEntry ν} (mem : e ∈ entries) : ∃ i, (e,i) ∈ members entries (key e.writer i) := by
  obtain ⟨i,bound,here⟩ := getElem_of_mem mem
  refine ⟨i,mem_filter.mpr ⟨mk_mem_zipIdx_iff_getElem?.mpr ?_,by simp⟩⟩
  rw [getElem?_eq_getElem bound,here]

theorem mem_visits {entries : List (AuditEntry ν)} {v : Visit ν} :
    v ∈ visits entries ↔ ∃ writer, v ∈ groupVisits writer.value none (members entries writer) := by
  simp only [visits,mem_flatMap,← byWriter_members]
  constructor
  · rintro ⟨⟨writer,group⟩,mem,visited⟩
    refine ⟨writer,?_⟩
    rw [get_exact.mpr mem]
    exact visited
  · rintro ⟨writer,visited⟩
    cases got : (byWriter entries).get writer with
    | none =>
      rw [got] at visited
      cases visited
    | some group =>
      rw [got] at visited
      exact ⟨(writer,group),get_exact.mp got,visited⟩
end

section
variable {ν : Type} [DecidableEq ν] [Zero ν] [One ν] [Add ν] [ToString ν]
variable {crypto : Crypto ν}

theorem entryHolds_exact : entryHolds crypto secrets entries v.previous v.entry v.index = .ok true ↔
    Sound (signature crypto secrets) entries v := by
  constructor
  · intro holds
    unfold entryHolds at holds
    split at holds
    · cases holds
    · rename_i linked
      obtain ⟨_,contiguous,holds⟩ := bind_ok.mp holds
      split at holds
      · cases holds
      · rename_i whole
        split at holds
        · cases holds
        · rename_i secret got
          split at holds
          · cases holds
          · rename_i mac
            refine ⟨by simpa using linked,?_,⟨_,by rw [signature,got]; rfl,by simpa using mac⟩,by simpa using holds⟩
            simpa [whole] using contiguous
  · rintro ⟨linked,contiguous,⟨mac,expected,signed⟩,anchored⟩
    obtain ⟨secret,got,rfl⟩ := Option.map_eq_some_iff.mp expected
    simp only [entryHolds,linked,contiguous,got,signed,anchored]
    simp [ok_bind]

variable {expected : AuditEntry ν → Option String}

theorem Sound.kept (sound : Sound expected entries v) :
    predecessor v.entry = some v.entry := by
  obtain ⟨_,_,signed⟩ := sound.signed
  simp [predecessor,signed,isString]

theorem signed_all {e : AuditEntry ν}
    (sound : ∀ v ∈ visits entries, Sound expected entries v) (mem : e ∈ entries) :
    ∃ mac, expected e = some mac ∧ e.hmac = some (.str mac) := by
  obtain ⟨i,member⟩ := member_of mem
  rw [← groupVisits_members (key e.writer i).value none (members entries _)] at member
  obtain ⟨v,visited,same⟩ := mem_map.mp member
  obtain ⟨rfl,_⟩ := mk.inj same
  exact (sound v (mem_visits.mpr ⟨_,visited⟩)).signed
omit [One ν] [Add ν] [ToString ν] in
theorem signature_signed {e : AuditEntry ν} {mac : String} (due : signature crypto secrets e = some mac)
    (signed : e.hmac = some (.str mac)) : ∃ pair, signedPair secrets e = some pair ∧ SignedWith crypto e pair := by
  obtain ⟨secret,got,rfl⟩ := Option.map_eq_some_iff.mp due
  exact ⟨(secret,canonicalPayload e e.prev),by rw [signedPair,got]; rfl,rfl,signed⟩

omit [One ν] [Add ν] [ToString ν] in
theorem signed_signature {e : AuditEntry ν} {pair : String × Payload ν} (got : signedPair secrets e = some pair)
    (signed : SignedWith crypto e pair) : ∃ mac, signature crypto secrets e = some mac ∧ e.hmac = some (.str mac) := by
  obtain ⟨_,held,rfl⟩ := Option.map_eq_some_iff.mp got
  exact ⟨_,by rw [signature,held]; rfl,signed.hmac⟩

theorem follows_prev {a b : AuditEntry ν} (after : Follows a b) : a.hmac = some b.prev := by
  have linked := after.1
  simp only [brokenLink,Option.any_some,Bool.not_eq_false',same,decide_eq_true_eq] at linked
  exact linked.1.symm

theorem follows_number {a b : AuditEntry ν} {n m : ν} (after : Follows a b) (first : a.seq = some (.num n))
    (second : b.seq = some (.num m)) : m = n + 1 := by
  have whole := after.2
  simp only [sequenceGap,AuditEntry.number,Option.bind_some,first,second,Option.filter_some] at whole
  simpa [plusOne,ok_bind,same,isObject] using whole

theorem group_linked (writer : Json ν) (previous : Option (AuditEntry ν))
    (group : List (Member ν)) (sound : ∀ v ∈ groupVisits writer previous group, Sound expected entries v) :
    (previous.toList ++ group.map fst).IsChain Follows := by
  induction group generalizing previous with
  | nil => cases previous <;> simp
  | cons m rest ih =>
    rw [groupVisits,forall_mem_cons] at sound
    have kept : predecessor m.1 = some m.1 := sound.1.kept
    have later : (m.1 :: rest.map fst).IsChain Follows := by
      simpa [kept] using ih _ sound.2
    cases previous with
    | none => simpa using later
    | some =>
      rw [Option.toList_some,map_cons,singleton_append,isChain_cons_cons]
      exact ⟨⟨sound.1.linked,sound.1.contiguous⟩,later⟩

theorem group_sound (writer : Json ν) (previous : Option (AuditEntry ν))
    (group : List (Member ν)) (linked : (previous.toList ++ group.map fst).IsChain Follows)
    (signed : ∀ m ∈ group, ∃ mac, expected m.1 = some mac ∧ m.1.hmac = some (.str mac))
    (anchored : ∀ first ∈ group.head?, unanchored entries previous first.1 first.2 = false) :
    ∀ v ∈ groupVisits writer previous group, Sound expected entries v := by
  induction group generalizing previous with
  | nil => simp [groupVisits]
  | cons m rest ih =>
    obtain ⟨mine,others⟩ := forall_mem_cons.mp signed
    have sound : Sound expected entries ⟨writer,previous,m.1,m.2⟩ := by
      cases previous with
      | none => exact ⟨rfl,rfl,mine,anchored m rfl⟩
      | some =>
        obtain ⟨after,_⟩ := isChain_cons_cons.mp linked
        exact ⟨after.1,after.2,mine,anchored m rfl⟩
    have tail : (m.1 :: rest.map fst).IsChain Follows := by
      cases previous with
      | none => exact linked
      | some => exact (isChain_cons_cons.mp linked).2
    rw [groupVisits,forall_mem_cons]
    refine ⟨sound,ih _ ?_ others ?_⟩
    · rw [sound.kept]
      exact tail
    · intro _ _
      rw [sound.kept]
      simp [unanchored]

theorem verifyGroup_visits (writer : Json ν) (previous : Option (AuditEntry ν)) (group : List (Member ν)) :
    verifyGroup crypto secrets entries previous group =
      firstFailing (fun v => entryHolds crypto secrets entries v.previous v.entry v.index) (groupVisits writer previous group) := by
  induction group generalizing previous with
  | nil => rfl
  | cons m _ ih =>
    simp only [verifyGroup,groupVisits,firstFailing]
    cases held : entryHolds crypto secrets entries previous m.1 m.2 with
    | error => rfl
    | ok holds =>
      cases holds with
      | false => rfl
      | true =>
        have kept : predecessor m.1 = some m.1 := (entryHolds_exact (v := ⟨writer,previous,m.1,m.2⟩).mp held).kept
        simp only [ok_bind,kept]
        exact ih (some m.1)

theorem verifyGroups_visits (groups : List (Key ν × List (Member ν))) :
    verifyGroups crypto secrets entries (groups.map snd) =
      firstFailing (fun v => entryHolds crypto secrets entries v.previous v.entry v.index)
        (groups.flatMap (fun group => groupVisits group.1.value none group.2)) := by
  induction groups with
  | nil => rfl
  | cons group _ ih =>
    rw [map_cons,flatMap_cons,firstFailing_append,verifyGroups,verifyGroup_visits group.1.value,ih]

theorem verifyAuditLogChain_visits :
    verifyAuditLogChain crypto secrets entries =
      (firstFailing (fun v => entryHolds crypto secrets entries v.previous v.entry v.index) (visits entries)).map
        (fun invalid => ⟨invalid.isNone,invalid⟩) := by
  rw [verifyAuditLogChain,values,verifyGroups_visits]
  rfl

theorem verified_exact : verifyAuditLogChain crypto secrets entries = .ok ⟨true,none⟩ ↔
    ∀ v ∈ visits entries, Sound (signature crypto secrets) entries v := by
  simp only [← entryHolds_exact,← firstFailing_none]
  rw [verifyAuditLogChain_visits]
  cases firstFailing _ (visits entries) with
  | error => simp [Except.map]
  | ok invalid => cases invalid <;> simp [Except.map]
end

-- For examples: an HMAC that shows the key and the payload.
namespace Sample
def shownField (field : String × Json Int) : String :=
  match field.2 with
  | .str s => field.1 ++ s
  | .num n => field.1 ++ toString n
  | _ => field.1

def crypto : Crypto Int := ⟨id,fun secret payload => "h" ++ secret ++ String.join (payload.map shownField),by
  intro secret payload empty
  have length := congrArg String.length empty
  simp at length⟩
end Sample

end StellarPriceOracle.AuditChain
