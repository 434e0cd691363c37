import Mathlib.Algebra.Ring.Int.Defs
import StellarPriceOracle.AuditVerifier

namespace StellarPriceOracle.VerifierAgreement
open AuditChain AuditVerifier Json Guarded
open List

@[simp] def Illegible {ν : Type} [ToString ν] (value : Json ν) : Prop := Throws value.text

theorem plusOne_throws [Zero ν] [One ν] [Add ν] [ToString ν] (value : Json ν) : Throws value.plusOne ↔ Illegible value := by
  cases value <;> simp [plusOne,text]

theorem shown_throws [ToString ν] (value : Option (Json ν)) : Throws (shown value) ↔ ∃ held ∈ value, Illegible held := by
  cases value <;> simp [shown]

section
variable {ν : Type} [DecidableEq ν] [ToString ν] {v : Visit ν}

theorem reportLink_throws : Throws (reportLink v) ↔ brokenLink v.previous v.entry = true ∧ Illegible v.writer := by
  rw [reportLink,failIf_throws,throws_bind_each (P := False) (by simp),or_false]
  rfl

theorem reportAnchor_throws : Throws (reportAnchor entries v) ↔
    unanchored entries v.previous v.entry v.index = true ∧ Illegible v.writer := by
  rw [reportAnchor,failIf_throws,throws_bind_each (P := False) (by simp),or_false]
  rfl
end

section
variable {ν : Type} [DecidableEq ν] [Zero ν] [One ν] [Add ν] [ToString ν]
variable (crypto : Crypto ν) (secrets : List String)

-- Both return the same verdict, and name the same first entry of an invalid log.
def Agrees (report : Except TypeError Report) (verdict : Except TypeError Verdict) : Prop :=
  ∃ r d, report = .ok r ∧ verdict = .ok d ∧ (r.valid = true ↔ d.valid = true) ∧
    (r.valid = false → r.findings.head?.map Finding.index = d.firstInvalidIndex.map Int.ofNat)

-- `previous.seq + 1` is asked for and throws.
def Unsummable (v : Visit ν) : Prop :=
  ∃ before seq, v.previous.bind AuditEntry.number = some before ∧ v.entry.number = some seq ∧ Illegible before

def Unsigned (entry : AuditEntry ν) : Prop := expected crypto secrets entry = none

def Forged (entry : AuditEntry ν) : Prop :=
  ∃ mac, expected crypto secrets entry = some mac ∧ entry.hmac ≠ some (.str mac)

def Unreportable (entries : List (AuditEntry ν)) (v : Visit ν) : Prop :=
  v.entry.hmac.any isString = true ∧
    ((brokenLink v.previous v.entry = true ∧ Illegible v.writer) ∨
      (Unsummable v ∨ (sequenceGap v.previous v.entry = .ok true ∧ (Illegible v.writer ∨ ∃ seq ∈ v.entry.seq, Illegible seq))) ∨
      ((Unsigned crypto secrets v.entry ∧ Illegible (orElse (.str "(current)") v.entry.keyId)) ∨
        (Forged crypto secrets v.entry ∧ Illegible v.writer)) ∨
      (unanchored entries v.previous v.entry v.index = true ∧ Illegible v.writer))

-- No entry is unreportable, and the first that is not sound can be added to.
def Legible (entries : List (AuditEntry ν)) : Prop :=
  (∀ v ∈ visits entries, ¬ Unreportable crypto secrets entries v) ∧
    ∀ earlier v later, visits entries = earlier ++ v :: later →
      (∀ u ∈ earlier, Sound (expected crypto secrets) entries u) → brokenLink v.previous v.entry = false → ¬ Unsummable v

variable {crypto secrets} {entries : List (AuditEntry ν)} {v : Visit ν}

theorem sequenceGap_throws : Throws (sequenceGap v.previous v.entry) ↔ Unsummable v := by
  unfold sequenceGap Unsummable
  cases before : v.previous.bind AuditEntry.number with
  | none => simp
  | some =>
    cases seq : v.entry.number with
    | none => simp
    | some => simp [throws_bind_each (P := False),plusOne_throws]

theorem summed (skipped : sequenceGap v.previous v.entry = .ok true) : ¬ ∃ before ∈ v.previous.bind AuditEntry.seq, Illegible before := by
  rintro ⟨before,held,illegible⟩
  have summable : ¬ Unsummable v := by
    rw [← sequenceGap_throws,skipped]
    simp
  refine summable ?_
  unfold sequenceGap at skipped
  split at skipped
  · rename_i before' seq got number
    refine ⟨before',seq,got,number,?_⟩
    obtain ⟨previous,here,counted⟩ := Option.bind_eq_some_iff.mp got
    have same : previous.seq = some before' := (Option.filter_eq_some_iff.mp counted).1
    rw [here,Option.bind_some,same] at held
    cases held
    exact illegible
  · cases skipped

theorem reportGap_throws : Throws (reportGap v) ↔ Unsummable v ∨
    (sequenceGap v.previous v.entry = .ok true ∧ (Illegible v.writer ∨ ∃ seq ∈ v.entry.seq, Illegible seq)) := by
  have message : Throws (do
      let writer ← v.writer.text
      let seq ← shown v.entry.seq
      let before ← shown (v.previous.bind AuditEntry.seq)
      .ok ("entry " ++ toString v.index ++ " (" ++ writer ++ ") seq " ++ seq ++ " follows " ++ before)) ↔
      Illegible v.writer ∨ (∃ seq ∈ v.entry.seq, Illegible seq) ∨ ∃ before ∈ v.previous.bind AuditEntry.seq, Illegible before := by
    rw [throws_bind_each]
    · rfl
    · intro writer
      rw [throws_bind_each,shown_throws]
      intro seq
      rw [throws_bind_each (P := False) (by simp),shown_throws,or_false]
  rw [reportGap,throws_bind,sequenceGap_throws]
  refine or_congr Iff.rfl ?_
  constructor
  · rintro ⟨_,skipped,thrown⟩
    obtain ⟨rfl,failing⟩ := failIf_throws.mp thrown
    rcases message.mp failing with writer | seq | before
    · exact ⟨skipped,.inl writer⟩
    · exact ⟨skipped,.inr seq⟩
    · exact absurd before (summed skipped)
  · rintro ⟨skipped,illegible⟩
    refine ⟨true,skipped,failIf_throws.mpr ⟨rfl,message.mpr ?_⟩⟩
    rcases illegible with writer | seq
    · exact .inl writer
    · exact .inr (.inl seq)

omit [One ν] [Add ν] in
theorem reportMac_throws (signed : v.entry.hmac = some (.str hmac)) : Throws (reportMac crypto secrets v hmac) ↔
    (Unsigned crypto secrets v.entry ∧ Illegible (orElse (.str "(current)") v.entry.keyId)) ∨
      (Forged crypto secrets v.entry ∧ Illegible v.writer) := by
  unfold reportMac Unsigned Forged expected
  cases (secretOf crypto secrets v.entry).filter (fun secret => secret ≠ "") with
  | none =>
    simp only [failIf_throws]
    rw [throws_bind_each (P := False) (by simp)]
    simp
  | some secret =>
    have differ : (!safeEqual (mac crypto secret v.entry) hmac) = true ↔ hmac ≠ mac crypto secret v.entry := by
      rw [Bool.not_eq_true',← Bool.not_eq_true,safeEqual_exact,eq_comm]
    simp only [failIf_throws,differ]
    rw [throws_bind_each (P := False) (by simp)]
    simp [signed]

theorem report_throws : Throws (report crypto secrets entries v) ↔ Unreportable crypto secrets entries v := by
  unfold report Unreportable
  split
  · rename_i hmac signed
    have parts : Throws (do
        let link ← reportLink v
        let gap ← reportGap v
        let mac ← reportMac crypto secrets v hmac
        let anchor ← reportAnchor entries v
        .ok (link ++ gap ++ mac ++ anchor)) ↔ Throws (reportLink v) ∨ Throws (reportGap v) ∨
          Throws (reportMac crypto secrets v hmac) ∨ Throws (reportAnchor entries v) := by
      rw [throws_bind_each]
      intro _
      rw [throws_bind_each]
      intro _
      rw [throws_bind_each]
      intro _
      rw [throws_bind_each (P := False) (by simp),or_false]
    rw [parts,reportLink_throws,reportGap_throws,reportMac_throws signed,reportAnchor_throws]
    simp [signed,isString]
  · rename_i unsigned
    simp only [throws_ok,false_iff]
    rintro ⟨mem,_⟩
    obtain ⟨hmac,signed⟩ := string_exact.mp mem
    exact unsigned hmac signed

theorem entryHolds_throws {secrets : AuditSecrets} : Throws (entryHolds crypto secrets entries v.previous v.entry v.index) ↔
    brokenLink v.previous v.entry = false ∧ Unsummable v := by
  unfold entryHolds
  cases brokenLink v.previous v.entry with
  | true => simp
  | false =>
    simp only [Bool.false_eq_true,if_false,true_and]
    rw [throws_bind_each (P := False),sequenceGap_throws,or_false]
    intro gap
    cases gap with
    | true => simp
    | false =>
      simp only [Bool.false_eq_true,if_false,iff_false]
      split
      · simp
      · split <;> simp

theorem legible_reported (legible : ∀ v ∈ vs, ¬ Unreportable crypto secrets entries v) :
    ∃ found, collect (report crypto secrets entries) vs = .ok found := by
  rw [← not_throws,collect_throws]
  rintro ⟨v,mem,thrown⟩
  exact legible v mem (report_throws.mp thrown)

-- Up to the first unsound entry both programs see the same.
theorem first_finding (exact : ∀ v, holds v = .ok true ↔ Sound (expected crypto secrets) entries v)
    (reportable : ∀ v ∈ vs, ¬ Unreportable crypto secrets entries v)
    (returns : ∀ earlier v later, vs = earlier ++ v :: later →
      (∀ u ∈ earlier, Sound (expected crypto secrets) entries u) → ¬ Throws (holds v)) :
    ∃ got invalid, collect (report crypto secrets entries) vs = .ok got ∧ firstFailing holds vs = .ok invalid ∧
      got.head?.map Finding.index = invalid.map Int.ofNat := by
  induction vs with
  | nil => exact ⟨[],none,rfl,rfl,rfl⟩
  | cons v rest ih =>
    obtain ⟨_,collected⟩ := legible_reported reportable
    obtain ⟨got,later,reported,remaining,rfl⟩ := collect_cons.mp collected
    obtain ⟨held,checked⟩ := not_throws.mp (returns [] v rest rfl (by simp))
    cases got with
    | nil =>
      have sound : Sound (expected crypto secrets) entries v := report_nothing.mp reported
      obtain ⟨got,invalid,same,failing,agree⟩ := ih
        (fun u mem => reportable u (mem_cons_of_mem _ mem))
        (fun earlier u later split before => returns (v :: earlier) u later (by rw [split]; rfl)
          (forall_mem_cons.mpr ⟨sound,before⟩))
      refine ⟨got,invalid,?_,?_,agree⟩
      · rw [collected,← same,remaining,nil_append]
      · simp only [firstFailing,(exact v).mpr sound,ok_bind]
        exact failing
    | cons f =>
      have failed : held = false := by
        rw [Bool.eq_false_iff]
        rintro rfl
        rw [report_nothing.mpr ((exact v).mp checked)] at reported
        cases reported
      refine ⟨_,some v.index,collected,?_,?_⟩
      · simp [firstFailing,checked,failed,ok_bind]
      · simp [report_index reported f mem_cons_self]

omit [One ν] [Add ν] [ToString ν] in
theorem secretOf_same (crypto : Crypto ν) (retired : List String) (current : String) (entry : AuditEntry ν) :
    secretOf crypto (retired ++ [current]) entry = secretFor (loadAuditSecrets crypto retired current) entry.keyId := by
  have ring : keyring crypto (retired ++ [current]) = (loadAuditSecrets crypto retired current).keyring := by
    rw [keyring,foldl_map]
    rfl
  have last : AuditVerifier.current crypto (retired ++ [current]) = some (loadAuditSecrets crypto retired current).currentKeyId := by
    simp [AuditVerifier.current,loadAuditSecrets]
  rw [secretOf,secretFor,ring,last]
  by_cases named : entry.keyId.any truthy = true
  · simp [named]
  · simp [named]

omit [One ν] [Add ν] [ToString ν] in
theorem expected_same (crypto : Crypto ν) (retired : List String) (current : String) :
    expected crypto (retired ++ [current]) = signature crypto (loadAuditSecrets crypto retired current) := by
  funext entry
  simp [expected,signature,secretOf_same,mac,hmacWith,canonicalPayload_same]

theorem verifyChain_plain (crypto : Crypto ν) (secrets : List String) (entries : List (AuditEntry ν)) :
    verifyChain crypto secrets [] entries = (collect (report crypto secrets entries) (visits entries)).map
      (fun got => ⟨got.isEmpty,entries.length,(byWriter entries).entries.length,got⟩) := by
  rw [verifyChain_visits]
  cases collect (report crypto secrets entries) (visits entries) with
  | error => rfl
  | ok => simp [collect,ok_bind,Except.map]

-- The tool and the service agree on exactly the logs whose findings can be written out.
theorem agreement_exact (crypto : Crypto ν) (retired : List String) (current : String) (entries : List (AuditEntry ν)) :
    Agrees (verifyChain crypto (retired ++ [current]) [] entries)
        (verifyAuditLogChain crypto (loadAuditSecrets crypto retired current) entries) ↔
      Legible crypto (retired ++ [current]) entries := by
  have sound (v : Visit ν) : entryHolds crypto (loadAuditSecrets crypto retired current) entries v.previous v.entry v.index = .ok true ↔
      Sound (expected crypto (retired ++ [current])) entries v := by
    rw [entryHolds_exact,expected_same]
  rw [verifyChain_plain,verifyAuditLogChain_visits]
  constructor
  · rintro ⟨r,d,reported,verified,_⟩
    constructor
    · intro v listed unreportable
      have thrown : Throws (collect (report crypto (retired ++ [current]) entries) (visits entries)) :=
        collect_throws.mpr ⟨v,listed,report_throws.mpr unreportable⟩
      obtain ⟨failure,failed⟩ := thrown
      rw [failed] at reported
      cases reported
    · intro earlier v later split before linked unsummable
      obtain ⟨failure,failed⟩ := firstFailing_throws (fun u listed => (sound u).mpr (before u listed))
        (entryHolds_throws.mpr ⟨linked,unsummable⟩)
      rw [split,failed] at verified
      cases verified
  · rintro ⟨reportable,summable⟩
    obtain ⟨found,invalid,collected,failing,first⟩ := first_finding sound reportable
      (fun earlier v later split before thrown => by
        obtain ⟨linked,unsummable⟩ := entryHolds_throws.mp thrown
        exact summable earlier v later split before linked unsummable)
    refine ⟨_,_,by rw [collected]; rfl,by rw [failing]; rfl,?_,fun _ => first⟩
    cases found <;> cases invalid <;> simp at first ⊢

end

namespace Sample
def hostile : AuditEntry Int :=
  ⟨some (.str "auth.success"),none,none,none,none,some (.obj [("toString",.num 0)]),none,none,none,none,none,none,some (.str "f00d")⟩
end Sample

open Sample

theorem hostile_key_disagrees :
    verifyChain AuditChain.Sample.crypto ["secret"] [] [hostile] = .error .cannotConvertObject ∧
    verifyAuditLogChain AuditChain.Sample.crypto (loadAuditSecrets AuditChain.Sample.crypto [] "secret") [hostile] = .ok ⟨false,some 0⟩ ∧
    ¬ Agrees (verifyChain AuditChain.Sample.crypto ["secret"] [] [hostile])
      (verifyAuditLogChain AuditChain.Sample.crypto (loadAuditSecrets AuditChain.Sample.crypto [] "secret") [hostile]) := by
  have thrown : verifyChain AuditChain.Sample.crypto ["secret"] [] [hostile] = .error .cannotConvertObject := by rfl
  refine ⟨thrown,by rfl,?_⟩
  rintro ⟨r,d,returned,_⟩
  cases thrown.symm.trans returned

end StellarPriceOracle.VerifierAgreement
