import StellarPriceOracle.AuditChain

namespace StellarPriceOracle.AuditVerifier
open AuditChain Json Guarded
open List

-- tools/audit-chain-verifier/verify.mjs.
inductive Code where
  | missingHmac
  | brokenLink
  | sequenceGap
  | unknownKey
  | badHmac
  | unanchoredWriter
  | anchorMissing
  | anchorWriterMismatch
  | anchorSeqMismatch
  deriving DecidableEq

structure Finding where
  index : Int
  code : Code
  message : String
  deriving DecidableEq

structure Report where
  valid : Bool
  (entries writers : Nat)
  findings : List Finding
  deriving DecidableEq

structure Anchor (ν : Type) where
  (writerId seq hmac : Option (Json ν))

def signedFields : List String :=
  ["event","timestamp","ip","userAgent","apiKeyPrefix","keyId","writerId","seq","details","prevState","newState"]

-- `Buffer.from` takes the UTF-8 bytes.
def safeEqual (a b : String) : Bool := a.toUTF8.size == b.toUTF8.size && a.toUTF8.data == b.toUTF8.data

def failIf (condition : Bool) (index : Int) (code : Code) (message : Except TypeError String) : Except TypeError (List Finding) :=
  if condition then message.map (fun text => [⟨index,code,text⟩]) else .ok []

section
variable {ν : Type} [DecidableEq ν] [Zero ν] [One ν] [Add ν] [ToString ν]
variable (crypto : Crypto ν) (secrets : List String)

section
variable (entry : AuditEntry ν)

def read (name : String) : Option (Json ν) :=
  match name with
  | "event" => entry.event
  | "timestamp" => entry.timestamp
  | "ip" => entry.ip
  | "userAgent" => entry.userAgent
  | "apiKeyPrefix" => entry.apiKeyPrefix
  | "keyId" => entry.keyId
  | "writerId" => entry.writerId
  | "seq" => entry.seq
  | "details" => entry.details
  | "prevState" => entry.prevState
  | "newState" => entry.newState
  | _ => none

def canonicalPayload (previousHmac : Json ν) : Payload ν :=
  signedFields.filterMap (fun k => (read entry k).map (fun v => (k,v))) ++ [("prevHmac",previousHmac)]

def keyring : Keyring :=
  (secrets.map (fun s => (crypto.fingerprint s,s))).foldl (fun ring pair => ring.set pair.1 pair.2) .empty

def current : Option String := secrets.getLast?.map crypto.fingerprint

def secretOf : Option String :=
  if entry.keyId.any truthy then entry.keyId.bind (keyringGet (keyring crypto secrets))
  else (current crypto secrets).bind (keyring crypto secrets).get

end

def mac (secret : String) (entry : AuditEntry ν) : String := crypto.hmac secret (canonicalPayload entry entry.prev)

def pushMember (groups : Groups ν) (m : Member ν) : Groups ν :=
  let writer := key m.1.writer m.2
  let groups := if (groups.get writer).isNone then groups.set writer [] else groups
  groups.set writer ((groups.get writer).getD [] ++ [m])

def groupByWriter (entries : List (AuditEntry ν)) : Groups ν := entries.zipIdx.foldl pushMember .empty

def shown : Option (Json ν) → Except TypeError String
  | none => .ok "undefined"
  | some value => value.text

def reportLink (v : Visit ν) : Except TypeError (List Finding) :=
  failIf (brokenLink v.previous v.entry) v.index .brokenLink (do
    let writer ← v.writer.text
    .ok ("entry " ++ toString v.index ++ " (" ++ writer ++ ") prevHmac does not match predecessor"))

def reportGap (v : Visit ν) : Except TypeError (List Finding) := do
  let gap ← sequenceGap v.previous v.entry
  failIf gap v.index .sequenceGap (do
    let writer ← v.writer.text
    let seq ← shown v.entry.seq
    let before ← shown (v.previous.bind AuditEntry.seq)
    .ok ("entry " ++ toString v.index ++ " (" ++ writer ++ ") seq " ++ seq ++ " follows " ++ before))

def reportMac (v : Visit ν) (hmac : String) : Except TypeError (List Finding) :=
  match (secretOf crypto secrets v.entry).filter (fun secret => secret ≠ "") with
  | none =>
    failIf true v.index .unknownKey (do
      let keyId ← (orElse (.str "(current)") v.entry.keyId).text
      .ok ("entry " ++ toString v.index ++ " signed with unavailable key " ++ keyId))
  | some secret =>
    failIf (!safeEqual (mac crypto secret v.entry) hmac) v.index .badHmac (do
      let writer ← v.writer.text
      .ok ("entry " ++ toString v.index ++ " (" ++ writer ++ ") hmac mismatch"))

def reportAnchor (entries : List (AuditEntry ν)) (v : Visit ν) : Except TypeError (List Finding) :=
  failIf (unanchored entries v.previous v.entry v.index) v.index .unanchoredWriter (do
    let writer ← v.writer.text
    .ok ("first entry of writer " ++ writer ++ " does not anchor to an earlier entry"))

def report (entries : List (AuditEntry ν)) (v : Visit ν) : Except TypeError (List Finding) :=
  match v.entry.hmac with
  | some (.str hmac) => do
    let link ← reportLink v
    let gap ← reportGap v
    let mac ← reportMac crypto secrets v hmac
    let anchor ← reportAnchor entries v
    .ok (link ++ gap ++ mac ++ anchor)
  | _ => .ok [⟨v.index,.missingHmac,"entry " ++ toString v.index ++ " has no hmac"⟩]

def checkGroup (entries : List (AuditEntry ν)) (writer : Json ν) :
    Option (AuditEntry ν) → List (Member ν) → Except TypeError (List Finding)
  | _,[] => .ok []
  | previous,(entry,index) :: rest => do
    let found ← report crypto secrets entries ⟨writer,previous,entry,index⟩
    let later ← checkGroup entries writer (predecessor entry) rest
    .ok (found ++ later)

def checkAnchor (entries : List (AuditEntry ν)) (a : Anchor ν) : Except TypeError (List Finding) :=
  match entries.find? (fun e => same e.hmac a.hmac) with
  | none => failIf true (-1) .anchorMissing (do
      let hmac ← shown a.hmac
      .ok ("anchor " ++ hmac ++ " not found in log (truncated or rewritten?)"))
  | some hit =>
    if a.writerId ≠ none ∧ ¬ same (some hit.writer) a.writerId then failIf true (-1) .anchorWriterMismatch (do
      let hmac ← shown a.hmac
      .ok ("anchor " ++ hmac ++ " belongs to a different writer"))
    else failIf (a.seq ≠ none ∧ ¬ same hit.seq a.seq) (-1) .anchorSeqMismatch (do
      let hmac ← shown a.hmac
      let seq ← shown hit.seq
      let expected ← shown a.seq
      .ok ("anchor " ++ hmac ++ " has seq " ++ seq ++ ", expected " ++ expected))

def verifyChain (anchors : List (Anchor ν)) (entries : List (AuditEntry ν)) : Except TypeError Report := do
  let groups := groupByWriter entries
  let found ← collect (fun group => checkGroup crypto secrets entries group.1.value none group.2) groups.entries
  let anchored ← collect (checkAnchor entries) anchors
  let findings := found ++ anchored
  .ok ⟨findings.isEmpty,entries.length,groups.entries.length,findings⟩

def exportAnchors (entries : List (AuditEntry ν)) : List (Anchor ν) :=
  let heads : InsertionMap (Key ν) (AuditEntry ν) :=
    entries.zipIdx.foldl (fun heads m => heads.set (key m.1.writer m.2) m.1) .empty
  heads.entries.map (fun head => ⟨some head.1.value,head.2.seq,head.2.hmac⟩)

def expected (entry : AuditEntry ν) : Option String :=
  ((secretOf crypto secrets entry).filter (fun secret => secret ≠ "")).map (fun secret => mac crypto secret entry)
end

theorem safeEqual_exact : safeEqual a b = true ↔ a = b := by
  simp only [safeEqual,Bool.and_eq_true,beq_iff_eq]
  constructor
  · rintro ⟨_,bytes⟩
    exact String.toByteArray_inj.mp (ByteArray.ext bytes)
  · rintro rfl
    exact ⟨rfl,rfl⟩

theorem failIf_nothing : failIf condition index code message = .ok [] ↔ condition = false := by
  cases condition <;> cases message <;> simp [failIf,Except.map]

theorem failIf_throws : Throws (failIf condition index code message) ↔ condition = true ∧ Throws message := by
  cases condition <;> simp [failIf]

theorem failIf_index (failed : failIf condition index code message = .ok got) : ∀ f ∈ got, f.index = index := by
  cases condition with
  | false =>
    cases failed
    simp
  | true =>
    cases message with
    | error => cases failed
    | ok =>
      cases failed
      simp

theorem canonicalPayload_same : canonicalPayload entry previousHmac = AuditChain.canonicalPayload entry previousHmac := by
  have append (name : String) (rest : List String) : (name :: rest).filterMap (fun k => (read entry k).map (fun v => (k,v))) =
      field name (read entry name) ++ rest.filterMap (fun k => (read entry k).map (fun v => (k,v))) := by
    cases got : read entry name <;> simp [field,got]
  simp only [canonicalPayload,signedFields,append,AuditChain.canonicalPayload,append_assoc,filterMap_nil,nil_append]
  rfl

section
variable {ν : Type} [DecidableEq ν]

theorem pushMember_same (groups : Groups ν) (m : Member ν) : pushMember groups m = joinGroup groups m := by
  unfold pushMember joinGroup
  cases got : groups.get (key m.1.writer m.2) with
  | none => simp [got,InsertionMap.set_set]
  | some => simp [got]

theorem groupByWriter_same (entries : List (AuditEntry ν)) : groupByWriter entries = byWriter entries := by
  have pushing : pushMember (ν := ν) = joinGroup := funext fun groups => funext (pushMember_same groups)
  rw [groupByWriter,byWriter,pushing]
end

section
variable {ν : Type} [DecidableEq ν] [Zero ν] [ToString ν] {crypto : Crypto ν}

theorem reportMac_nothing : reportMac crypto secrets v hmac = .ok [] ↔ expected crypto secrets v.entry = some hmac := by
  unfold reportMac expected
  cases (secretOf crypto secrets v.entry).filter (fun secret => secret ≠ "") with
  | none => simp [failIf_nothing]
  | some => simp [failIf_nothing,safeEqual_exact]
end

section
variable {ν : Type} [DecidableEq ν] [Zero ν] [One ν] [Add ν] [ToString ν]
variable {v : Visit ν}

theorem checkGroup_visits (writer : Json ν) (previous : Option (AuditEntry ν)) (group : List (Member ν)) :
    checkGroup crypto secrets entries writer previous group =
      collect (report crypto secrets entries) (groupVisits writer previous group) := by
  induction group generalizing previous with
  | nil => rfl
  | cons _ _ ih =>
    simp [checkGroup,groupVisits,collect,ih]

theorem checkGroups_visits (groups : List (Key ν × List (Member ν))) :
    collect (fun group => checkGroup crypto secrets entries group.1.value none group.2) groups =
      collect (report crypto secrets entries) (groups.flatMap (fun group => groupVisits group.1.value none group.2)) := by
  induction groups with
  | nil => rfl
  | cons _ _ ih =>
    rw [flatMap_cons,collect_append,collect,ih,checkGroup_visits]

theorem verifyChain_visits (crypto : Crypto ν) (secrets : List String) (anchors : List (Anchor ν)) (entries : List (AuditEntry ν)) :
    verifyChain crypto secrets anchors entries = (do
      let got ← collect (report crypto secrets entries) (visits entries)
      let anchored ← collect (checkAnchor entries) anchors
      let findings := got ++ anchored
      .ok ⟨findings.isEmpty,entries.length,(byWriter entries).entries.length,findings⟩) := by
  rw [verifyChain,groupByWriter_same,checkGroups_visits]
  rfl

theorem reportGap_nothing : reportGap v = .ok [] ↔ sequenceGap v.previous v.entry = .ok false := by
  unfold reportGap
  rw [bind_ok]
  simp [failIf_nothing]

-- Each check is silent on its own condition.
theorem report_nothing : report crypto secrets entries v = .ok [] ↔ Sound (expected crypto secrets) entries v := by
  unfold report
  split
  · rename_i hmac signed
    simp only [bind_ok,Except.ok.injEq,append_eq_nil_iff]
    constructor
    · rintro ⟨_,link,_,gap,_,mac,_,anchor,⟨⟨rfl,rfl⟩,rfl⟩,rfl⟩
      exact ⟨failIf_nothing.mp link,reportGap_nothing.mp gap,⟨hmac,reportMac_nothing.mp mac,signed⟩,failIf_nothing.mp anchor⟩
    · rintro ⟨linked,contiguous,⟨mac,due,same⟩,anchored⟩
      cases signed.symm.trans same
      exact ⟨[],failIf_nothing.mpr linked,[],reportGap_nothing.mpr contiguous,[],reportMac_nothing.mpr due,[],
        failIf_nothing.mpr anchored,⟨⟨rfl,rfl⟩,rfl⟩,rfl⟩
  · rename_i unsigned
    constructor
    · intro silent
      cases silent
    · rintro ⟨_,_,⟨mac,_,signed⟩,_⟩
      exact absurd signed (unsigned mac)

theorem report_index (reported : report crypto secrets entries v = .ok got) : ∀ f ∈ got, f.index = v.index := by
  unfold report at reported
  split at reported
  · simp only [bind_ok,Except.ok.injEq] at reported
    obtain ⟨_,links,gap,gaps,mac,macs,_,anchors,rfl⟩ := reported
    have gapIndex : ∀ f ∈ gap, f.index = v.index := by
      obtain ⟨_,_,failed⟩ := bind_ok.mp gaps
      exact failIf_index failed
    have macIndex : ∀ f ∈ mac, f.index = v.index := by
      unfold reportMac at macs
      split at macs <;> exact failIf_index macs
    intro f mem
    simp only [mem_append] at mem
    rcases mem with ((inLink | inGap) | inMac) | inAnchor
    · exact failIf_index links f inLink
    · exact gapIndex f inGap
    · exact macIndex f inMac
    · exact failIf_index anchors f inAnchor
  · cases reported
    simp
end

end StellarPriceOracle.AuditVerifier
