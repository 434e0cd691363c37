import Mathlib.Algebra.Ring.Int.Defs
import StellarPriceOracle.AuditChain

namespace StellarPriceOracle.AuditLogger
open AuditChain Json Guarded
open List

-- api/src/governance/audit-logger.ts, `initializeAuditIntegrity` and `auditLog`.
structure Context (ν : Type) where
  (ip userAgent apiKeyPrefix : Option String)
  (details prevState newState : Option (Json ν))

structure Call (ν : Type) where
  (event timestamp : String)
  context : Context ν
  appended : Bool

structure Logger (ν : Type) where
  log : List (AuditEntry ν)
  lastHmac : String
  writerSeq : Nat
  deriving DecidableEq

inductive StartFailure where
  | chainBroken (firstInvalidIndex : Option Nat)
  | typeError
  deriving DecidableEq

section
variable {ν : Type} [DecidableEq ν] [AddMonoidWithOne ν] [ToString ν]
variable (crypto : Crypto ν) (secrets : AuditSecrets) (writerId : String)

def lastHmac (entries : List (AuditEntry ν)) : String :=
  match entries.getLast?.bind AuditEntry.hmac with
  | some (.str hmac) => hmac
  | _ => ""

-- A broken log is left as it is and a new file begun, or the start refused.
def initializeAuditIntegrity (throwOnBreak : Bool) (entries : List (AuditEntry ν)) : Except StartFailure (Logger ν) :=
  if entries = [] then .ok ⟨[],"",0⟩ else
    match verifyAuditLogChain crypto secrets entries with
    | .error _ => .error .typeError
    | .ok verdict =>
      if verdict.valid then .ok ⟨entries,lastHmac entries,0⟩
      else if throwOnBreak then .error (.chainBroken verdict.firstInvalidIndex)
      else .ok ⟨[],"",0⟩

def orUnknown (value : Option String) : Json ν := .str ((value.filter (fun text => text ≠ "")).getD "unknown")

def entryData (s : Logger ν) (call : Call ν) : AuditEntry ν where
  event := some (.str call.event)
  timestamp := some (.str call.timestamp)
  ip := some (orUnknown call.context.ip)
  userAgent := some (orUnknown call.context.userAgent)
  apiKeyPrefix := some (orUnknown call.context.apiKeyPrefix)
  keyId := some (.str secrets.currentKeyId)
  writerId := some (.str writerId)
  seq := some (.num ((s.writerSeq + 1 : Nat) : ν))
  prevHmac := some (.str s.lastHmac)
  details := call.context.details.filter truthy
  prevState := call.context.prevState.filter truthy
  newState := call.context.newState.filter truthy
  hmac := none

def sign (secret : String) (s : Logger ν) (call : Call ν) : String :=
  hmacWith crypto secret (entryData secrets writerId s call) (.str s.lastHmac)

@[simp] def signedEntry (secret : String) (s : Logger ν) (call : Call ν) : AuditEntry ν :=
  {entryData secrets writerId s call with hmac := some (.str (sign crypto secrets writerId secret s call))}

-- The chain state moves on before the file is written. Without a key the HMAC throws.
def auditLog (s : Logger ν) (call : Call ν) : Logger ν :=
  match secrets.keyring.get secrets.currentKeyId with
  | none => s
  | some secret =>
    let entry := signedEntry crypto secrets writerId secret s call
    ⟨if call.appended then s.log ++ [entry] else s.log,sign crypto secrets writerId secret s call,s.writerSeq + 1⟩

def attempts (secret : String) (s : Logger ν) : List (Call ν) → List (AuditEntry ν)
  | [] => []
  | call :: rest => signedEntry crypto secrets writerId secret s call ::
      attempts secret (auditLog crypto secrets writerId s call) rest

@[simp] def written (secret : String) (s : Logger ν) : List (Call ν) → List (AuditEntry ν)
  | [] => []
  | call :: rest =>
    (if call.appended then [signedEntry crypto secrets writerId secret s call] else []) ++
      written secret (auditLog crypto secrets writerId s call) rest

-- No append succeeds after one that failed.
def Settled (outcomes : List Bool) : Prop := outcomes.Pairwise (fun earlier later => later = true → earlier = true)

theorem settled_failed {outcomes : List Bool} (none : ∀ appended ∈ outcomes, appended = false) : Settled outcomes := by
  refine pairwise_of_forall_mem_list ?_
  intro _ _ other mem success
  rw [none other mem] at success
  cases success

theorem failed_settled {outcomes : List Bool} (settled : Settled (false :: outcomes)) : ∀ appended ∈ outcomes, appended = false := by
  intro other mem
  rw [Bool.eq_false_iff]
  intro success
  cases (pairwise_cons.mp settled).1 other mem success

def Unbroken (log : List (AuditEntry ν)) (outcomes : List Bool) : Prop :=
  Settled (if log = [] then outcomes.dropWhile (fun appended => !appended) else outcomes)
end

section
variable {ν : Type} [DecidableEq ν] [AddMonoidWithOne ν] {secrets : AuditSecrets}

theorem written_attempted (s : Logger ν) (calls : List (Call ν)) (mem : e ∈ written crypto secrets writerId secret s calls) :
    e ∈ attempts crypto secrets writerId secret s calls := by
  induction calls generalizing s with
  | nil => cases mem
  | cons call _ ih =>
    rw [written] at mem
    rcases mem_append.mp mem with here | later
    · have first : call.appended = true ∧ e = signedEntry crypto secrets writerId secret s call := by simpa using here
      rw [first.2]
      exact mem_cons_self
    · exact mem_cons_of_mem _ (ih _ later)

theorem written_none (s : Logger ν) {calls : List (Call ν)} (none : ∀ appended ∈ calls.map Call.appended, appended = false) :
    written crypto secrets writerId secret s calls = [] := by
  induction calls generalizing s with
  | nil => rfl
  | cons _ _ ih =>
    obtain ⟨failed,later⟩ := forall_mem_cons.mp none
    simp only [written,failed,ih _ later]
    rfl

theorem none_written {s : Logger ν} {calls : List (Call ν)} (empty : written crypto secrets writerId secret s calls = []) :
    ∀ appended ∈ calls.map Call.appended, appended = false := by
  induction calls generalizing s with
  | nil => simp
  | cons call _ ih =>
    rw [written,append_eq_nil_iff] at empty
    refine forall_mem_cons.mpr ⟨?_,ih empty.2⟩
    cases appended : call.appended with
    | false => rfl
    | true => simp [appended] at empty

variable (active : secrets.keyring.get secrets.currentKeyId = some secret)
include active

theorem auditLog_active (s : Logger ν) (call : Call ν) : auditLog crypto secrets writerId s call =
    ⟨if call.appended then s.log ++ [signedEntry crypto secrets writerId secret s call] else s.log,
      sign crypto secrets writerId secret s call,s.writerSeq + 1⟩ := by
  rw [auditLog,active]

theorem run_log (s : Logger ν) (calls : List (Call ν)) :
    (calls.foldl (auditLog crypto secrets writerId) s).log = s.log ++ written crypto secrets writerId secret s calls := by
  induction calls generalizing s with
  | nil => simp
  | cons call _ ih =>
    rw [foldl_cons,ih,written,auditLog_active active]
    cases call.appended <;> simp

theorem signedEntry_pair (held : secret ≠ "") (s : Logger ν) (call : Call ν) :
    signedPair secrets (signedEntry crypto secrets writerId secret s call) =
      some (secret,canonicalPayload (signedEntry crypto secrets writerId secret s call) (.str s.lastHmac)) := by
  have own : secretFor secrets (some (.str secrets.currentKeyId) : Option (Json ν)) = some secret := by
    unfold secretFor
    split <;> exact active
  simp only [signedPair,signedEntry,entryData,own,Option.filter_some,held,ne_eq,not_false_eq_true,decide_true,if_true]
  rfl

theorem attempt_parts (held : secret ≠ "") (s : Logger ν) (calls : List (Call ν))
    (mem : e ∈ attempts crypto secrets writerId secret s calls) :
    e.writerId = some (.str writerId) ∧ (∃ n : Nat, s.writerSeq < n ∧ e.seq = some (.num (n : ν))) ∧
      ∃ pair, signedPair secrets e = some pair ∧ SignedWith crypto e pair := by
  induction calls generalizing s with
  | nil => cases mem
  | cons call _ ih =>
    rcases mem_cons.mp mem with rfl | later
    · exact ⟨rfl,⟨s.writerSeq + 1,Nat.lt_succ_self _,rfl⟩,_,signedEntry_pair active held s call,rfl,rfl⟩
    · obtain ⟨mine,⟨n,above,number⟩,signed⟩ := ih _ later
      rw [auditLog_active active] at above
      exact ⟨mine,⟨n,Nat.lt_of_succ_lt above,number⟩,signed⟩
end

section
variable {ν : Type} [DecidableEq ν] [AddMonoidWithOne ν] [CharZero ν] [ToString ν]
variable {secrets : AuditSecrets}

omit [CharZero ν] in
theorem follows_signed (call : Call ν) (tagged : a.hmac = some (.str s.lastHmac)) (number : a.seq = some (.num (s.writerSeq : ν))) :
    Follows a (signedEntry crypto secrets writerId secret s call) := by
  constructor
  · simp [brokenLink,entryData,AuditEntry.prev,orElse,tagged,same,isObject]
  · simp [sequenceGap,entryData,AuditEntry.number,number,plusOne,ok_bind,same,isObject,Option.filter_some]

variable (active : secrets.keyring.get secrets.currentKeyId = some secret)
include active

omit [CharZero ν] in
theorem settled_linked {calls : List (Call ν)} (settled : Settled (calls.map Call.appended))
    (tagged : a.hmac = some (.str s.lastHmac)) (number : a.seq = some (.num (s.writerSeq : ν))) :
    (a :: written crypto secrets writerId secret s calls).IsChain Follows := by
  induction calls generalizing a s with
  | nil => simp
  | cons call _ ih =>
    rw [written]
    cases appended : call.appended with
    | false =>
      rw [map_cons,appended] at settled
      simp [written_none _ (failed_settled settled)]
    | true =>
      rw [if_pos rfl,singleton_append,isChain_cons_cons]
      refine ⟨follows_signed call tagged number,ih (pairwise_cons.mp settled).2 ?_ ?_⟩
      · rw [auditLog_active active]
        rfl
      · rw [auditLog_active active]
        rfl

omit [ToString ν] in
theorem attempt_prev (s : Logger ν) (call : Call ν) (rest : List (Call ν))
    (mem : e ∈ attempts crypto secrets writerId secret (auditLog crypto secrets writerId s call) rest) :
    ∃ t ∈ attempts crypto secrets writerId secret s (call :: rest), t.hmac = some e.prev ∧ t.seq ≠ e.seq := by
  induction rest generalizing s call with
  | nil => cases mem
  | cons next _ ih =>
    rcases mem_cons.mp mem with rfl | later
    · refine ⟨_,mem_cons_self,?_,?_⟩
      · rw [auditLog_active active]
        rfl
      · rw [auditLog_active active]
        simp only [signedEntry,entryData,ne_eq,Option.some.injEq,Json.num.injEq,Nat.cast_inj]
        omega
    · obtain ⟨t,earlier,link,apart⟩ := ih _ next later
      exact ⟨t,mem_cons_of_mem _ earlier,link,apart⟩

theorem linked_settled (held : secret ≠ "") {calls : List (Call ν)}
    (linked : (a :: written crypto secrets writerId secret s calls).IsChain Follows) (number : a.seq = some (.num (s.writerSeq : ν))) :
    Settled (calls.map Call.appended) := by
  induction calls generalizing a s with
  | nil => exact Pairwise.nil
  | cons call rest ih =>
    rw [written] at linked
    cases appended : call.appended with
    | true =>
      rw [appended,if_pos rfl,singleton_append,isChain_cons_cons] at linked
      refine pairwise_cons.mpr ⟨fun _ _ _ => appended,ih linked.2 ?_⟩
      rw [auditLog_active active]
      rfl
    | false =>
      have nothing : written crypto secrets writerId secret (auditLog crypto secrets writerId s call) rest = [] := by
        cases later : written crypto secrets writerId secret (auditLog crypto secrets writerId s call) rest with
        | nil => rfl
        | cons =>
          exfalso
          have mem := written_attempted _ _ (later ▸ mem_cons_self)
          obtain ⟨_,⟨n,above,numbered⟩,_⟩ := attempt_parts active held _ _ mem
          rw [auditLog_active active] at above
          rw [later,appended,if_neg (by simp),nil_append,isChain_cons_cons] at linked
          have step := follows_number linked.1 number numbered
          rw [← Nat.cast_succ,Nat.cast_inj] at step
          exact absurd step (Nat.ne_of_gt above)
      rw [map_cons,appended]
      exact settled_failed (forall_mem_cons.mpr ⟨rfl,none_written nothing⟩)

theorem written_linked (held : secret ≠ "") (s : Logger ν) (calls : List (Call ν)) :
    (written crypto secrets writerId secret s calls).IsChain Follows ↔
      Settled ((calls.map Call.appended).dropWhile (fun appended => !appended)) := by
  induction calls generalizing s with
  | nil => simp [Settled]
  | cons call _ ih =>
    rw [written,map_cons]
    cases call.appended with
    | false =>
      simp only [Bool.false_eq_true,if_false,nil_append]
      exact ih _
    | true =>
      rw [if_pos rfl,singleton_append,dropWhile_cons_of_neg (by simp)]
      have next : (auditLog crypto secrets writerId s call).lastHmac = sign crypto secrets writerId secret s call ∧
          (auditLog crypto secrets writerId s call).writerSeq = s.writerSeq + 1 := by
        rw [auditLog_active active]
        exact ⟨rfl,rfl⟩
      have number : (signedEntry crypto secrets writerId secret s call).seq =
          some (.num ((auditLog crypto secrets writerId s call).writerSeq : ν)) := by
        rw [next.2]
        rfl
      constructor
      · intro linked
        exact pairwise_cons.mpr ⟨fun _ _ _ => rfl,linked_settled active held linked number⟩
      · intro settled
        refine settled_linked active (pairwise_cons.mp settled).2 ?_ number
        rw [next.1]
        rfl
end

section
variable {ν : Type} [DecidableEq ν] {log own : List (AuditEntry ν)}

theorem members_append (log own : List (AuditEntry ν)) (writer : Key ν) : members (log ++ own) writer =
    members log writer ++ (own.zipIdx log.length).filter (fun m => key m.1.writer m.2 = writer) := by
  rw [members,zipIdx_append,filter_append,Nat.zero_add]
  rfl

theorem members_fresh (fresh : ∀ e ∈ log, e.writer ≠ .str writerId) : members log ⟨.str writerId,none⟩ = [] := by
  rw [members,filter_eq_nil_iff]
  intro m mem named
  have writer := congrArg Key.value (of_decide_eq_true named)
  exact fresh m.1 (fst_mem_of_mem_zipIdx mem) writer

theorem members_own (mine : ∀ e ∈ own, e.writer = .str writerId) : (own.zipIdx n).filter (fun m => key m.1.writer m.2 = writer) =
      if writer = ⟨.str writerId,none⟩ then own.zipIdx n else [] := by
  have named : ∀ m ∈ own.zipIdx n, key m.1.writer m.2 = ⟨.str writerId,none⟩ := by
    intro m mem
    rw [mine m.1 (fst_mem_of_mem_zipIdx mem)]
    rfl
  split
  · rename_i here
    rw [filter_eq_self]
    intro m mem
    simp [named m mem,here]
  · rename_i elsewhere
    rw [filter_eq_nil_iff]
    intro m mem
    simpa [named m mem] using Ne.symm elsewhere

theorem visits_append (fresh : ∀ e ∈ log, e.writer ≠ .str writerId) (mine : ∀ e ∈ own, e.writer = .str writerId) :
    v ∈ visits (log ++ own) ↔ v ∈ visits log ∨ v ∈ groupVisits (.str writerId) none (own.zipIdx log.length) := by
  simp only [mem_visits,members_append,members_own mine]
  constructor
  · rintro ⟨writer,visited⟩
    split at visited
    · rename_i here
      subst here
      rw [members_fresh fresh] at visited
      exact .inr visited
    · rw [append_nil] at visited
      exact .inl ⟨writer,visited⟩
  · rintro (⟨writer,visited⟩ | visited)
    · refine ⟨writer,?_⟩
      have other : writer ≠ ⟨.str writerId,none⟩ := by
        rintro rfl
        rw [members_fresh fresh] at visited
        cases visited
      rw [if_neg other,append_nil]
      exact visited
    · refine ⟨⟨.str writerId,none⟩,?_⟩
      rw [members_fresh fresh,if_pos rfl]
      exact visited

theorem hmacIndex_old (distinct : ∀ e ∈ own, ∀ f ∈ log, e.hmac ≠ f.hmac) (known : ∃ f ∈ log, f.hmac = some value) :
    hmacIndex (log ++ own) value = hmacIndex log value := by
  obtain ⟨f,mem,hmac⟩ := known
  have added : (own.zipIdx log.length).filter (fun m => same m.1.hmac (some value)) = [] := by
    rw [filter_eq_nil_iff]
    intro m listed got
    simp only [same,decide_eq_true_eq] at got
    exact distinct m.1 (fst_mem_of_mem_zipIdx listed) f mem (got.1.trans hmac.symm)
  rw [hmacIndex_last,hmacIndex_last,zipIdx_append,filter_append,Nat.zero_add,added,append_nil]

theorem hmacIndex_known {hmac : String} {f : AuditEntry ν} (mem : f ∈ log) (tagged : f.hmac = some (.str hmac)) :
    ∃ i < log.length, hmacIndex log (.str hmac) = some i := by
  obtain ⟨i,bound,here⟩ := getElem_of_mem mem
  have listed : (f,i) ∈ log.zipIdx.filter (fun m => same m.1.hmac (some (.str hmac))) := by
    refine mem_filter.mpr ⟨mk_mem_zipIdx_iff_getElem?.mpr ?_,?_⟩
    · rw [getElem?_eq_getElem bound,here]
    · simp [tagged,same,isObject]
  have last := getLast?_eq_some_getLast (ne_nil_of_mem listed)
  have inside := snd_lt_of_mem_zipIdx (mem_of_mem_filter (mem_of_getLast? last))
  rw [Nat.add_zero] at inside
  exact ⟨_,inside,by rw [hmacIndex_last,last]; rfl⟩

theorem anchored_old (distinct : ∀ e ∈ own, ∀ f ∈ log, e.hmac ≠ f.hmac) {previous : Option (AuditEntry ν)} {m : Member ν}
    (anchored : unanchored log previous m.1 m.2 = false) : unanchored (log ++ own) previous m.1 m.2 = false := by
  rw [← Bool.not_eq_true]
  intro loose
  have parts := loose
  simp only [unanchored,Bool.and_eq_true,decide_eq_true_eq,Option.isNone_iff_eq_none] at parts
  obtain ⟨⟨⟨rfl,linked⟩,_⟩,off⟩ := parts
  obtain ⟨anchor,⟨mem,hmac⟩,_⟩ := anchor_found anchored off linked
  have same := hmacIndex_old distinct ⟨anchor.1,fst_mem_of_mem_zipIdx mem,hmac⟩
  rw [unanchored,same,← unanchored,anchored] at loose
  cases loose

-- The log verifies if the new entries are linked and the first of them is anchored.
theorem appended_exact [Zero ν] [One ν] [Add ν] [ToString ν] {expected : AuditEntry ν → Option String}
    (sound : ∀ v ∈ visits log, Sound expected log v) (fresh : ∀ e ∈ log, e.writer ≠ .str writerId)
    (mine : ∀ e ∈ own, e.writer = .str writerId) (signed : ∀ e ∈ own, ∃ mac, expected e = some mac ∧ e.hmac = some (.str mac))
    (distinct : ∀ e ∈ own, ∀ f ∈ log, e.hmac ≠ f.hmac) :
    (∀ v ∈ visits (log ++ own), Sound expected (log ++ own) v) ↔ own.IsChain Follows ∧
      ∀ first ∈ (own.zipIdx log.length).head?, unanchored (log ++ own) none first.1 first.2 = false := by
  have entries : (own.zipIdx log.length).map Prod.fst = own := zipIdx_map_fst _ _
  constructor
  · intro all
    have added : ∀ v ∈ groupVisits (.str writerId) none (own.zipIdx log.length), Sound expected (log ++ own) v :=
      fun v visited => all v ((visits_append fresh mine).mpr (.inr visited))
    constructor
    · simpa [entries] using group_linked (.str writerId) none _ added
    · intro first heads
      obtain ⟨_,group⟩ := head?_eq_some_iff.mp heads
      exact (added ⟨.str writerId,none,first.1,first.2⟩ (by simp [group,groupVisits])).anchored
  · rintro ⟨linked,anchored⟩ v visited
    rcases (visits_append fresh mine).mp visited with old | added
    · have held := sound v old
      exact ⟨held.linked,held.contiguous,held.signed,anchored_old distinct (m := (v.entry,v.index)) held.anchored⟩
    · refine group_sound (.str writerId) none _ ?_ ?_ anchored v added
      · simpa [entries] using linked
      · exact fun m mem => signed m.1 (fst_mem_of_mem_zipIdx mem)
end

section
variable {ν : Type} [DecidableEq ν] [AddMonoidWithOne ν] [CharZero ν] [ToString ν]

section
variable {crypto : Crypto ν} {log : List (AuditEntry ν)} {s : Logger ν} {call : Call ν} {calls rest : List (Call ν)}

section
variable (active : secrets.keyring.get secrets.currentKeyId = some secret) (held : secret ≠ "")
  (sound : ∀ v ∈ visits log, Sound (signature crypto secrets) log v)
  (fresh : ∀ e ∈ log, e.writer ≠ .str writerId)
  (ideal : CollisionFree crypto ((log ++ attempts crypto secrets writerId secret s calls).filterMap (signedPair secrets)))

include active held

omit [CharZero ν] [ToString ν] in
theorem attempt_filled (mem : t ∈ attempts crypto secrets writerId secret s calls) {value : Json ν} (tagged : t.hmac = some value) :
    value ≠ .str "" := by
  obtain ⟨_,_,pair,_,signed⟩ := attempt_parts active held _ _ mem
  cases signed.hmac.symm.trans tagged
  simpa using crypto.filled pair.1 pair.2

include ideal

omit [CharZero ν] [ToString ν] in
theorem attempts_apart (first : t ∈ attempts crypto secrets writerId secret s calls)
    (second : u ∈ attempts crypto secrets writerId secret s calls) (same : t.hmac = u.hmac) : t.seq = u.seq := by
  obtain ⟨_,_,p,pair,signed⟩ := attempt_parts active held _ _ first
  obtain ⟨_,_,q,mate,countersigned⟩ := attempt_parts active held _ _ second
  exact (signed_commits ideal signed countersigned (mem_filterMap.mpr ⟨t,mem_append_right _ first,pair⟩)
    (mem_filterMap.mpr ⟨u,mem_append_right _ second,mate⟩) same).2.1

include sound fresh

omit [CharZero ν] in
theorem attempt_new (listed : t ∈ attempts crypto secrets writerId secret s calls) (mem : f ∈ log) : t.hmac ≠ f.hmac := by
  intro same
  obtain ⟨mine,_,p,pair,signed⟩ := attempt_parts active held _ _ listed
  obtain ⟨_,due,marked⟩ := signed_all sound mem
  obtain ⟨q,mate,countersigned⟩ := signature_signed due marked
  obtain ⟨writer,_⟩ := signed_commits ideal signed countersigned (mem_filterMap.mpr ⟨t,mem_append_right _ listed,pair⟩)
    (mem_filterMap.mpr ⟨f,mem_append_left _ mem,mate⟩) same
  refine fresh f mem ?_
  rw [AuditEntry.writer,← writer,mine]
  rfl

end

omit [CharZero ν] in
theorem lastHmac_known (sound : ∀ v ∈ visits log, Sound (signature crypto secrets) log v) (filled : log ≠ []) :
    ∃ f ∈ log, f.hmac = some (.str (lastHmac log)) := by
  have last := getLast?_eq_some_getLast filled
  obtain ⟨_,_,tagged⟩ := signed_all sound (getLast_mem filled)
  refine ⟨_,getLast_mem filled,?_⟩
  rw [lastHmac,last,Option.bind_some,tagged]

variable (active : secrets.keyring.get secrets.currentKeyId = some secret) (held : secret ≠ "")
  (sound : ∀ v ∈ visits log, Sound (signature crypto secrets) log v) (fresh : ∀ e ∈ log, e.writer ≠ .str writerId)
  (ideal : CollisionFree crypto ((log ++ attempts crypto secrets writerId secret s (call :: rest)).filterMap (signedPair secrets)))

include active held sound fresh ideal

omit [CharZero ν] in
theorem first_anchored (filled : log ≠ []) (last : s.lastHmac = lastHmac log) :
    unanchored (log ++ written crypto secrets writerId secret s (call :: rest)) none
      (signedEntry crypto secrets writerId secret s call) log.length = false := by
  obtain ⟨f,mem,tagged⟩ := lastHmac_known sound filled
  have old : hmacIndex (log ++ written crypto secrets writerId secret s (call :: rest)) (.str (lastHmac log)) =
      hmacIndex log (.str (lastHmac log)) := hmacIndex_old
    (fun e listed f mem => attempt_new active held sound fresh ideal (written_attempted _ _ listed) mem) ⟨f,mem,tagged⟩
  obtain ⟨i,inside,index⟩ := hmacIndex_known mem tagged
  have prev : (signedEntry crypto secrets writerId secret s call).prev = .str (lastHmac log) := by
    rw [← last]
    rfl
  rw [unanchored,prev,old,index]
  simp [Nat.lt_asymm inside]

theorem link_lost {next : AuditEntry ν} {more : List (AuditEntry ν)}
    (later : written crypto secrets writerId secret (auditLog crypto secrets writerId s call) rest = next :: more) (filled : log ≠ []) :
    unanchored (log ++ next :: more) none next log.length = true := by
  rw [← Bool.not_eq_false]
  intro anchored
  have mem := written_attempted _ _ (later ▸ mem_cons_self)
  obtain ⟨t,earlier,link,apart⟩ := attempt_prev active s call rest mem
  obtain ⟨anchor,⟨got,hmac⟩,low⟩ := anchor_found (m := (next,log.length)) anchored (by simpa using filled)
    (attempt_filled active held earlier link)
  have here := mem_zipIdx_iff_getElem?.mp got
  rcases Nat.lt_or_eq_of_le low with before | same
  · rw [getElem?_append_left before] at here
    exact attempt_new active held sound fresh ideal earlier (mem_of_getElem? here) (link.trans hmac.symm)
  · rw [same] at here
    have itself : next = anchor.1 := by simpa using here
    rw [← itself] at hmac
    exact apart (attempts_apart active held ideal earlier (mem_cons_of_mem _ mem) (link.trans hmac.symm))
end

section
variable {crypto : Crypto ν} {secrets : AuditSecrets} {writerId secret : String} {log : List (AuditEntry ν)} {s : Logger ν}
  {calls : List (Call ν)}

theorem anchored_settled (active : secrets.keyring.get secrets.currentKeyId = some secret) (held : secret ≠ "")
    (sound : ∀ v ∈ visits log, Sound (signature crypto secrets) log v) (fresh : ∀ e ∈ log, e.writer ≠ .str writerId)
    (ideal : CollisionFree crypto ((log ++ attempts crypto secrets writerId secret s calls).filterMap (signedPair secrets)))
    (filled : log ≠ []) (last : s.lastHmac = lastHmac log) :
    (Settled ((calls.map Call.appended).dropWhile (fun appended => !appended)) ∧
      ∀ first ∈ ((written crypto secrets writerId secret s calls).zipIdx log.length).head?,
        unanchored (log ++ written crypto secrets writerId secret s calls) none first.1 first.2 = false) ↔
    Settled (calls.map Call.appended) := by
  cases calls with
  | nil => simp [Settled]
  | cons call rest =>
    rw [map_cons]
    cases appended : call.appended with
    | true =>
      rw [dropWhile_cons_of_neg (by simp),and_iff_left_iff_imp]
      intro _ first heads
      have here : first = (signedEntry crypto secrets writerId secret s call,log.length) := by
        simpa [appended,eq_comm] using heads
      rw [here]
      exact first_anchored active held sound fresh ideal filled last
    | false =>
      rw [dropWhile_cons_of_pos (by simp)]
      have same : written crypto secrets writerId secret s (call :: rest) =
          written crypto secrets writerId secret (auditLog crypto secrets writerId s call) rest := by
        simp [appended]
      rw [same]
      constructor
      · rintro ⟨_,anchored⟩
        cases later : written crypto secrets writerId secret (auditLog crypto secrets writerId s call) rest with
        | nil => exact settled_failed (forall_mem_cons.mpr ⟨rfl,none_written later⟩)
        | cons next =>
          have lost := link_lost active held sound fresh ideal later filled
          rw [later] at anchored
          rw [anchored (next,log.length) rfl] at lost
          cases lost
      · intro settled
        have none := failed_settled settled
        refine ⟨Pairwise.sublist (dropWhile_sublist _) (pairwise_cons.mp settled).2,?_⟩
        simp [written_none _ none]

omit [CharZero ν] in
theorem started_state {throwOnBreak : Bool} (verified : verifyAuditLogChain crypto secrets log = .ok ⟨true,none⟩)
    (started : initializeAuditIntegrity crypto secrets throwOnBreak log = .ok s) : s = ⟨log,lastHmac log,0⟩ := by
  unfold initializeAuditIntegrity at started
  split at started
  · rename_i empty
    subst empty
    exact (Except.ok.inj started).symm
  · rw [verified] at started
    exact (Except.ok.inj started).symm

-- The log verifies after exactly those appends of which none succeeds after a failed one.
theorem appends_exact {retired : List String} {current : String} {throwOnBreak : Bool} (held : current ≠ "")
    (verified : verifyAuditLogChain crypto (loadAuditSecrets crypto retired current) log = .ok ⟨true,none⟩)
    (started : initializeAuditIntegrity crypto (loadAuditSecrets crypto retired current) throwOnBreak log = .ok s)
    (fresh : ∀ e ∈ log, e.writer ≠ .str writerId)
    (ideal : CollisionFree crypto ((log ++ attempts crypto (loadAuditSecrets crypto retired current) writerId current s calls).filterMap
      (signedPair (loadAuditSecrets crypto retired current)))) :
    verifyAuditLogChain crypto (loadAuditSecrets crypto retired current)
        (calls.foldl (auditLog crypto (loadAuditSecrets crypto retired current) writerId) s).log = .ok ⟨true,none⟩ ↔
      Unbroken log (calls.map Call.appended) := by
  have active := loadAuditSecrets_current crypto retired current
  have state := started_state verified started
  have sound := verified_exact.mp verified
  generalize loadAuditSecrets crypto retired current = secrets at *
  rw [verified_exact,run_log active]
  have base : s.log = log := by rw [state]
  rw [base,appended_exact sound fresh]
  · rw [written_linked active held]
    rcases eq_or_ne log ([]) with rfl | empty
    · simp only [Unbroken,if_pos]
      refine and_iff_left_iff_imp.mpr ?_
      intro _ first heads
      have top : first.2 = 0 := by
        generalize written crypto secrets writerId current s calls = own at heads
        cases own with
        | nil => cases heads
        | cons => exact congrArg Prod.snd (Option.some.inj heads).symm
      simp [unanchored,top]
    · rw [anchored_settled active held sound fresh ideal empty (by rw [state]),Unbroken,if_neg empty]
  · intro e listed
    obtain ⟨mine,_⟩ := attempt_parts active held _ _ (written_attempted _ _ listed)
    rw [AuditEntry.writer,mine]
    rfl
  · intro e listed
    obtain ⟨_,_,_,found,signed⟩ := attempt_parts active held _ _ (written_attempted _ _ listed)
    exact signed_signature found signed
  · exact fun e listed f present => attempt_new active held sound fresh ideal (written_attempted _ _ listed) present
end
end

namespace Sample
def keys : AuditSecrets := loadAuditSecrets AuditChain.Sample.crypto [] "secret"

def call (appended : Bool) : Call Int := ⟨"auth.success","2026-01-01T00:00:00.000Z",⟨none,none,none,none,none,none⟩,appended⟩

def run (writerId : String) (s : Logger Int) (outcomes : List Bool) : Logger Int :=
  (outcomes.map call).foldl (auditLog AuditChain.Sample.crypto keys writerId) s

def log : List (AuditEntry Int) := (run "api-1" ⟨[],"",0⟩ [true]).log

def start : Logger Int := ⟨log,lastHmac log,0⟩
end Sample

open Sample

theorem trailing_failures_verify :
    verifyAuditLogChain AuditChain.Sample.crypto keys (run "api-2" start [true,true,false]).log =
      .ok ⟨true,none⟩ := by
  have ideal : CollisionFree AuditChain.Sample.crypto ((log ++ attempts AuditChain.Sample.crypto keys "api-2" "secret"
      start ([true,true,false].map call)).filterMap (signedPair keys)) := by
    unfold CollisionFree
    decide +kernel
  have verified : verifyAuditLogChain AuditChain.Sample.crypto keys log = .ok ⟨true,none⟩ := by decide +kernel
  have started : initializeAuditIntegrity AuditChain.Sample.crypto keys false log = .ok start := by decide +kernel
  have fresh : ∀ e ∈ log, e.writer ≠ .str "api-2" := by decide +kernel
  refine (appends_exact (by decide) verified started fresh ideal).mpr ?_
  unfold Unbroken Settled
  decide +kernel

theorem lost_append_breaks_chain :
    verifyAuditLogChain AuditChain.Sample.crypto keys [] = .ok ⟨true,none⟩ ∧
    initializeAuditIntegrity AuditChain.Sample.crypto keys false [] = .ok ⟨[],"",0⟩ ∧
    verifyAuditLogChain AuditChain.Sample.crypto keys (run "api-1" ⟨[],"",0⟩ [true,false,true]).log =
      .ok ⟨false,some 1⟩ := by
  decide +kernel

end StellarPriceOracle.AuditLogger
