import Mathlib.Algebra.Ring.Int.Defs
import Mathlib.Data.Int.Order.Basic
import Mathlib.Data.List.Infix
import StellarPriceOracle.AuditVerifier
import StellarPriceOracle.Library.LinkedChain

namespace StellarPriceOracle.TamperEvidence
open AuditChain AuditVerifier Json Guarded
open List
open Prod (fst snd)
open Option (map_eq_some_iff some)

section
variable {ν : Type} [DecidableEq ν] {entries : List (AuditEntry ν)}

def writtenBy (entries : List (AuditEntry ν)) (writer : Json ν) : List (AuditEntry ν) :=
  entries.filter (fun e => e.writer = writer)

theorem members_writtenBy (plain : ∀ e ∈ entries, e.writer.isObject = false) :
    (members entries ⟨writer,none⟩).map fst = writtenBy entries writer := by
  have own : members entries ⟨writer,none⟩ = entries.zipIdx.filter ((fun e => decide (e.writer = writer)) ∘ fst) := by
    refine filter_congr ?_
    intro m mem
    have unboxed := plain m.1 (fst_mem_of_mem_zipIdx mem)
    simp [key,unboxed]
  rw [own,← filter_map,zipIdx_map_fst]
  rfl

theorem heads_last (ms : List (Member ν)) (heads : InsertionMap (Key ν) (AuditEntry ν)) (writer : Key ν) :
    (ms.foldl (fun heads m => heads.set (key m.1.writer m.2) m.1) heads).get writer =
      ((ms.filter (fun m => key m.1.writer m.2 = writer)).getLast?.map fst).or (heads.get writer) := by
  induction ms generalizing heads with
  | nil => rfl
  | cons m rest ih =>
    rw [foldl_cons,ih]
    by_cases own : key m.1.writer m.2 = writer
    · subst own
      rw [filter_cons_of_pos (by simp),getLast?_cons]
      cases (rest.filter _).getLast? <;> simp
    · rw [filter_cons_of_neg (by simpa using own),InsertionMap.get_set_ne (Ne.symm own)]

theorem head_exported (got : (members entries writer).getLast? = some last) :
    ⟨some writer.value,last.1.seq,last.1.hmac⟩ ∈ exportAnchors entries := by
  refine mem_map.mpr ⟨(writer,last.1),InsertionMap.get_exact.mp ?_,rfl⟩
  rw [heads_last,← members,got]
  rfl

theorem first_lowest
    (group : members entries writer = first :: rest) (mem : m ∈ members entries writer) : m = first ∨ first.2 < m.2 := by
  have increasing : entries.zipIdx.Pairwise (fun m n => m.2 < n.2) := by
    rw [← pairwise_map (f := snd) (R := (· < ·)),zipIdx_map_snd]
    exact pairwise_lt_range'
  have ordered := increasing.filter (fun m => key m.1.writer m.2 = writer)
  rw [← members,group] at ordered
  rw [group] at mem
  rcases mem_cons.mp mem with same | later
  · exact .inl same
  · exact .inr (rel_of_pairwise_cons ordered later)

theorem member_exact (plain : ∀ e ∈ entries, e.writer.isObject = false) :
    m ∈ members entries ⟨writer,none⟩ ↔ m ∈ entries.zipIdx ∧ m.1.writer = writer := by
  rw [members,mem_filter]
  refine and_congr_right ?_
  intro mem
  simp [key,plain m.1 (fst_mem_of_mem_zipIdx mem)]
end

section
variable {ν : Type} [DecidableEq ν] [ToString ν] {log copy entries : List (AuditEntry ν)}

theorem anchor_hit (checked : checkAnchor entries a = .ok []) (named : a.writerId = some writer) :
    ∃ hit ∈ entries, hit.hmac = a.hmac ∧ hit.writer = writer ∧ writer.isObject = false := by
  unfold checkAnchor at checked
  split at checked
  · exact absurd (failIf_nothing.mp checked) (by simp)
  · rename_i hit got
    split at checked
    · exact absurd (failIf_nothing.mp checked) (by simp)
    · rename_i owner
      have hmac := find?_some got
      simp only [same,decide_eq_true_eq] at hmac
      simp only [named,same,ne_eq,reduceCtorEq,not_false_eq_true,true_and,decide_eq_true_eq,some.injEq,
        Option.any_some,Bool.not_eq_true,not_not] at owner
      exact ⟨hit,mem_of_find?_eq_some got,hmac.1,owner.1,owner.1 ▸ owner.2⟩

section
variable (anchored : ∀ a ∈ exportAnchors log, checkAnchor copy a = .ok [])
include anchored

theorem head_kept (got : (members log writer).getLast? = some last) :
    ∃ hit ∈ copy, hit.hmac = last.1.hmac ∧ hit.writer = writer.value ∧ writer.value.isObject = false :=
  anchor_hit (anchored _ (head_exported got)) rfl

theorem plain_writers (mem : e ∈ log) : e.writer.isObject = false := by
  obtain ⟨i,member⟩ := member_of mem
  have got := getLast?_eq_some_getLast (ne_nil_of_mem member)
  obtain ⟨_,_,_,_,plain⟩ := head_kept anchored got
  exact plain

end
end

section
variable {ν : Type} [DecidableEq ν] [Zero ν] [One ν] [Add ν] [ToString ν]
variable (crypto : Crypto ν) (secrets : List String)

def Valid (anchors : List (Anchor ν)) (entries : List (AuditEntry ν)) : Prop :=
  ∃ r, verifyChain crypto secrets anchors entries = .ok r ∧ r.valid = true

def verifierPair (entry : AuditEntry ν) : Option (String × Payload ν) :=
  ((secretOf crypto secrets entry).filter (fun secret => secret ≠ "")).map
    (fun secret => (secret,AuditVerifier.canonicalPayload entry entry.prev))

-- No chain of HMACs closes on itself: a writer's first entry follows none of its entries.
def Rooted (entries : List (AuditEntry ν)) : Prop :=
  ∀ writer, ∀ first ∈ (writtenBy entries writer).head?, ∀ e ∈ writtenBy entries writer, ¬ Follows e first

variable {crypto secrets} {anchors : List (Anchor ν)} {entries : List (AuditEntry ν)} {a b e f : AuditEntry ν}

theorem valid_exact : Valid crypto secrets anchors entries ↔
    (∀ v ∈ visits entries, Sound (expected crypto secrets) entries v) ∧ ∀ a ∈ anchors, checkAnchor entries a = .ok [] := by
  simp only [← report_nothing,← collect_nothing,Valid,verifyChain_visits]
  constructor
  · rintro ⟨r,verified,valid⟩
    simp only [bind_ok,Except.ok.injEq] at verified
    obtain ⟨_,reported,_,checked,rfl⟩ := verified
    obtain ⟨rfl,rfl⟩ := append_eq_nil_iff.mp (isEmpty_iff.mp valid)
    exact ⟨reported,checked⟩
  · rintro ⟨reported,checked⟩
    refine ⟨⟨true,entries.length,(byWriter entries).entries.length,[]⟩,?_,rfl⟩
    rw [reported,checked]
    rfl

omit [One ν] [Add ν] [ToString ν] in
theorem expected_pair :
    expected crypto secrets entry = (verifierPair crypto secrets entry).map (fun pair => crypto.hmac pair.1 pair.2) := by
  rw [expected,verifierPair,Option.map_map]
  rfl

theorem follows_congr (prev : b.prev = f.prev) (number : b.number = f.number) (after : Follows a b) : Follows a f := by
  simp only [Follows,brokenLink,sequenceGap] at after ⊢
  rw [← prev,← number]
  exact after

omit [One ν] [Add ν] [ToString ν] in
theorem expected_signed (owed : expected crypto secrets e = some due) (signed : e.hmac = some (.str due)) :
    ∃ pair, verifierPair crypto secrets e = some pair ∧ SignedWith crypto e pair := by
  rw [expected_pair] at owed
  obtain ⟨pair,got,rfl⟩ := map_eq_some_iff.mp owed
  refine ⟨pair,got,?_,signed⟩
  obtain ⟨_,_,rfl⟩ := map_eq_some_iff.mp got
  exact canonicalPayload_same

theorem hmac_commits (sound : ∀ v ∈ visits entries, Sound (expected crypto secrets) entries v)
    (ideal : CollisionFree crypto (entries.filterMap (verifierPair crypto secrets))) (first : e ∈ entries) (second : f ∈ entries)
    (same : e.hmac = f.hmac) : e.writer = f.writer ∧ e.prev = f.prev ∧ e.number = f.number := by
  obtain ⟨_,due,marked⟩ := signed_all sound first
  obtain ⟨p,pair,signed⟩ := expected_signed due marked
  obtain ⟨_,due,marked⟩ := signed_all sound second
  obtain ⟨q,mate,countersigned⟩ := expected_signed due marked
  obtain ⟨writerId,seq,prev⟩ := signed_commits ideal signed countersigned (mem_filterMap.mpr ⟨e,first,pair⟩)
    (mem_filterMap.mpr ⟨f,second,mate⟩) same
  refine ⟨?_,prev,?_⟩
  · rw [AuditEntry.writer,AuditEntry.writer,writerId]
  · rw [AuditEntry.number,AuditEntry.number,seq]

variable {log copy : List (AuditEntry ν)}

section
variable (sound : ∀ v ∈ visits log, Sound (expected crypto secrets) log v)
include sound

theorem written_chain (plain : ∀ e ∈ log, e.writer.isObject = false) (writer : Json ν) : (writtenBy log writer).IsChain Follows := by
  have linked := group_linked writer none _ (fun v visited => sound v (mem_visits.mpr ⟨⟨writer,none⟩,visited⟩))
  simpa [members_writtenBy plain] using linked

theorem log_chain (plain : ∀ e ∈ log, e.writer.isObject = false) (ideal : CollisionFree crypto (log.filterMap (verifierPair crypto secrets)))
    (rooted : Rooted log) (writer : Json ν) : LinkedChain Follows AuditEntry.hmac (writtenBy log writer) where
  linked := written_chain sound plain writer
  determined first second := (follows_prev first).trans (follows_prev second).symm
  committed first second same after := by
    obtain ⟨_,prev,number⟩ := hmac_commits sound ideal (mem_of_mem_filter first) (mem_of_mem_filter second) same
    exact follows_congr prev number after
  rooted := rooted writer

end
theorem last_kept (anchored : ∀ a ∈ exportAnchors log, checkAnchor copy a = .ok []) (taken : ∀ e ∈ copy, e ∈ log)
    (chain : LinkedChain Follows AuditEntry.hmac (writtenBy log writer)) :
    ∀ last ∈ (writtenBy log writer).getLast?, last ∈ writtenBy copy writer := by
  intro last got
  have group : (members log ⟨writer,none⟩).map fst = writtenBy log writer :=
    members_writtenBy (fun e => plain_writers anchored)
  have ended : (members log ⟨writer,none⟩).getLast?.map fst = some last := by
    rw [← getLast?_map,group]
    exact got
  obtain ⟨m,lastly,rfl⟩ := map_eq_some_iff.mp ended
  obtain ⟨hit,mem,hmac,owner,_⟩ := head_kept anchored lastly
  have listed : hit ∈ writtenBy log writer := mem_filter.mpr ⟨taken hit mem,by simpa using owner⟩
  cases chain.tag_injective listed (mem_of_getLast? got) hmac
  exact mem_filter.mpr ⟨mem,by simpa using owner⟩

omit [One ν] [Add ν] [ToString ν] in
theorem expected_filled (owed : expected crypto secrets e = some due) : due ≠ "" := by
  rw [expected_pair] at owed
  obtain ⟨pair,_,rfl⟩ := map_eq_some_iff.mp owed
  exact crypto.filled pair.1 pair.2

theorem starts_first (sound : ∀ v ∈ visits log, Sound (expected crypto secrets) log v)
    (ideal : CollisionFree crypto (log.filterMap (verifierPair crypto secrets))) (taken : ∀ e ∈ copy, e ∈ log)
    (checked : ∀ v ∈ visits copy, Sound (expected crypto secrets) copy v) (plain : ∀ e ∈ copy, e.writer.isObject = false)
    (chain : LinkedChain Follows AuditEntry.hmac (writtenBy log writer))
    (inside : i < (writtenBy log writer).length) (starts : (writtenBy copy writer).head? = some (writtenBy log writer)[i])
    (elsewhere : copy.head?.map AuditEntry.writer ≠ some writer) : i = 0 := by
  cases i with
  | zero => rfl
  | succ k =>
    exfalso
    have after := chain.next_follows k inside
    have earlier : (writtenBy log writer)[k] ∈ writtenBy log writer := getElem_mem _
    generalize written : (writtenBy log writer)[k] = before at after earlier
    generalize entered : (writtenBy log writer)[k + 1] = a at after starts
    rw [← members_writtenBy plain,head?_map] at starts
    obtain ⟨first,heads,rfl⟩ := map_eq_some_iff.mp starts
    obtain ⟨_,group⟩ := head?_eq_some_iff.mp heads
    obtain ⟨line,own⟩ := (member_exact plain).mp (show first ∈ members copy ⟨writer,none⟩ by simp [group])
    have anchored : unanchored copy none first.1 first.2 = false :=
      (checked ⟨writer,none,first.1,first.2⟩ (mem_visits.mpr ⟨⟨writer,none⟩,by simp [group,groupVisits]⟩)).anchored
    have off : first.2 ≠ 0 := by
      intro zero
      refine elsewhere ?_
      have top := mem_zipIdx_iff_getElem?.mp line
      rw [zero,← head?_eq_getElem?] at top
      rw [top,Option.map_some,own]
    have link : before.hmac = some first.1.prev := follows_prev after
    obtain ⟨_,due,signed⟩ := signed_all sound (mem_of_mem_filter earlier)
    have linked : first.1.prev ≠ .str "" := by
      rw [signed,some.injEq] at link
      rw [← link,Ne,Json.str.injEq]
      exact expected_filled due
    obtain ⟨anchor,⟨mem,hmac⟩,_⟩ := anchor_found anchored off linked
    have known : anchor.1 ∈ copy := fst_mem_of_mem_zipIdx mem
    obtain ⟨owner,_⟩ := hmac_commits sound ideal (taken _ known) (mem_of_mem_filter earlier) (hmac.trans link.symm)
    have author : before.writer = writer := by simpa using (mem_filter.mp earlier).2
    rcases first_lowest group ((member_exact plain).mpr ⟨mem,owner.trans author⟩) with rfl | _
    · have twice : (writtenBy log writer)[k + 1].hmac = (writtenBy log writer)[k].hmac := by
        rw [written,entered,hmac,link]
      have index := chain.tag_index inside (by omega) twice
      omega
    · omega

-- An accepted copy has the end of a writer's entries, all of them unless it begins with that writer.
theorem tamper_evident (verified : Valid crypto secrets [] log)
    (ideal : CollisionFree crypto (log.filterMap (verifierPair crypto secrets))) (rooted : Rooted log)
    (taken : ∀ e ∈ copy, e ∈ log) (accepted : Valid crypto secrets (exportAnchors log) copy) (writer : Json ν) :
    writtenBy copy writer <:+ writtenBy log writer ∧
      (writtenBy copy writer).getLast? = (writtenBy log writer).getLast? ∧
      (copy.head?.map AuditEntry.writer ≠ some writer → writtenBy copy writer = writtenBy log writer) := by
  obtain ⟨sound,_⟩ := valid_exact.mp verified
  obtain ⟨checked,anchored⟩ := valid_exact.mp accepted
  have plain : ∀ e ∈ log, e.writer.isObject = false := fun e present => plain_writers anchored present
  have plainCopy : ∀ e ∈ copy, e.writer.isObject = false := fun e present => plain e (taken e present)
  have chain := log_chain sound plain ideal rooted writer
  have linked := written_chain checked plainCopy writer
  have kept := last_kept anchored taken chain
  have part : ∀ e ∈ writtenBy copy writer, e ∈ writtenBy log writer :=
    fun e listed => mem_filter.mpr ⟨taken e (mem_of_mem_filter listed),(mem_filter.mp listed).2⟩
  cases segment : writtenBy copy writer with
  | nil =>
    have nothing : writtenBy log writer = [] := by
      cases found : (writtenBy log writer).getLast? with
      | none => exact getLast?_eq_none_iff.mp found
      | some last =>
        have held := kept last found
        rw [segment] at held
        cases held
    simp [nothing]
  | cons first =>
    rw [segment] at linked kept part
    obtain ⟨i,inside,here⟩ := getElem_of_mem (part first mem_cons_self)
    rw [← here] at linked kept
    have whole := chain.drop_of_linked inside linked (fun b listed => part b (mem_cons_of_mem _ listed)) kept
    rw [here] at whole
    rw [whole]
    refine ⟨drop_suffix _ _,?_,?_⟩
    · rw [getLast?_drop,if_neg (by omega)]
    · intro elsewhere
      have start := starts_first sound ideal taken checked plainCopy chain inside (by rw [segment,here]; rfl) elsewhere
      rw [start,drop_zero]

-- Sequence numbers that grow exclude a chain that closes on itself.
theorem numbered_rises [Preorder ν] (rising : ∀ n : ν, n < n + 1)
    (linked : (first :: rest).IsChain Follows) (numbered : ∀ e ∈ first :: rest, ∃ n, e.seq = some (.num n))
    (start : first.seq = some (.num n)) (mem : e ∈ first :: rest) (here : e.seq = some (.num m)) : n ≤ m := by
  induction rest generalizing first n with
  | nil =>
    cases mem_singleton.mp mem
    cases start.symm.trans here
    exact le_refl _
  | cons b rest ih =>
    obtain ⟨after,linked⟩ := isChain_cons_cons.mp linked
    rcases mem_cons.mp mem with rfl | later
    · cases start.symm.trans here
      exact le_refl _
    · have counted : ∀ e ∈ b :: rest, ∃ n, e.seq = some (.num n) := fun e mem => numbered e (mem_cons_of_mem _ mem)
      obtain ⟨k,next⟩ := counted b mem_cons_self
      have step : k = n + 1 := follows_number after start next
      exact le_trans (le_of_lt (rising n)) (step ▸ ih linked counted next later)

theorem numbered_rooted [Preorder ν] (rising : ∀ n : ν, n < n + 1) (numbered : ∀ e ∈ log, ∃ n, e.seq = some (.num n))
    (linked : ∀ writer, (writtenBy log writer).IsChain Follows) : Rooted log := by
  intro writer first heads e mem after
  obtain ⟨_,written⟩ := head?_eq_some_iff.mp heads
  have counted : ∀ e ∈ writtenBy log writer, ∃ n, e.seq = some (.num n) := fun e mem => numbered e (mem_of_mem_filter mem)
  have chain := linked writer
  obtain ⟨m,here⟩ := counted e mem
  rw [written] at counted chain mem
  obtain ⟨n,start⟩ := counted first mem_cons_self
  have above : n ≤ m := numbered_rises rising chain counted start mem here
  rw [follows_number after here start] at above
  exact absurd above (not_le_of_gt (rising m))
end

namespace Sample
def entry (writer : String) (seq : Int) (prevHmac : String) : AuditEntry Int :=
  let data : AuditEntry Int := ⟨some (.str "auth.success"),none,none,none,none,none,some (.str writer),some (.num seq),
    some (.str prevHmac),none,none,none,none⟩
  {data with hmac := some (.str (mac AuditChain.Sample.crypto "secret" data))}

def tag (e : AuditEntry Int) : String := mac AuditChain.Sample.crypto "secret" e

def first : AuditEntry Int := entry "a" 1 ""
def other : AuditEntry Int := entry "b" 1 ""
def second : AuditEntry Int := entry "a" 2 (tag first)

def log : List (AuditEntry Int) := [first,other,second]
def copy : List (AuditEntry Int) := [second,other]
end Sample

open Sample

theorem pruned_copy_evident : Valid AuditChain.Sample.crypto ["secret"] (exportAnchors log) copy ∧
    writtenBy copy (.str "a") <:+ writtenBy log (.str "a") ∧
    (writtenBy copy (.str "a")).getLast? = (writtenBy log (.str "a")).getLast? ∧
    (copy.head?.map AuditEntry.writer ≠ some (.str "a") →
      writtenBy copy (.str "a") = writtenBy log (.str "a")) := by
  have verified : Valid AuditChain.Sample.crypto ["secret"] [] log := ⟨⟨true,3,2,[]⟩,by decide +kernel,rfl⟩
  have accepted : Valid AuditChain.Sample.crypto ["secret"] (exportAnchors log) copy := ⟨⟨true,2,2,[]⟩,by decide +kernel,rfl⟩
  have ideal : CollisionFree AuditChain.Sample.crypto (log.filterMap (verifierPair AuditChain.Sample.crypto ["secret"])) := by
    unfold CollisionFree
    decide +kernel
  have rooted : Rooted log := by
    refine numbered_rooted Int.lt_succ ?_ (written_chain (valid_exact.mp verified).1 (by decide +kernel))
    intro e listed
    simp only [log,mem_cons,not_mem_nil,or_false] at listed
    rcases listed with rfl | rfl | rfl
    · exact ⟨1,rfl⟩
    · exact ⟨1,rfl⟩
    · exact ⟨2,rfl⟩
  have taken : ∀ e ∈ copy, e ∈ log := by decide +kernel
  exact ⟨accepted,tamper_evident verified ideal rooted taken accepted (.str "a")⟩

end StellarPriceOracle.TamperEvidence
