import Mathlib.Algebra.Ring.Int.Defs
import Mathlib.Data.List.Chain
import StellarPriceOracle.AuditChain
import StellarPriceOracle.Library.JsNumber

namespace StellarPriceOracle.AuditRetention
open AuditChain Json
open InsertionMap (get_set get_set_ne get_exact)
open List
open Prod (fst)
open JsNumber (le lt)
open Option (mem_def some)

-- `enforceAuditRetention`. `parseJson` gives the fields of a line that is JSON and truthy; `dateParse` is none for NaN.
structure Reader (ν : Type) where
  parseJson : String → Option (AuditEntry ν)
  dateParse : Option (Json ν) → Option Int
  day : Int → String

abbrev Lines := List String

structure RetentionPlan where
  keep : Lines
  byDate : InsertionMap String Lines
  (archived unparseable : Nat)

structure Files where
  log : Option Lines
  archive : InsertionMap String Lines

inductive Status where
  | completed | skipped | failed
  deriving DecidableEq

structure AuditRetentionResult where
  status : Status
  (total kept archived : Nat)
  error : Option String

-- One pass of the loop, with what other writers do to the log meanwhile.
structure Attempt where
  cutoffMs : JsNumber
  (before during : Lines → Lines)

-- The loop's variables, with the cutoff of the plan.
structure Sweep where
  source : Lines
  cutoffMs : JsNumber
  plan : RetentionPlan
  archivedAppended : Nat
  renamed : Bool
  log : Lines
  archive : InsertionMap String Lines

section
variable {ν : Type} (reader : Reader ν)

def readAuditEntries (lines : Lines) : List (AuditEntry ν) := lines.filterMap reader.parseJson

def parseLine (line : String) : Option (AuditEntry ν) := (reader.parseJson line).filter (fun entry => entry.event.isSome)

def planLine (cutoffMs : JsNumber) (plan : RetentionPlan) (line : String) : RetentionPlan :=
  match parseLine reader line with
  | none => {plan with unparseable := plan.unparseable + 1, keep := plan.keep ++ [line]}
  | some entry =>
    match reader.dateParse entry.timestamp with
    | none => {plan with keep := plan.keep ++ [line]}
    | some timestampMs =>
      if le cutoffMs (.finite timestampMs) then {plan with keep := plan.keep ++ [line]}
      else
        let date := reader.day timestampMs
        {plan with byDate := plan.byDate.set date ((plan.byDate.get date).getD [] ++ [line]), archived := plan.archived + 1}

def buildPlan (lines : Lines) (cutoffMs : JsNumber) : RetentionPlan :=
  lines.foldl (planLine reader cutoffMs) ⟨[],.empty,0,0⟩

def archiveDate (done : InsertionMap String Lines × Nat) (bucket : String × Lines) : InsertionMap String Lines × Nat :=
  let alreadyArchived := (done.1.get bucket.1).getD []
  let fresh := bucket.2.filter (fun line => line ∉ alreadyArchived)
  if fresh.length > 0 then (done.1.set bucket.1 (alreadyArchived ++ fresh),done.2 + fresh.length) else done

def archiveDated (archive : InsertionMap String Lines) (dated : InsertionMap String Lines) : InsertionMap String Lines × Nat :=
  dated.entries.foldl archiveDate (archive,0)

-- The log is replaced only if it still is what the plan was made from.
def replaceLog (s : Sweep) (attempt : Attempt) : Sweep :=
  let written := if s.plan.archived > 0 then archiveDated s.archive s.plan.byDate else (s.archive,0)
  let current := attempt.during s.log
  let done := {s with archive := written.1, archivedAppended := s.archivedAppended + written.2, log := current}
  if current ≠ s.source then done else {done with log := s.plan.keep, renamed := true}

def retry (s : Sweep) (attempt : Attempt) : Sweep :=
  if s.renamed then s else
    let source := attempt.before s.log
    let plan := buildPlan reader source attempt.cutoffMs
    replaceLog {s with log := source, source := source, cutoffMs := attempt.cutoffMs, plan := plan} attempt

def sweep (lines : Lines) (archive : InsertionMap String Lines) (attempts : Fin 3 → Attempt) : Sweep :=
  [attempts 1,attempts 2].foldl (retry reader)
    (replaceLog ⟨lines,(attempts 0).cutoffMs,buildPlan reader lines (attempts 0).cutoffMs,0,false,lines,archive⟩ (attempts 0))

-- `lock` is the message of the error that acquiring the lock ends with, if it does.
def enforceAuditRetention (lock : Option String) (files : Files) (attempts : Fin 3 → Attempt) : AuditRetentionResult × Files :=
  match lock with
  | some reason =>
    (⟨if reason.startsWith "audit retention is already running" then .skipped else .failed,0,0,0,some reason⟩,files)
  | none =>
    match files.log with
    | none => (⟨.completed,0,0,0,none⟩,files)
    | some lines =>
      if (buildPlan reader lines (attempts 0).cutoffMs).archived = 0 then (⟨.completed,lines.length,lines.length,0,none⟩,files)
      else
        let s := sweep reader lines files.archive attempts
        let after : Files := ⟨some s.log,s.archive⟩
        if s.renamed = false then
          (⟨.skipped,s.source.length,s.plan.keep.length,s.plan.archived,
            some "concurrent writer changed the audit log during retention"⟩,after)
        else if s.log.length < s.plan.keep.length ∨ ∃ line ∈ s.log, (parseLine reader line).isNone then
          (⟨.failed,0,0,0,some ("post-retention verification failed: expected at least " ++ toString s.plan.keep.length ++
            " entries, read " ++ toString s.log.length)⟩,after)
        else (⟨.completed,s.source.length,s.plan.keep.length,s.plan.archived,none⟩,after)

-- The log that the run replaces or leaves as it is, the one it read last, and the cutoff that goes with it.
def lastRead (files : Files) (attempts : Fin 3 → Attempt) : Lines × JsNumber :=
  match files.log with
  | none => ([],(attempts 0).cutoffMs)
  | some lines =>
    if (buildPlan reader lines (attempts 0).cutoffMs).archived = 0 then (lines,(attempts 0).cutoffMs)
    else
      let s := sweep reader lines files.archive attempts
      (s.source,s.cutoffMs)

def oldLog (files : Files) (attempts : Fin 3 → Attempt) : Lines := (lastRead reader files attempts).1

def cutoff (files : Files) (attempts : Fin 3 → Attempt) : JsNumber := (lastRead reader files attempts).2

def Files.active (files : Files) : Lines := files.log.getD []

def Archived (archive : InsertionMap String Lines) (line : String) : Prop := ∃ date, line ∈ (archive.get date).getD []

@[simp] def timestampMs (line : String) : Option Int := (parseLine reader line).bind (fun entry => reader.dateParse entry.timestamp)

structure Timed (lines : Lines) : Prop where
  dated : ∀ line ∈ lines, parseLine reader line ≠ none → timestampMs reader line ≠ none
  ordered : lines.Pairwise (fun a b => ∀ s ∈ timestampMs reader a, ∀ t ∈ timestampMs reader b, s ≤ t)

def keeps (cutoffMs : JsNumber) (line : String) : Bool :=
  match timestampMs reader line with
  | none => true
  | some ms => le cutoffMs (.finite ms)

-- The cutoff leaves an entry of a line in place that is not older, or that is not read as an event.
def recent (cutoffMs : JsNumber) (entry : AuditEntry ν) : Bool :=
  entry.event.isNone || (reader.dateParse entry.timestamp).all (fun ms => le cutoffMs (.finite ms))
end

section
variable {ν : Type} (remains : AuditEntry ν → Bool) (entries : List (AuditEntry ν))

def left : List (Member ν) := entries.zipIdx.filter (fun m => remains m.1)

-- An entry that is the first of its writer to remain opens what remains, starts a chain, or names an entry that
-- remains too, and none on a later line.
def KeepsAnchors [DecidableEq ν] : Prop :=
  ∀ m ∈ left remains entries,
    (∀ other ∈ left remains entries, other.2 < m.2 → key other.1.writer other.2 ≠ key m.1.writer m.2) →
    (∀ other ∈ left remains entries, m.2 ≤ other.2) ∨ m.1.prev = .str "" ∨
    (∃ anchor ∈ left remains entries, same anchor.1.hmac (some m.1.prev) = true) ∧
      ∀ anchor ∈ left remains entries, same anchor.1.hmac (some m.1.prev) = true → anchor.2 ≤ m.2
end

section
variable {ν : Type}

theorem planLine_parts (reader : Reader ν) (cutoffMs : JsNumber) (plan : RetentionPlan) (line : String) :
    (keeps reader cutoffMs line = true ∧ (planLine reader cutoffMs plan line).keep = plan.keep ++ [line] ∧
      (planLine reader cutoffMs plan line).byDate = plan.byDate ∧ (planLine reader cutoffMs plan line).archived = plan.archived) ∨
    (keeps reader cutoffMs line = false ∧ (planLine reader cutoffMs plan line).keep = plan.keep ∧
      (planLine reader cutoffMs plan line).archived = plan.archived + 1 ∧
      ∃ date, (planLine reader cutoffMs plan line).byDate = plan.byDate.set date ((plan.byDate.get date).getD [] ++ [line])) := by
  cases parsed : parseLine reader line with
  | none => exact .inl (by simp [planLine,keeps,parsed])
  | some entry =>
    cases dated : reader.dateParse entry.timestamp with
    | none => exact .inl (by simp [planLine,keeps,parsed,dated])
    | some ms =>
      cases recent : le cutoffMs (.finite ms) with
      | true => exact .inl (by simp [planLine,keeps,parsed,dated,recent])
      | false =>
        refine .inr ⟨?_,?_,?_,reader.day ms,?_⟩ <;> simp [planLine,keeps,parsed,dated,recent]

def Bucketed (byDate : InsertionMap String Lines) (line : String) : Prop := ∃ date bucket, byDate.get date = some bucket ∧ line ∈ bucket

theorem bucketed_set (added : String) (held : Bucketed byDate line ∨ line = added) :
    Bucketed (byDate.set date ((byDate.get date).getD [] ++ [added])) line := by
  rcases held with ⟨other,bucket,got,mem⟩ | rfl
  · rcases eq_or_ne other date with rfl | here
    · exact ⟨other,_,get_set,by simp [got,mem]⟩
    · exact ⟨other,bucket,by rw [get_set_ne here,got],mem⟩
  · exact ⟨date,_,get_set,by simp⟩

theorem plan_parts (lines : Lines) (plan : RetentionPlan) : (lines.foldl (planLine reader cutoffMs) plan).keep =
      plan.keep ++ lines.filter (keeps reader cutoffMs) ∧
    (lines.foldl (planLine reader cutoffMs) plan).archived = plan.archived + (lines.filter (fun line => !keeps reader cutoffMs line)).length ∧
    ∀ line, Bucketed plan.byDate line ∨ (line ∈ lines ∧ keeps reader cutoffMs line = false) →
      Bucketed (lines.foldl (planLine reader cutoffMs) plan).byDate line := by
  induction lines generalizing plan with
  | nil => simp
  | cons first _ ih =>
    obtain ⟨keep,archived,bucketed⟩ := ih (planLine reader cutoffMs plan first)
    rw [foldl_cons]
    rcases planLine_parts reader cutoffMs plan first with ⟨kept,stays,same,count⟩ | ⟨aged,stays,count,_,added⟩
    · refine ⟨by simp [keep,stays,kept],by simp [archived,count,kept],?_⟩
      rintro line (held | ⟨mem,dropped⟩)
      · exact bucketed line (.inl (same ▸ held))
      · rcases mem_cons.mp mem with rfl | later
        · cases kept.symm.trans dropped
        · exact bucketed line (.inr ⟨later,dropped⟩)
    · refine ⟨by simp [keep,stays,aged],by simp [archived,count,aged]; omega,?_⟩
      rintro line (held | ⟨mem,dropped⟩)
      · exact bucketed line (.inl (added ▸ bucketed_set first (.inl held)))
      · rcases mem_cons.mp mem with rfl | later
        · exact bucketed line (.inl (added ▸ bucketed_set line (.inr rfl)))
        · exact bucketed line (.inr ⟨later,dropped⟩)

theorem buildPlan_keep : (buildPlan reader lines cutoffMs).keep = lines.filter (keeps reader cutoffMs) := by
  exact (plan_parts lines ⟨[],.empty,0,0⟩).1

theorem buildPlan_none (none : (buildPlan reader lines cutoffMs).archived = 0) : ∀ line ∈ lines, keeps reader cutoffMs line = true := by
  have count : (buildPlan reader lines cutoffMs).archived = _ := (plan_parts lines ⟨[],.empty,0,0⟩).2.1
  intro line mem
  rw [none] at count
  have dropped : lines.filter (fun line => !keeps reader cutoffMs line) = [] := eq_nil_of_length_eq_zero (by simpa using count.symm)
  simpa using filter_eq_nil_iff.mp dropped line mem

theorem buildPlan_bucketed (mem : line ∈ lines) (aged : keeps reader cutoffMs line = false) :
    Bucketed (buildPlan reader lines cutoffMs).byDate line :=
  (plan_parts lines ⟨[],.empty,0,0⟩).2.2 line (.inr ⟨mem,aged⟩)

theorem archiveDate_keeps :
    ∀ line, line ∈ (done.1.get date).getD [] ∨ (bucket.1 = date ∧ line ∈ bucket.2) → line ∈ ((archiveDate done bucket).1.get date).getD [] := by
  intro line held
  unfold archiveDate
  dsimp only
  split
  · rcases eq_or_ne date bucket.1 with rfl | here
    · rw [get_set]
      rcases held with before | ⟨_,mem⟩
      · simp [before]
      · by_cases old : line ∈ (done.1.get bucket.1).getD []
        · simp [old]
        · simp [mem,old]
    · rw [get_set_ne here]
      rcases held with before | ⟨rfl,_⟩
      · exact before
      · exact absurd rfl here
  · rename_i nothing
    rcases held with before | ⟨rfl,mem⟩
    · exact before
    · have empty := eq_nil_of_length_eq_zero (Nat.eq_zero_of_not_pos nothing)
      simpa using filter_eq_nil_iff.mp empty line mem

theorem archiveFold_keeps (buckets : List (String × Lines)) (done : InsertionMap String Lines × Nat) (date : String) :
    ∀ line, line ∈ (done.1.get date).getD [] ∨ (∃ bucket ∈ buckets, bucket.1 = date ∧ line ∈ bucket.2) →
      line ∈ ((buckets.foldl archiveDate done).1.get date).getD [] := by
  induction buckets generalizing done with
  | nil => simp
  | cons _ _ ih =>
    intro line held
    rw [foldl_cons]
    apply ih
    rcases held with before | ⟨other,mem,dated,holds⟩
    · exact .inl (archiveDate_keeps line (.inl before))
    · rcases mem_cons.mp mem with rfl | later
      · exact .inl (archiveDate_keeps line (.inr ⟨dated,holds⟩))
      · exact .inr ⟨other,later,dated,holds⟩

theorem archiveDated_bucketed (bucketed : Bucketed dated line) : Archived (archiveDated archive dated).1 line := by
  obtain ⟨date,bucket,got,mem⟩ := bucketed
  exact ⟨date,archiveFold_keeps _ _ date line (.inr ⟨(date,bucket),get_exact.mp got,rfl,mem⟩)⟩

structure Replaced (reader : Reader ν) (s : Sweep) : Prop where
  log : s.log = s.source.filter (keeps reader s.cutoffMs)
  aged : ∀ line ∈ s.source, keeps reader s.cutoffMs line = false → Archived s.archive line

theorem replaceLog_replaced (planned : s.plan = buildPlan reader s.source s.cutoffMs) (pending : s.renamed = false)
    (renamed : (replaceLog s attempt).renamed = true) : Replaced reader (replaceLog s attempt) := by
  unfold replaceLog at renamed ⊢
  dsimp only at renamed ⊢
  split at renamed
  · cases pending.symm.trans renamed
  · rename_i same
    rw [if_neg same]
    refine ⟨by rw [planned,buildPlan_keep],?_⟩
    intro line mem aged
    dsimp only
    split
    · exact archiveDated_bucketed (planned ▸ buildPlan_bucketed mem aged)
    · rename_i none
      rw [planned] at none
      have kept := buildPlan_none (Nat.eq_zero_of_not_pos none) line mem
      cases kept.symm.trans aged

theorem retry_replaced (before : s.renamed = true → Replaced reader s) (renamed : (retry reader s attempt).renamed = true) :
    Replaced reader (retry reader s attempt) := by
  unfold retry at renamed ⊢
  split
  · rename_i already
    exact before already
  · rename_i pending
    rw [if_neg pending] at renamed
    exact replaceLog_replaced rfl (by simpa using pending) renamed

theorem sweep_replaced (renamed : (sweep reader lines archive attempts).renamed = true) :
    Replaced reader (sweep reader lines archive attempts) := by
  apply retry_replaced (fun second => ?_) renamed
  apply retry_replaced (fun first => ?_) second
  exact replaceLog_replaced rfl rfl first
end

section
variable {ν : Type}

theorem completed_parts (completed : (enforceAuditRetention reader lock files attempts).1.status = .completed) :
    (enforceAuditRetention reader lock files attempts).2.active =
        (oldLog reader files attempts).filter (keeps reader (cutoff reader files attempts)) ∧
      (∀ line ∈ oldLog reader files attempts, keeps reader (cutoff reader files attempts) line = false →
        Archived (enforceAuditRetention reader lock files attempts).2.archive line) ∧
      ((∀ line ∈ oldLog reader files attempts, keeps reader (cutoff reader files attempts) line = true) ∨
        ∀ line ∈ oldLog reader files attempts, keeps reader (cutoff reader files attempts) line = true →
          parseLine reader line ≠ none) := by
  unfold enforceAuditRetention at completed ⊢
  cases lock with
  | some =>
    dsimp only at completed
    split at completed <;> cases completed
  | none =>
    dsimp only at completed ⊢
    unfold oldLog cutoff lastRead
    cases mem : files.log with
    | none => exact ⟨by simp [Files.active,mem],by simp,.inl (by simp)⟩
    | some =>
      simp only [mem] at completed ⊢
      split at completed
      · rename_i none
        have kept := buildPlan_none none
        simp only [if_pos none]
        refine ⟨?_,?_,.inl kept⟩
        · rw [filter_eq_self.mpr kept,Files.active,mem]
          rfl
        · intro line listed aged
          rw [kept line listed] at aged
          cases aged
      · rename_i some
        simp only [if_neg some] at completed ⊢
        split at completed
        · cases completed
        · rename_i renamed
          split at completed
          · cases completed
          · rename_i readable
            obtain ⟨log,aged⟩ := sweep_replaced (by simpa using renamed)
            rw [if_neg renamed,if_neg readable]
            refine ⟨log,aged,.inr ?_⟩
            intro line listed kept unparsed
            apply readable
            refine .inr ⟨line,?_,by simp [unparsed]⟩
            rw [log]
            exact mem_filter.mpr ⟨listed,kept⟩

theorem oldLog_undisturbed (quiet : ∀ number lines, (attempts number).before lines = lines ∧ (attempts number).during lines = lines) :
    oldLog reader files attempts = files.active := by
  unfold oldLog lastRead Files.active
  cases files.log with
  | none => rfl
  | some lines =>
    dsimp only [Option.getD_some]
    split
    · rfl
    · simp [sweep,replaceLog,(quiet 0 lines).2,retry]

theorem le_later {s t : Int} (recent : le cutoffMs (.finite s) = true) (ordered : s ≤ t) : le cutoffMs (.finite t) = true := by
  cases cutoffMs with
  | nan => cases recent
  | infinite => exact recent
  | finite =>
    simp only [le,lt,Bool.not_eq_true',decide_eq_false_iff_not,Rat.not_lt] at recent ⊢
    exact Rat.le_trans recent (Rat.intCast_le_intCast.mpr ordered)

theorem kept_suffix {lines : Lines} (timed : Timed reader lines)
    (readable : ∀ line ∈ lines, keeps reader cutoffMs line = true → parseLine reader line ≠ none) :
    lines = lines.filter (fun line => !keeps reader cutoffMs line) ++ lines.filter (keeps reader cutoffMs) := by
  induction lines with
  | nil => rfl
  | cons line rest ih =>
    obtain ⟨ordered,later⟩ := pairwise_cons.mp timed.ordered
    have tail := ih ⟨fun l mem => timed.dated l (by simp [mem]),later⟩ (fun l mem => readable l (by simp [mem]))
    cases kept : keeps reader cutoffMs line with
    | false =>
      simp only [filter_cons,kept]
      simpa using tail
    | true =>
      have all : ∀ other ∈ rest, keeps reader cutoffMs other = true := by
        intro other mem
        obtain ⟨s,dated⟩ := Option.ne_none_iff_exists'.mp (timed.dated line (by simp) (readable line (by simp) kept))
        simp only [keeps,dated] at kept
        unfold keeps
        split
        · rfl
        · rename_i t held
          exact le_later kept (ordered other mem s dated t held)
      have none : rest.filter (fun other => !keeps reader cutoffMs other) = [] := by
        rw [filter_eq_nil_iff]
        intro other mem
        simp [all other mem]
      simp [kept,none,filter_eq_self.mpr all]
end

section
variable {ν : Type}

theorem keeps_entry {reader : Reader ν} (parsed : reader.parseJson line = some entry) :
    keeps reader cutoffMs line = recent reader cutoffMs entry := by
  unfold keeps recent
  cases named : entry.event with
  | none => simp [parseLine,parsed,Option.filter_some,named]
  | some => cases dated : reader.dateParse entry.timestamp <;> simp [parseLine,parsed,Option.filter_some,named,dated]

theorem read_entry {reader : Reader ν} {lines : Lines} {p : String → Bool} (mem : e ∈ readAuditEntries reader (lines.filter p)) : ∃ line, p line = true ∧
    keeps reader cutoffMs line = recent reader cutoffMs e := by
  obtain ⟨line,listed,parsed⟩ := mem_filterMap.mp mem
  exact ⟨line,(mem_filter.mp listed).2,keeps_entry parsed⟩

theorem zipIdx_later (entries : List (AuditEntry ν)) : entries.zipIdx.Pairwise (fun a b => a.2 < b.2) := by
  have places : (entries.zipIdx.map Prod.snd).Pairwise (· < ·) := by
    rw [zipIdx_map_snd]
    exact pairwise_lt_range'
  exact pairwise_map.mp places

@[simp] theorem left_all (entries : List (AuditEntry ν)) : left (fun _ => true) entries = entries.zipIdx := filter_eq_self.mpr (by simp)

-- What remains stands as far behind its old lines as there were lines archived.
theorem left_rest {archived entries : List (AuditEntry ν)} (aged : ∀ e ∈ archived, remains e = false)
    (recent : ∀ e ∈ entries, remains e = true) :
    left remains (archived ++ entries) = entries.zipIdx.map (Prod.map id (· + archived.length)) := by
  have none : archived.zipIdx.filter (fun m => remains m.1) = [] := by
    rw [filter_eq_nil_iff]
    intro m mem
    simp [aged m.1 (fst_mem_of_mem_zipIdx mem)]
  rw [left,zipIdx_append,filter_append,none,nil_append,Nat.add_comm 0,← map_snd_add_zipIdx_eq_zipIdx,filter_eq_self.mpr]
  intro m mem
  obtain ⟨n,there,rfl⟩ := mem_map.mp mem
  exact recent n.1 (fst_mem_of_mem_zipIdx there)

theorem key_shift : key value (place + offset) = ⟨k.value,k.place.map (· + offset)⟩ ↔ key value place = k := by
  obtain ⟨_,known⟩ := k
  simp only [key,Key.mk.injEq]
  cases value.isObject <;> cases known <;> simp

theorem key_behind {a b : Json ν} : key a (i + offset) = key b (j + offset) ↔ key a i = key b j := by
  simp only [key,Key.mk.injEq]
  cases a.isObject <;> cases b.isObject <;> simp
end

section
variable {ν : Type} [DecidableEq ν] {entries : List (AuditEntry ν)}

theorem keepsAnchors_rest {archived : List (AuditEntry ν)} (aged : ∀ e ∈ archived, remains e = false)
    (recent : ∀ e ∈ entries, remains e = true) :
    KeepsAnchors remains (archived ++ entries) ↔ KeepsAnchors (fun _ => true) entries := by
  simp only [KeepsAnchors,left_rest aged recent,left_all,forall_mem_map]
  simp only [mem_map,exists_exists_and_eq_and,Prod.map_fst,Prod.map_snd,id,ne_eq,key_behind,Nat.add_lt_add_iff_right,
    Nat.add_le_add_iff_right]

theorem first_exact {m : Member ν} : (members entries writer).head? = some m ↔
    (m ∈ entries.zipIdx ∧ key m.1.writer m.2 = writer) ∧
      ∀ other ∈ entries.zipIdx, other.2 < m.2 → key other.1.writer other.2 ≠ writer := by
  have ordered : (members entries writer).Pairwise (fun a b => a.2 < b.2) := (zipIdx_later entries).filter _
  have listed : ∀ n, n ∈ members entries writer ↔ n ∈ entries.zipIdx ∧ key n.1.writer n.2 = writer := by
    intro n
    simp [members,mem_filter]
  simp only [← listed]
  cases group : members entries writer with
  | nil => simp
  | cons first rest =>
    rw [group] at ordered listed
    obtain ⟨ahead,_⟩ := pairwise_cons.mp ordered
    rw [head?_cons,some.injEq]
    constructor
    · rintro rfl
      refine ⟨mem_cons_self,?_⟩
      intro other there before mine
      rcases mem_cons.mp ((listed other).mpr ⟨there,mine⟩) with rfl | later
      · exact Nat.lt_irrefl _ before
      · exact Nat.lt_asymm before (ahead other later)
    · rintro ⟨mem,earliest⟩
      rcases mem_cons.mp mem with same | later
      · exact same.symm
      · have head := (listed first).mp mem_cons_self
        exact absurd head.2 (earliest first head.1 (ahead m later))

theorem hmacIndex_upTo : (∃ anchor ∈ hmacIndex entries value, anchor ≤ place) ↔
    (∃ m ∈ entries.zipIdx, same m.1.hmac (some value) = true) ∧
      ∀ m ∈ entries.zipIdx, same m.1.hmac (some value) = true → m.2 ≤ place := by
  have ordered : (entries.zipIdx.filter (fun m => same m.1.hmac (some value))).Pairwise (fun a b => a.2 < b.2) :=
    (zipIdx_later entries).filter _
  have listed : ∀ m, m ∈ entries.zipIdx.filter (fun m => same m.1.hmac (some value)) ↔
      m ∈ entries.zipIdx ∧ same m.1.hmac (some value) = true := fun m => mem_filter
  rw [hmacIndex_last]
  simp only [← and_imp,← listed]
  generalize entries.zipIdx.filter (fun m => same m.1.hmac (some value)) = found at ordered
  rcases eq_nil_or_concat found with rfl | ⟨earlier,last,rfl⟩
  · simp
  · rw [concat_eq_append] at ordered ⊢
    have behind := (pairwise_append.mp ordered).2.2
    simp only [getLast?_concat,Option.map_some,mem_def,some.injEq,exists_eq_left']
    constructor
    · intro upTo
      refine ⟨⟨last,mem_concat_self⟩,?_⟩
      intro m mem
      rcases mem_append.mp mem with before | final
      · exact Nat.le_trans (Nat.le_of_lt (behind m before last mem_cons_self)) upTo
      · rwa [mem_singleton.mp final]
    · rintro ⟨_,all⟩
      exact all last mem_concat_self

theorem anchored_exact {first : Member ν} : unanchored entries none first.1 first.2 = false ↔
    first.2 = 0 ∨ first.1.prev = .str "" ∨ ∃ anchor ∈ hmacIndex entries first.1.prev, anchor ≤ first.2 := by
  simp only [unanchored,Option.isNone_none,Bool.true_and,Bool.and_eq_false_iff,decide_eq_false_iff_not,not_not]
  cases hmacIndex entries first.1.prev with
  | none | some anchor => simp; tauto

omit [DecidableEq ν] in
theorem opens_exact {m : Member ν} (mem : m ∈ entries.zipIdx) : m.2 = 0 ↔ ∀ other ∈ entries.zipIdx, m.2 ≤ other.2 := by
  constructor
  · intro zero other _
    omega
  · intro least
    cases entries with
    | nil => cases mem
    | cons e rest => exact Nat.le_zero.mp (least (e,0) (by simp))

theorem anchors_exact : KeepsAnchors (fun _ => true) entries ↔
    ∀ writer, ∀ first ∈ (members entries writer).head?, unanchored entries none first.1 first.2 = false := by
  simp only [KeepsAnchors,left_all,mem_def,first_exact]
  constructor
  · rintro anchors writer m ⟨⟨mem,rfl⟩,earliest⟩
    rw [anchored_exact,hmacIndex_upTo,opens_exact mem]
    exact anchors m mem earliest
  · intro holds m mem earliest
    have anchored := holds _ m ⟨⟨mem,rfl⟩,earliest⟩
    rwa [anchored_exact,hmacIndex_upTo,opens_exact mem] at anchored

theorem members_append (archived entries : List (AuditEntry ν)) (writer : Key ν) : ∃ other earlier,
    (members (archived ++ entries) other).map fst = earlier ++ (members entries writer).map fst := by
  let other : Key ν := ⟨writer.value,writer.place.map (· + archived.length)⟩
  refine ⟨other,(members archived other).map fst,?_⟩
  simp only [members,zipIdx_append,filter_append,map_append]
  congr 1
  rw [Nat.add_comm 0,← map_snd_add_zipIdx_eq_zipIdx,filter_map,map_map]
  have same : ∀ m : Member ν, decide (key m.1.writer (m.2 + archived.length) = other) = decide (key m.1.writer m.2 = writer) :=
    fun m => decide_eq_decide.mpr key_shift
  simp [Function.comp_def,Prod.map_fst,Prod.map_snd,id,same]

variable [Zero ν] [One ν] [Add ν] [ToString ν] {crypto : Crypto ν} {secrets : AuditSecrets}

theorem rest_verifies (archived : List (AuditEntry ν)) (verified : verifyAuditLogChain crypto secrets (archived ++ entries) = .ok ⟨true,none⟩) :
    verifyAuditLogChain crypto secrets entries = .ok ⟨true,none⟩ ↔ KeepsAnchors (fun _ => true) entries := by
  have sound := verified_exact.mp verified
  rw [verified_exact,anchors_exact]
  constructor
  · intro holds writer first leads
    obtain ⟨rest,group⟩ : ∃ rest, members entries writer = first :: rest := by
      cases group : members entries writer with
      | nil => simp [group] at leads
      | cons m rest =>
        simp only [group,head?_cons,mem_def,some.injEq] at leads
        exact ⟨rest,by rw [leads]⟩
    have visited : (⟨writer.value,none,first.1,first.2⟩ : Visit ν) ∈ visits entries := by
      rw [mem_visits]
      exact ⟨writer,by rw [group]; exact mem_cons_self⟩
    exact (holds _ visited).anchored
  · intro anchors v visited
    obtain ⟨writer,mine⟩ := mem_visits.mp visited
    obtain ⟨other,_,split⟩ := members_append archived entries writer
    have linked : ((members (archived ++ entries) other).map fst).IsChain Follows := by
      simpa using group_linked other.value none _ (fun u seen => sound u (mem_visits.mpr ⟨other,seen⟩))
    rw [split] at linked
    refine group_sound writer.value none (members entries writer) ?_ ?_ (anchors writer) v mine
    · simpa using linked.right_of_append
    · intro m listed
      apply signed_all sound
      have mem := (mem_filter.mp listed).1
      exact mem_append_right _ (fst_mem_of_mem_zipIdx mem)

omit [Zero ν] [One ν] [Add ν] [ToString ν] in
theorem one_writer_keeps (name : String) (own : ∀ e ∈ entries, e.writer = .str name) : KeepsAnchors remains entries := by
  intro m mem earliest
  refine .inl ?_
  have mine : ∀ other ∈ left remains entries, key other.1.writer other.2 = ⟨.str name,none⟩ := by
    intro other there
    rw [own other.1 (fst_mem_of_mem_zipIdx (mem_filter.mp there).1)]
    rfl
  intro other there
  refine Nat.not_lt.mp (fun before => earliest other there before ?_)
  rw [mine other there,mine m mem]

-- What a run leaves verifies just where no first entry has lost its anchor to the cutoff, and nothing is lost.
theorem retention_exact {reader : Reader ν} {lock : Option String} {files : Files} {attempts : Fin 3 → Attempt}
    (completed : (enforceAuditRetention reader lock files attempts).1.status = .completed)
    (verified : verifyAuditLogChain crypto secrets (readAuditEntries reader (oldLog reader files attempts)) = .ok ⟨true,none⟩)
    (timed : Timed reader (oldLog reader files attempts)) :
    (verifyAuditLogChain crypto secrets (readAuditEntries reader (enforceAuditRetention reader lock files attempts).2.active) = .ok ⟨true,none⟩ ↔
      KeepsAnchors (recent reader (cutoff reader files attempts)) (readAuditEntries reader (oldLog reader files attempts))) ∧
    ∀ line ∈ oldLog reader files attempts, line ∈ (enforceAuditRetention reader lock files attempts).2.active ∨
      Archived (enforceAuditRetention reader lock files attempts).2.archive line := by
  obtain ⟨kept,archived,readable⟩ := completed_parts completed
  rw [kept]
  constructor
  · have split : oldLog reader files attempts =
        (oldLog reader files attempts).filter (fun line => !keeps reader (cutoff reader files attempts) line) ++
          (oldLog reader files attempts).filter (keeps reader (cutoff reader files attempts)) := by
      rcases readable with all | readable
      · simpa [filter_eq_self.mpr all] using all
      · exact kept_suffix timed readable
    have whole := (congrArg (readAuditEntries reader) split).trans filterMap_append
    rw [whole] at verified ⊢
    refine (rest_verifies _ verified).trans (keepsAnchors_rest ?_ ?_).symm
    · intro e mem
      obtain ⟨line,aged,same⟩ := read_entry mem
      rw [← same]
      simpa using aged
    · intro e mem
      obtain ⟨line,stays,same⟩ := read_entry mem
      rw [← same,stays]
  · intro line listed
    cases held : keeps reader (cutoff reader files attempts) line with
    | true => exact .inl (mem_filter.mpr ⟨listed,held⟩)
    | false => exact .inr (archived line listed held)
end

namespace Sample
def secrets : AuditSecrets := loadAuditSecrets AuditChain.Sample.crypto [] "k"

def signed (time seq : Int) (writer prev : String) : AuditEntry Int :=
  let entry : AuditEntry Int := {
    event := some (.str "e"), timestamp := some (.num time), ip := none, userAgent := none, apiKeyPrefix := none, keyId := none,
    writerId := some (.str writer), seq := some (.num seq), prevHmac := some (.str prev), details := none, prevState := none,
    newState := none, hmac := none}
  {entry with hmac := some (.str (hmacWith AuditChain.Sample.crypto "k" entry (.str prev)))}

def mac (entry : AuditEntry Int) : String :=
  match entry.hmac with
  | some (.str hmac) => hmac
  | _ => ""

def a1 : AuditEntry Int := signed 1 1 "a" ""
def b1 : AuditEntry Int := signed 2 1 "b" (mac a1)
def a2 : AuditEntry Int := signed 3 2 "a" (mac a1)
def b2 : AuditEntry Int := signed 4 2 "b" (mac b1)

def reader : Reader Int where
  parseJson := fun line =>
    match line with
    | "a1" => some a1
    | "b1" => some b1
    | "a2" => some a2
    | "b2" => some b2
    | _ => none
  dateParse := fun value =>
    match value with
    | some (.num time) => some time
    | _ => none
  day := fun time => toString time

def files (lines : Lines) : Files := ⟨some lines,.empty⟩

def quiet (_ : Fin 3) : Attempt := ⟨3,id,id⟩

def verdict (lines : Lines) : Except TypeError Verdict := verifyAuditLogChain AuditChain.Sample.crypto secrets (readAuditEntries reader lines)
end Sample

open Sample

theorem one_writer_retained :
    verdict (enforceAuditRetention reader none (files ["a1","a2"]) quiet).2.active = .ok ⟨true,none⟩ ∧
    (enforceAuditRetention reader none (files ["a1","a2"]) quiet).1.archived = 1 := by
  have old : oldLog reader (files ["a1","a2"]) quiet = ["a1","a2"] := oldLog_undisturbed (fun _ _ => ⟨rfl,rfl⟩)
  refine ⟨(retention_exact (by decide +kernel) ?_ ?_).1.mpr ?_,by decide +kernel⟩
  · rw [old]
    decide +kernel
  · rw [old]
    exact ⟨by decide +kernel,by decide +kernel⟩
  · exact one_writer_keeps "a" (by decide +kernel)

theorem interleaved_writers_lose_anchor :
    oldLog reader (files ["a1","b1","a2","b2"]) quiet = ["a1","b1","a2","b2"] ∧
    Timed reader ["a1","b1","a2","b2"] ∧ verdict ["a1","b1","a2","b2"] = .ok ⟨true,none⟩ ∧
    (enforceAuditRetention reader none (files ["a1","b1","a2","b2"]) quiet).1.status = .completed ∧
    verdict (enforceAuditRetention reader none (files ["a1","b1","a2","b2"]) quiet).2.active = .ok ⟨false,some 1⟩ := by
  refine ⟨oldLog_undisturbed (fun _ _ => ⟨rfl,rfl⟩),⟨?_,?_⟩,?_,?_,?_⟩ <;> decide +kernel

end StellarPriceOracle.AuditRetention
