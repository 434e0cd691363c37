import Mathlib.Tactic.IntervalCases
import StellarPriceOracle.FileArchival
import StellarPriceOracle.Library.DecimalText
import StellarPriceOracle.Library.JsArray

-- `restore` of persistence/file-archival.ts; compression, encryption and JSON give back what went in.
namespace StellarPriceOracle.ArchiveRestore
open HistoryFiles FileArchival Runs
open InsertionMap (entries_nil get_set get_remove get_set_ne lookup foldl_shown lookup_exact)
open List hiding lookup
open Prod (fst mk)
open Function (comp update update_of_ne update_self)
open String (ofList toList toList_append toList_inj toList_map)
open JsArray (sortBy sortBy_perm utf16)
open BigNumber (denoted digit_ne fixed signed toFixed whole whole_digit)
open Char (isDigit toLower toUpper)
open HistoryFileStatus
open HistoricalPriceEntry

def wordChars : List Char := "ABCDEFGHIJKLMNOPQRSTUVWXYZabcdefghijklmnopqrstuvwxyz0123456789_".toList

def wordChar (c : Char) : Bool := wordChars.contains c

def historyFile (asset : String) : String := asset.toLower

-- The group of `/^history_(\w+)_/`, which takes as much as it can.
def assetMatch (name : List Char) : Option (List Char) :=
  if "history_".toList.isPrefixOf name then
    match ((name.drop 8).takeWhile wordChar).reverse.dropWhile (fun c => decide (c ≠ '_')) with
    | [] | [_] => none
    | _ :: group => some group.reverse
  else none

def entryKey (e : HistoricalPriceEntry) : String := toString e.timestamp ++ ":" ++ e.source

structure Restoring where
  current : List HistoricalPriceEntry
  existing : List String
  count : Nat

def pushEntry (r : Restoring) (entry : HistoricalPriceEntry) : Restoring :=
  if r.existing.contains (entryKey entry) then r else ⟨r.current ++ [entry],r.existing ++ [entryKey entry],r.count + 1⟩

def byTime (l : List HistoricalPriceEntry) : List HistoricalPriceEntry := sortBy (fun a b => decide (a.timestamp ≤ b.timestamp)) l

-- A history file with the lines of an archive put in. One that cannot be read counts as empty.
def restored (status : HistoryFileStatus) (rows : List HistoricalPriceEntry) : HistoryFileStatus :=
  let r := rows.foldl pushEntry ⟨status.entries,status.entries.map entryKey,0⟩
  if 0 < r.count then .ok (byTime r.current) else status

def restoreFile (hot : DataDir) (archive : String × List HistoricalPriceEntry) : DataDir :=
  match assetMatch archive.1.toList with
  | none => hot
  | some asset =>
    let file := historyFile (ofList asset).toLower
    update hot file (restored (hot file) archive.2)

def listArchiveFiles (cold : ColdDir) : List (String × List HistoricalPriceEntry) :=
  sortBy (fun a b => JsArray.unitsLe (utf16 a.1) (utf16 b.1))
    (cold.entries.filter (fun archive => ".ndjson.gz".toList.isSuffixOf archive.1.toList))

def restore (hot : DataDir) (cold : ColdDir) : DataDir := (listArchiveFiles cold).foldl restoreFile hot

structure WordName (name : String) : Prop where
  present : name.toList ≠ []
  word : ∀ c ∈ name.toList, wordChar c = true

structure SameEntries (before after : List HistoricalPriceEntry) : Prop where
  entries : after.Perm before
  order : after.map timestamp = before.map timestamp

def SameFile (before after : HistoryFileStatus) : Prop := after = before ∨ ∃ l m, before = .ok l ∧ after = .ok m ∧ SameEntries l m

def old (cutoff : Int) (status : HistoryFileStatus) : List HistoricalPriceEntry := status.entries.filter (fun e => e.timestamp < cutoff)

def young (cutoff : Int) (status : HistoryFileStatus) : List HistoricalPriceEntry := status.entries.filter (fun e => ¬ e.timestamp < cutoff)

-- Nothing is old enough, or the cutoff lies before 1970 and no two old entries share second and source.
def Restorable (files : List String) (cutoff : Int) (hot : DataDir) : Prop :=
  (∀ file ∈ files, old cutoff (hot file) = []) ∨ cutoff < 0 ∧ ∀ file ∈ files, ((old cutoff (hot file)).map entryKey).Nodup

section Names
variable {n cutoff stamp : Int}

theorem int_text : (toString n).toList = toFixed n 0 := by
  have fixed : toFixed n 0 = signed (n < 0) (whole n.natAbs) := by simp [toFixed,fixed]
  rw [fixed]
  cases n with
  | ofNat => exact Nat.toList_repr
  | negSucc m =>
    show ("-" ++ (m + 1).repr).toList = _
    rw [toList_append,Nat.toList_repr,signed,if_pos (by simp [Int.negSucc_lt_zero])]
    rfl

theorem int_text_inj (same : toString m = toString n) : m = n := by
  have texts := congrArg (denoted ∘ toList) same
  simp only [comp,int_text,BigNumber.denoted_toFixed,Option.some.injEq] at texts
  simpa [BigNumber.shiftedBy] using texts

theorem lower_map (text : String) : text.toLower = text.map toLower := rfl

theorem word_cases (word : wordChar c = true) : wordChar c.toLower.toUpper = true ∧ c.toLower.toUpper.toLower = c.toLower ∧ c.toLower.toLower = c.toLower := by
  have all : wordChars.all (fun c => wordChar c.toLower.toUpper && decide (c.toLower.toUpper.toLower = c.toLower ∧ c.toLower.toLower = c.toLower)) = true := by
    decide +kernel
  have mem : c ∈ wordChars := by simpa [wordChar] using word
  simpa using all_eq_true.mp all c mem

theorem digit_word (digit : c.isDigit = true) : wordChar c = true ∧ c ≠ '_' ∧ c.toLower = c := by
  have all : "0123456789".toList.all (fun c => wordChar c && decide (c ≠ '_' ∧ c.toLower = c)) = true := by decide +kernel
  simp only [isDigit,Bool.and_eq_true,decide_eq_true_eq] at digit
  have low : 48 ≤ c.toNat := UInt32.le_iff_toNat_le.mp digit.1
  have high : c.toNat ≤ 57 := UInt32.le_iff_toNat_le.mp digit.2
  have mem : c ∈ "0123456789".toList := by
    rw [← Char.ofNat_toNat c]
    generalize c.toNat = n at low high
    interval_cases n <;> decide
  simpa using all_eq_true.mp all c mem

theorem whole_word (n : Nat) : ∀ c ∈ whole n, wordChar c = true ∧ c ≠ '_' ∧ c.toLower = c :=
  fun _ present => digit_word (whole_digit present)

-- The group ends at the last underscore before a character that is not of the class.
theorem assetMatch_greedy (tail : List Char) (some : group ≠ []) (word : ∀ c ∈ group, wordChar c = true)
    (after : ∀ c ∈ tail, wordChar c = true ∧ c ≠ '_') (stop : wordChar x = false) :
    assetMatch ("history_".toList ++ (group ++ '_' :: (tail ++ x :: rest))) = .some group := by
  have taken : (group ++ '_' :: (tail ++ x :: rest)).takeWhile wordChar = group ++ '_' :: tail := by
    rw [takeWhile_append_of_pos word,takeWhile_cons_of_pos (by decide),takeWhile_append_of_pos (fun c present => (after c present).1),
      takeWhile_cons_of_neg (by simp [stop]),append_nil]
  have dropped : (group ++ '_' :: tail).reverse.dropWhile (fun c => decide (c ≠ '_')) = '_' :: group.reverse := by
    rw [reverse_append,reverse_cons,append_assoc,dropWhile_append_of_pos,singleton_append,dropWhile_cons_of_neg (by simp)]
    intro c present
    simpa using (after c (mem_reverse.mp present)).2
  have front : "history_".toList.isPrefixOf ("history_".toList ++ (group ++ '_' :: (tail ++ x :: rest))) = true := by simp
  have rest : ("history_".toList ++ (group ++ '_' :: (tail ++ x :: rest))).drop 8 = group ++ '_' :: (tail ++ x :: rest) := drop_left' rfl
  rw [assetMatch,if_pos front,rest,taken,dropped]
  cases reversed : group.reverse with
  | nil => exact absurd (reverse_eq_nil_iff.mp reversed) some
  | cons =>
    rw [← reverse_reverse group,reversed]

theorem archiveName_text : (archiveName asset cutoff stamp).toList = "history_".toList ++
    (asset.toList.map toUpper ++ '_' :: (toFixed cutoff 0 ++ '_' :: (toFixed stamp 0 ++ ".ndjson.gz".toList))) := by
  simp only [archiveName,toList_append,int_text,String.toUpper,toList_map,append_assoc]
  rfl

theorem text_negative (negative : n < 0) : toFixed n 0 = '-' :: whole n.natAbs := by
  simp [toFixed,fixed,signed,negative]

theorem text_positive (pos : ¬ n < 0) : toFixed n 0 = whole n.natAbs := by
  simp [toFixed,fixed,signed,pos]

structure FileName (asset : String) : Prop where
  present : asset.toList ≠ []
  word : ∀ c ∈ asset.toList, wordChar c.toUpper = true ∧ c.toUpper.toLower = c ∧ c.toLower = c

theorem WordName.file (word : WordName name) : FileName (historyFile name) := by
  have lower : (historyFile name).toList = name.toList.map toLower := by simp [historyFile,lower_map]
  constructor
  · simpa [lower] using word.present
  · intro c mem
    rw [lower] at mem
    obtain ⟨d,among,rfl⟩ := mem_map.mp mem
    exact word_cases (word.word d among)

def groupOf (asset : String) (cutoff : Int) : List Char :=
  if cutoff < 0 then asset.toList.map toUpper else asset.toList.map toUpper ++ '_' :: whole cutoff.natAbs

theorem assetMatch_archive (named : FileName asset) (cutoff stamp : Int) :
    assetMatch (archiveName asset cutoff stamp).toList = some (groupOf asset cutoff) := by
  have front : asset.toList.map toUpper ≠ [] := by simpa using named.present
  have upper : ∀ c ∈ asset.toList.map toUpper, wordChar c = true := by
    intro c mem
    obtain ⟨d,among,rfl⟩ := mem_map.mp mem
    exact (named.word d among).1
  rw [archiveName_text,groupOf]
  by_cases early : cutoff < 0
  · rw [if_pos early,text_negative early]
    exact assetMatch_greedy [] front upper (by simp) (by decide)
  · rw [if_neg early,text_positive early]
    have both : ∀ c ∈ asset.toList.map toUpper ++ '_' :: whole cutoff.natAbs, wordChar c = true := by
      intro c mem
      rcases mem_append.mp mem with name | more
      · exact upper c name
      · rcases mem_cons.mp more with rfl | digit
        · decide
        · exact (whole_word _ c digit).1
    have nonempty : asset.toList.map toUpper ++ '_' :: whole cutoff.natAbs ≠ [] := by simp
    rw [show ∀ text, asset.toList.map toUpper ++ '_' :: (whole cutoff.natAbs ++ text) =
      (asset.toList.map toUpper ++ '_' :: whole cutoff.natAbs) ++ text by simp]
    by_cases before : stamp < 0
    · rw [text_negative before]
      exact assetMatch_greedy [] nonempty both (by simp) (by decide)
    · rw [text_positive before]
      exact assetMatch_greedy _ nonempty both (fun c digit => ⟨(whole_word _ c digit).1,(whole_word _ c digit).2.1⟩) (by decide)

-- The file that restoring writes to: the asset's own only if the cutoff is before 1970.
def target (asset : String) (cutoff : Int) : String := historyFile (ofList (groupOf asset cutoff)).toLower

theorem lower_fixed {text : List Char} (fixed : ∀ c ∈ text, c.toLower = c) : text.map toLower = text := by
  rw [map_congr_left fixed,map_id']

section
variable (named : FileName asset)
include named

theorem target_text : (target asset cutoff).toList =
    if cutoff < 0 then asset.toList else asset.toList ++ '_' :: whole cutoff.natAbs := by
  have back : (asset.toList.map toUpper).map toLower = asset.toList := by
    rw [map_map]
    exact (map_congr_left (fun c mem => (named.word c mem).2.1)).trans (map_id _)
  have name : asset.toList.map toLower = asset.toList := lower_fixed (fun c mem => (named.word c mem).2.2)
  have digits : (whole cutoff.natAbs).map toLower = whole cutoff.natAbs := lower_fixed (fun c mem => (whole_word _ c mem).2.2)
  have mark : toLower '_' = '_' := by decide
  simp only [target,historyFile,groupOf,lower_map,toList_map,String.toList_ofList]
  split
  · rw [back,name]
  · simp [map_append,map_cons,back,name,digits,mark]

theorem target_early (early : cutoff < 0) : target asset cutoff = asset := by
  rw [← toList_inj,target_text named,if_pos early]

theorem target_longer (late : ¬ cutoff < 0) : asset.toList.length < (target asset cutoff).toList.length := by
  rw [target_text named,if_neg late,length_append,length_cons]
  omega

theorem target_inj (named' : FileName other) (same : target asset cutoff = target other cutoff) : asset = other := by
  have texts := congrArg toList same
  rw [target_text named,target_text named'] at texts
  rw [← toList_inj]
  split at texts
  · exact texts
  · exact append_cancel_right texts

theorem restoreFile_archive :
    restoreFile hot (archiveName asset cutoff stamp,rows) = update hot (target asset cutoff) (restored (hot (target asset cutoff)) rows) := by
  simp only [restoreFile,assetMatch_archive named]
  rfl

theorem archiveName_inj (named' : FileName other) (same : archiveName asset cutoff stamp = archiveName other cutoff later) :
    asset = other := by
  have read := assetMatch_archive named cutoff stamp
  rw [same,assetMatch_archive named'] at read
  have files : target asset cutoff = target other cutoff := by rw [target,target,Option.some.inj read]
  exact target_inj named named' files

end

end Names

-- A pass file by file: left alone, or its old entries moved.
inductive Archived (pass : Pass) : DataDir → ColdDir → List String → DataDir → ColdDir → Prop where
  | done : Archived pass hot cold [] hot cold
  | skipped {hot hot' : DataDir} {cold cold' : ColdDir} {asset : String} {rest : List String} : old pass.cutoffArchive (hot asset) = [] →
      Archived pass hot cold rest hot' cold' → Archived pass hot cold (asset :: rest) hot' cold'
  | moved {hot hot' : DataDir} {cold cold' : ColdDir} {asset : String} {rest : List String} (stamp : Int) : old pass.cutoffArchive (hot asset) ≠ [] →
      Archived pass (update hot asset (.ok (young pass.cutoffArchive (hot asset))))
        (cold.set (archiveName asset pass.cutoffArchive stamp) (old pass.cutoffArchive (hot asset))) rest hot' cold' →
      Archived pass hot cold (asset :: rest) hot' cold'

section Passes
variable {pass : Pass}

theorem unreadable_old (failed : readHistoryFile status = .error reason) : old cutoff status = [] := by
  cases status with
  | unreadable => rfl
  | absent | empty | ok => cases failed

theorem nextJob_done (none : nextJob pass stamp hot files = .none) : Archived pass hot cold files hot cold := by
  induction files with
  | nil => exact .done
  | cons _ _ ih =>
    simp only [nextJob] at none
    split at none
    · rename_i failed
      exact .skipped (unreadable_old failed) (ih none)
    · rename_i _ read
      rw [readHistoryFile_ok read] at none
      split at none
      · rename_i nothing
        exact .skipped nothing (ih none)
      · cases none

theorem nextJob_moves (got : nextJob pass stamp hot files = some job)
    (rest : Archived pass (update hot job.asset (.ok job.active)) (cold.set job.name job.archived) job.rest hot' cold') :
    Archived pass hot cold files hot' cold' := by
  induction files with
  | nil => cases got
  | cons _ _ ih =>
    simp only [nextJob] at got
    split at got
    · rename_i failed
      exact .skipped (unreadable_old failed) (ih got)
    · rename_i _ read
      rw [readHistoryFile_ok read] at got
      split at got
      · rename_i nothing
        exact .skipped nothing (ih got)
      · rename_i something
        cases got
        exact .moved stamp something rest

theorem nextJob_pass (got : nextJob pass stamp hot files = some job) : job.pass = pass := by
  induction files with
  | nil => cases got
  | cons _ _ ih =>
    simp only [nextJob] at got
    split at got
    · exact ih got
    · split at got
      · exact ih got
      · cases got
        rfl

theorem run_archives {stamps : List Int} (unpurged : pass.cutoffRetention = none) (idle : s.jobs.entries = []) (finished : last.jobs.entries = [])
    (path : Run (step config) (continueRun s run pass stamp files) ts last) (inputs : ts.map Transition.input = stamps.map (Event.archiveWritten run)) :
    Archived pass s.hot s.cold files last.hot last.cold := by
  induction stamps generalizing s stamp files ts with
  | nil =>
    obtain rfl := map_eq_nil_iff.mp inputs
    obtain rfl := path.ended
    unfold continueRun at finished ⊢
    split at finished
    · have none := entries_nil.mp finished run
      cases get_set.symm.trans none
    · rename_i none
      simpa [finishPass,unpurged] using nextJob_done none
  | cons _ _ ih =>
    obtain ⟨t,ts,rfl,input,inputs⟩ := map_eq_cons_iff.mp inputs
    obtain ⟨ran,path⟩ := path.headed
    rw [input] at ran
    have none := entries_nil.mp idle
    cases got : nextJob pass stamp s.hot files with
    | none =>
      have start : continueRun s run pass stamp files = {s with cold := finishPass pass s.cold} := by simp only [continueRun,got]
      rw [start] at ran
      simp only [step,Guarded.bind_ok,Guarded.someOr_ok,none] at ran
      obtain ⟨job,running,_⟩ := ran
      cases running
    | some job =>
      have start : continueRun s run pass stamp files = {s with jobs := s.jobs.set run job} := by simp only [continueRun,got]
      rw [start] at ran
      simp only [step,Guarded.bind_ok,Guarded.someOr_ok,get_set] at ran
      obtain ⟨_,running,ran⟩ := ran
      cases running
      have alone : ∀ k, ((s.jobs.set run job).remove run).get k = .none := by
        intro k
        rw [get_remove]
        split
        · rfl
        · rename_i other
          rw [get_set_ne other,none]
      rw [← Except.ok.inj ran,nextJob_pass got] at path
      exact nextJob_moves got (ih (entries_nil.mpr alone) path inputs)

theorem old_young : old cutoff (.ok (young cutoff status)) = [] := by
  simp only [old,young,entries,filter_filter,filter_eq_nil_iff]
  intro e _ both
  simp at both
  omega

theorem Archived.hot_exact (archived : Archived pass hot cold files hot' cold') (f : String) :
    hot' f = if f ∈ files ∧ old pass.cutoffArchive (hot f) ≠ [] then .ok (young pass.cutoffArchive (hot f)) else hot f := by
  induction archived with
  | done => simp
  | @skipped hot hot' cold cold' asset rest nothing _ ih =>
    rw [ih]
    rcases eq_or_ne f asset with rfl | here
    · simp [nothing]
    · simp [here]
  | @moved hot hot' cold cold' asset rest stamp something _ ih =>
    rw [ih]
    rcases eq_or_ne f asset with rfl | here
    · simp [old_young,something]
    · simp [here]

structure Wrote (pass : Pass) (hot : DataDir) (files : List String) (moved : List (String × Int)) : Prop where
  once : (moved.map fst).Nodup
  exact : ∀ f, f ∈ moved.map fst ↔ f ∈ files ∧ old pass.cutoffArchive (hot f) ≠ []

def archives (pass : Pass) (hot : DataDir) (moved : List (String × Int)) : List (String × List HistoricalPriceEntry) :=
  moved.map (fun m => (archiveName m.1 pass.cutoffArchive m.2,old pass.cutoffArchive (hot m.1)))

theorem Archived.cold_exact (archived : Archived pass hot cold files hot' cold') (named : ∀ f ∈ files, FileName f)
    (fresh : ∀ f ∈ files, old pass.cutoffArchive (hot f) ≠ [] → ∀ stamp, cold.get (archiveName f pass.cutoffArchive stamp) = none) :
    ∃ moved, Wrote pass hot files moved ∧ cold'.entries = cold.entries ++ archives pass hot moved := by
  induction archived with
  | done => exact ⟨[],⟨nodup_nil,by simp⟩,by simp [archives]⟩
  | skipped nothing _ ih =>
    obtain ⟨moved,wrote,entries⟩ := ih (fun f present => named f (mem_cons_of_mem _ present)) (fun f present => fresh f (mem_cons_of_mem _ present))
    refine ⟨moved,⟨wrote.once,fun f => ?_⟩,entries⟩
    rw [wrote.exact,mem_cons]
    constructor
    · rintro ⟨present,something⟩
      exact ⟨.inr present,something⟩
    · rintro ⟨rfl | present,something⟩
      · exact absurd nothing something
      · exact ⟨present,something⟩
  | @moved hot hot' cold cold' asset rest stamp something _ ih =>
    have apart : ∀ f, old pass.cutoffArchive (update hot asset (.ok (young pass.cutoffArchive (hot asset))) f) ≠ [] → f ≠ asset := by
      rintro f more rfl
      rw [update_self] at more
      exact more (old_young)
    obtain ⟨moved,wrote,entries⟩ := ih (fun f present => named f (mem_cons_of_mem _ present)) (by
      intro f present more later
      have other := apart f more
      rw [update_of_ne other] at more
      rw [get_set_ne]
      · exact fresh f (mem_cons_of_mem _ present) more later
      · intro same
        exact other (archiveName_inj (named f (mem_cons_of_mem _ present)) (named asset mem_cons_self) same))
    have others : ∀ m ∈ moved, m.1 ≠ asset := fun m mem => apart m.1 ((wrote.exact m.1).mp (mem_map_of_mem mem)).2
    refine ⟨(asset,stamp) :: moved,⟨?_,fun f => ?_⟩,?_⟩
    · rw [map_cons,nodup_cons]
      refine ⟨?_,wrote.once⟩
      intro mem
      obtain ⟨m,present,same⟩ := mem_map.mp mem
      exact others m present same
    · rw [map_cons,mem_cons,wrote.exact,mem_cons]
      rcases eq_or_ne f asset with rfl | here
      · simp [something]
      · simp [here]
    · rw [entries,InsertionMap.entries_set_fresh (fresh asset mem_cons_self something stamp),append_assoc]
      congr 1
      rw [archives,archives,map_cons,singleton_append]
      congr 1
      apply map_congr_left
      intro m mem
      rw [update_of_ne (others m mem)]

end Passes

section Restores
variable {pass : Pass}

theorem archiveName_ends : ".ndjson.gz".toList.isSuffixOf (archiveName asset cutoff stamp).toList = true := by
  rw [isSuffixOf_iff_suffix,archiveName_text]
  refine ⟨"history_".toList ++ (asset.toList.map toUpper ++ '_' :: (toFixed cutoff 0 ++ '_' :: toFixed stamp 0)),?_⟩
  simp [append_assoc,cons_append]

theorem listArchiveFiles_perm (entries : cold.entries = archives pass hot moved) : (listArchiveFiles cold).Perm (archives pass hot moved) := by
  refine sortBy_perm.trans ?_
  rw [entries,filter_eq_self.mpr]
  intro _ mem
  obtain ⟨m,_,rfl⟩ := mem_map.mp mem
  exact archiveName_ends

def addressed (archive : String × List HistoricalPriceEntry) : String × List HistoricalPriceEntry :=
  (historyFile (ofList ((assetMatch archive.1.toList).getD [])).toLower,archive.2)

theorem addressed_archives (named : ∀ m ∈ moved, FileName m.1) : (archives pass hot moved).map addressed =
    moved.map (fun m => (target m.1 pass.cutoffArchive,old pass.cutoffArchive (hot m.1))) := by
  rw [archives,map_map]
  apply map_congr_left
  intro m mem
  simp only [comp,addressed,assetMatch_archive (named m mem)]
  rfl

theorem restore_shown (named : ∀ m ∈ moved, FileName m.1) (entries : cold.entries = archives pass hot moved) (once : (moved.map fst).Nodup) (f : String) :
    ∃ pairs, pairs.Perm (moved.map (fun m => (target m.1 pass.cutoffArchive,old pass.cutoffArchive (hot m.1)))) ∧ (pairs.map fst).Nodup ∧
      restore h cold f = ((lookup f pairs).map (restored (h f))).getD (h f) := by
  have mem := listArchiveFiles_perm entries
  have shuffled := mem.map addressed
  rw [addressed_archives named] at shuffled
  have distinct : (((listArchiveFiles cold).map addressed).map fst).Nodup := by
    rw [(shuffled.map fst).nodup_iff,map_map]
    apply Nodup.map_on ?_ (Nodup.of_map fst once)
    intro a present b present' same
    exact inj_on_of_nodup_map once present present' (target_inj (named a present) (named b present') same)
  refine ⟨_,shuffled,distinct,?_⟩
  have loop : restore h cold = ((listArchiveFiles cold).map addressed).foldl
      (fun s entry => update s entry.1 (restored (s entry.1) entry.2)) h := by
    rw [restore,foldl_map]
    apply foldl_ext
    intro s _ present
    obtain ⟨m,among,rfl⟩ := mem_map.mp (mem.mem_iff.mp present)
    simp only [restoreFile_archive (named m among),addressed,assetMatch_archive (named m among)]
    rfl
  rw [loop]
  apply foldl_shown (fun s : DataDir => s f) restored
  · intro s _
    exact update_self _ _ _
  · intro s _ other
    exact update_of_ne other.symm _ _
  · exact distinct

theorem restore_hit (named : ∀ m ∈ moved, FileName m.1) (entries : cold.entries = archives pass hot moved) (once : (moved.map fst).Nodup) (present : m ∈ moved) :
    restore h cold (target m.1 pass.cutoffArchive) = restored (h (target m.1 pass.cutoffArchive)) (old pass.cutoffArchive (hot m.1)) := by
  obtain ⟨pairs,shuffled,distinct,shown⟩ := restore_shown (h := h) named entries once (target m.1 pass.cutoffArchive)
  have got : lookup (target m.1 pass.cutoffArchive) pairs = some (old pass.cutoffArchive (hot m.1)) :=
    (lookup_exact distinct).mpr (shuffled.mem_iff.mpr (mem_map.mpr ⟨m,present,rfl⟩))
  rw [shown,got]
  rfl

theorem restore_miss (named : ∀ m ∈ moved, FileName m.1) (entries : cold.entries = archives pass hot moved) (once : (moved.map fst).Nodup)
    (absent : ∀ m ∈ moved, target m.1 pass.cutoffArchive ≠ f) : restore h cold f = h f := by
  obtain ⟨pairs,shuffled,distinct,shown⟩ := restore_shown (h := h) named entries once f
  have none : lookup f pairs = .none := by
    rw [Option.eq_none_iff_forall_ne_some]
    intro _ got
    obtain ⟨m,present,same⟩ := mem_map.mp (shuffled.mem_iff.mp ((lookup_exact distinct).mp got))
    exact absent m present (congrArg fst same)
  rw [shown,none]
  rfl

theorem push_exact (rows : List HistoricalPriceEntry) (r : Restoring) : ∃ sub, rows.foldl pushEntry r =
      ⟨r.current ++ sub,r.existing ++ sub.map entryKey,r.count + sub.length⟩ ∧ sub.Sublist rows ∧
    (sub = rows ↔ (rows.map entryKey).Nodup ∧ ∀ e ∈ rows, entryKey e ∉ r.existing) ∧
    ((∀ e ∈ rows, entryKey e ∉ r.existing) → rows ≠ [] → sub ≠ []) := by
  induction rows generalizing r with
  | nil => exact ⟨[],by simp,by simp,by simp,by simp⟩
  | cons e _ ih =>
    rw [foldl_cons]
    by_cases known : entryKey e ∈ r.existing
    · obtain ⟨sub,result,part,_⟩ := ih r
      have same : pushEntry r e = r := by simp [pushEntry,known]
      refine ⟨sub,by rw [same,result],part.cons e,?_,?_⟩
      · constructor
        · intro whole
          have := part.length_le
          rw [whole,length_cons] at this
          omega
        · rintro ⟨_,fresh⟩
          exact absurd known (fresh e mem_cons_self)
      · intro fresh
        exact absurd known (fresh e mem_cons_self)
    · have more : pushEntry r e = ⟨r.current ++ [e],r.existing ++ [entryKey e],r.count + 1⟩ := by simp [pushEntry,known]
      obtain ⟨sub,result,part,whole,_⟩ := ih ⟨r.current ++ [e],r.existing ++ [entryKey e],r.count + 1⟩
      refine ⟨e :: sub,?_,part.cons_cons e,?_,fun _ _ => cons_ne_nil _ _⟩
      · rw [more,result]
        simp [Nat.add_comm,Nat.add_left_comm]
      · rw [List.cons.injEq,whole]
        simp only [true_and,map_cons,nodup_cons,mem_map,mem_append,mem_singleton,forall_mem_cons]
        constructor
        · rintro ⟨distinct,fresh⟩
          refine ⟨⟨?_,distinct⟩,known,fun a present => fun old => fresh a present (.inl old)⟩
          rintro ⟨a,present,same⟩
          exact fresh a present (.inr same)
        · rintro ⟨⟨apart,distinct⟩,_,fresh⟩
          refine ⟨distinct,?_⟩
          rintro a present (old | same)
          · exact fresh a present old
          · exact apart ⟨a,present,same⟩

theorem entryKey_timestamp (same : entryKey a = entryKey b) : a.timestamp = b.timestamp := by
  have texts := congrArg (fun text : String => text.toList.takeWhile (fun c => decide (c ≠ ':'))) same
  have front : ∀ e : HistoricalPriceEntry, (entryKey e).toList.takeWhile (fun c => decide (c ≠ ':')) = toFixed e.timestamp 0 := by
    intro e
    have plain : ∀ c ∈ toFixed e.timestamp 0, decide (c ≠ ':') = true := by
      intro c present
      by_cases negative : e.timestamp < 0
      · rw [text_negative negative] at present
        rcases mem_cons.mp present with rfl | digit
        · decide
        · simpa using digit_ne (whole_digit digit) (show isDigit ':' = false by decide)
      · rw [text_positive negative] at present
        simpa using digit_ne (whole_digit present) (show isDigit ':' = false by decide)
    rw [entryKey,toList_append,toList_append,int_text,append_assoc,takeWhile_append_of_pos plain]
    show _ ++ takeWhile _ (':' :: _) = _
    rw [takeWhile_cons_of_neg (by simp),append_nil]
  simp only [front] at texts
  apply int_text_inj
  rw [← toList_inj,int_text,int_text,texts]

theorem old_readable (something : old cutoff status ≠ []) : ∃ l, status = .ok l := by
  cases status with
  | ok l => exact ⟨l,rfl⟩
  | absent | empty | unreadable => exact absurd rfl something

theorem split_perm (cutoff : Int) (l : List HistoricalPriceEntry) : (young cutoff (.ok l) ++ old cutoff (.ok l)).Perm l := by
  have parts := filter_append_perm (fun e : HistoricalPriceEntry => decide (e.timestamp < cutoff)) l
  refine perm_append_comm.trans ?_
  simpa only [old,young,entries,decide_not] using parts

theorem restored_young (l : List HistoricalPriceEntry) (something : old cutoff (.ok l) ≠ []) :
    ∃ sub, restored (.ok (young cutoff (.ok l))) (old cutoff (.ok l)) =
        .ok (byTime (young cutoff (.ok l) ++ sub)) ∧
      sub.Sublist (old cutoff (.ok l)) ∧ (sub = old cutoff (.ok l) ↔ ((old cutoff (.ok l)).map entryKey).Nodup) := by
  obtain ⟨sub,r,part,whole,nonempty⟩ := push_exact (old cutoff (.ok l)) ⟨young cutoff (.ok l),(young cutoff (.ok l)).map entryKey,0⟩
  have fresh : ∀ e ∈ old cutoff (.ok l), entryKey e ∉ (young cutoff (.ok l)).map entryKey := by
    intro e early mem
    obtain ⟨d,late,same⟩ := mem_map.mp mem
    have before := of_decide_eq_true (mem_filter.mp early).2
    have after := of_decide_eq_true (mem_filter.mp late).2
    rw [entryKey_timestamp same] at after
    exact after before
  refine ⟨sub,?_,part,?_⟩
  · have grown : 0 < sub.length := length_pos_iff.mpr (nonempty fresh something)
    simp [restored,entries,r,if_pos grown]
  · rw [whole]
    exact and_iff_left fresh

theorem byTime_perm : (byTime l).Perm l := sortBy_perm

theorem byTime_sorted : (byTime l).Pairwise (fun a b => a.timestamp ≤ b.timestamp) := by
  have ordered : (byTime l).Pairwise (fun a b => decide (a.timestamp ≤ b.timestamp) = true) :=
    JsArray.sortBy_sorted (fun a b => by simpa using Int.le_total a.timestamp b.timestamp) (fun a b c => by simpa using Int.le_trans)
  simpa using ordered

theorem restored_same (sorted : l.Pairwise (fun a b => a.timestamp ≤ b.timestamp)) (something : old cutoff (.ok l) ≠ []) :
    SameFile (.ok l) (restored (.ok (young cutoff (.ok l))) (old cutoff (.ok l))) ↔ ((old cutoff (.ok l)).map entryKey).Nodup := by
  obtain ⟨sub,r,part,whole⟩ := restored_young l something
  rw [r,← whole]
  constructor
  · intro same
    have perm : (young cutoff (.ok l) ++ sub).Perm l := by
      rcases same with equal | ⟨m,k,before,after,entries⟩
      · exact byTime_perm.symm.trans (Perm.of_eq (ok.inj equal))
      · cases before
        cases after
        exact byTime_perm.symm.trans entries.entries
    apply part.eq_of_length
    have length := (perm.trans (split_perm cutoff l).symm).length_eq
    rw [length_append,length_append] at length
    omega
  · rintro rfl
    have perm : (byTime (young cutoff (.ok l) ++ old cutoff (.ok l))).Perm l := byTime_perm.trans (split_perm cutoff l)
    refine .inr ⟨l,_,rfl,rfl,perm,?_⟩
    apply (perm.map timestamp).eq_of_pairwise (fun a b _ _ => Int.le_antisymm)
    · exact pairwise_map.mpr byTime_sorted
    · exact pairwise_map.mpr sorted

end Restores

section
variable {config : ArchivalConfig} {pass : Pass} {hot : DataDir} {files : List String} {s : Archive}

theorem early_restored (archived : Archived pass hot .empty files s.hot s.cold) (named : ∀ f ∈ files, FileName f) (early : pass.cutoffArchive < 0) :
    restore s.hot s.cold f = if f ∈ files ∧ old pass.cutoffArchive (hot f) ≠ [] then
      restored (.ok (young pass.cutoffArchive (hot f))) (old pass.cutoffArchive (hot f)) else hot f := by
  obtain ⟨moved,wrote,entries⟩ := archived.cold_exact named (fun _ _ _ _ => rfl)
  have each : ∀ m ∈ moved, FileName m.1 := fun m mem => named m.1 ((wrote.exact m.1).mp (mem_map_of_mem mem)).1
  have left := archived.hot_exact f
  split
  · rename_i taken
    obtain ⟨m,present,rfl⟩ := mem_map.mp ((wrote.exact f).mpr taken)
    have hit := restore_hit (h := s.hot) each entries wrote.once present
    rw [target_early (each m present) early] at hit
    rw [hit,left,if_pos taken]
  · rename_i kept
    rw [restore_miss each entries wrote.once,left,if_neg kept]
    intro m present same
    rw [target_early (each m present) early] at same
    exact kept ((wrote.exact f).mp (mem_map.mpr ⟨m,present,same⟩))

theorem young_differs (something : old cutoff status ≠ []) : ¬ SameFile status (.ok (young cutoff status)) := by
  obtain ⟨l,rfl⟩ := old_readable something
  have parts := (split_perm cutoff l).length_eq
  have more := length_pos_iff.mpr something
  rw [length_append] at parts
  rintro (equal | ⟨m,k,before,after,entries⟩)
  · have := congrArg List.length (ok.inj equal)
    omega
  · cases before
    have := entries.entries.length_eq
    rw [← ok.inj after] at this
    omega

theorem late_lost (archived : Archived pass hot .empty files s.hot s.cold) (named : ∀ f ∈ files, FileName f) (late : ¬ pass.cutoffArchive < 0)
    (same : ∀ f, SameFile (hot f) (restore s.hot s.cold f)) : ∀ n, ∀ f ∈ files, f.toList.length = n → old pass.cutoffArchive (hot f) = [] := by
  obtain ⟨moved,wrote,entries⟩ := archived.cold_exact named (fun _ _ _ _ => rfl)
  have each : ∀ m ∈ moved, FileName m.1 := fun m mem => named m.1 ((wrote.exact m.1).mp (mem_map_of_mem mem)).1
  intro n
  induction n using Nat.strong_induction_on with
  | _ n shorter =>
    intro f present length
    by_contra something
    have untouched : restore s.hot s.cold f = s.hot f := by
      apply restore_miss each entries wrote.once
      intro m mem aimed
      have longer := target_longer (each m mem) late
      rw [aimed,length] at longer
      obtain ⟨among,more⟩ := (wrote.exact m.1).mp (mem_map_of_mem mem)
      exact more (shorter _ longer m.1 among rfl)
    have kept := same f
    rw [untouched,archived.hot_exact f,if_pos ⟨present,something⟩] at kept
    exact young_differs something kept

theorem archived_restorable (archived : Archived pass hot .empty files s.hot s.cold) (named : ∀ f ∈ files, FileName f)
    (sorted : ∀ f ∈ files, (hot f).entries.Pairwise (fun a b => a.timestamp ≤ b.timestamp)) :
    (∀ f, SameFile (hot f) (restore s.hot s.cold f)) ↔ Restorable files pass.cutoffArchive hot := by
  constructor
  · intro same
    by_cases early : pass.cutoffArchive < 0
    · refine .inr ⟨early,?_⟩
      intro f present
      by_cases nothing : old pass.cutoffArchive (hot f) = []
      · simp [nothing]
      · have kept := same f
        rw [early_restored archived named early,if_pos ⟨present,nothing⟩] at kept
        have order := sorted f present
        obtain ⟨l,read⟩ := old_readable nothing
        rw [read] at kept nothing order ⊢
        exact (restored_same order nothing).mp kept
    · exact .inl (fun f present => late_lost archived named early same _ f present rfl)
  · rintro (nothing | ⟨early,distinct⟩)
    · obtain ⟨moved,wrote,entries⟩ := archived.cold_exact named (fun _ _ _ _ => rfl)
      have none : ∀ m ∈ moved, False := by
        intro m mem
        obtain ⟨present,something⟩ := (wrote.exact m.1).mp (mem_map_of_mem mem)
        exact something (nothing m.1 present)
      intro f
      rw [restore_miss (fun m mem => (none m mem).elim) entries wrote.once (fun m mem => (none m mem).elim),archived.hot_exact f,if_neg]
      · exact .inl rfl
      · rintro ⟨present,something⟩
        exact something (nothing f present)
    · intro f
      rw [early_restored archived named early]
      split
      · rename_i taken
        obtain ⟨present,something⟩ := taken
        have order := sorted f present
        have keys := distinct f present
        obtain ⟨l,read⟩ := old_readable something
        rw [read] at something order keys ⊢
        exact (restored_same order something).mpr keys
      · exact .inl rfl

theorem listed_or_nothing (present : f ∈ config.assets) : f ∈ listAssetFiles config hot ∨ old cutoff (hot f) = [] := by
  cases status : hot f with
  | absent => exact .inr rfl
  | empty | ok | unreadable => exact .inl (mem_filter.mpr ⟨present,by simp [status]⟩)

theorem restorable_listed : Restorable (listAssetFiles config hot) cutoff hot ↔ Restorable config.assets cutoff hot := by
  have each : ∀ {P : List HistoricalPriceEntry → Prop}, P [] →
      ((∀ f ∈ listAssetFiles config hot, P (old cutoff (hot f))) ↔ ∀ f ∈ config.assets, P (old cutoff (hot f))) := by
    intro P nothing
    constructor
    · intro all f present
      rcases listed_or_nothing present with mem | none
      · exact all f mem
      · rw [none]
        exact nothing
    · exact fun all f mem => all f (mem_of_mem_filter mem)
  rw [Restorable,Restorable,each (P := fun l => l = []) rfl,each (P := fun l => (l.map entryKey).Nodup) nodup_nil]

theorem archive_then_restore_exactly {names : List String} {stamps : List Int} (words : ∀ name ∈ names, WordName name)
    (configured : config.assets = names.map historyFile) (unpurged : config.retentionDays ≤ 0)
    (sorted : ∀ f ∈ config.assets, (hot f).entries.Pairwise (fun a b => a.timestamp ≤ b.timestamp))
    (path : Run (step config) ⟨hot,.empty,.empty,0⟩ ts s) (alone : ts.map Transition.input = .runOnce now stamp :: stamps.map (Event.archiveWritten 0))
    (finished : s.jobs.entries = []) :
    (∀ f, SameFile (hot f) (restore s.hot s.cold f)) ↔ Restorable config.assets (now - config.archiveAfterDays * 86400) hot := by
  obtain ⟨t,ts,rfl,input,inputs⟩ := map_eq_cons_iff.mp alone
  obtain ⟨ran,path⟩ := path.headed
  rw [input] at ran
  rw [← Except.ok.inj ran] at path
  have purge : (startPass config now).cutoffRetention = none := if_neg (Int.not_lt.mpr unpurged)
  have archived := run_archives (s := ⟨hot,.empty,.empty,1⟩) purge rfl finished path inputs
  have named : ∀ f ∈ config.assets, FileName f := by
    intro f present
    rw [configured] at present
    obtain ⟨name,among,rfl⟩ := mem_map.mp present
    exact (words name among).file
  have exact := archived_restorable archived (fun f listed => named f (mem_of_mem_filter listed)) (fun f listed => sorted f (mem_of_mem_filter listed))
  exact exact.trans (restorable_listed)

end

namespace Sample

def config : ArchivalConfig := ⟨⟨0,0⟩,90,0,["xlm"]⟩

def history (first : Int) : List HistoricalPriceEntry := [⟨"100",7,"band",first⟩,⟨"101",7,"dia",first⟩,⟨"102",7,"band",first + 8000000⟩]

def hot (first : Int) : DataDir := update (fun _ => .absent) "xlm" (.ok (history first))

def events (now : Int) : List Event := [.runOnce now (now * 1000),.archiveWritten 0 (now * 1000 + 5)]

def left (first now : Int) : Except Impossible (Bool × List HistoricalPriceEntry) :=
  (replay (step config) ⟨hot first,.empty,.empty,0⟩ (events now)).map (fun result => (result.2.jobs.entries.isEmpty,(result.2.hot "xlm").entries))

def back (first now : Int) (file : String) : Except Impossible (List HistoricalPriceEntry) :=
  (replay (step config) ⟨hot first,.empty,.empty,0⟩ (events now)).map (fun result => (restore result.2.hot result.2.cold file).entries)

theorem restored_elsewhere : left 1690000000 1700000000 = .ok (true,[⟨"102",7,"band",1698000000⟩]) ∧
    back 1690000000 1700000000 "xlm" = .ok [⟨"102",7,"band",1698000000⟩] ∧
    back 1690000000 1700000000 "xlm_1692224000" = .ok [⟨"100",7,"band",1690000000⟩,⟨"101",7,"dia",1690000000⟩] := by
  refine ⟨by decide +kernel,by decide +kernel,by decide +kernel⟩

theorem xlm_word : WordName "XLM" := by
  refine ⟨by decide,?_⟩
  intro c mem
  have all : "XLM".toList.all wordChar = true := by decide +kernel
  exact all_eq_true.mp all c mem

theorem early_history_restored : ∃ ts s, Run (step config) ⟨hot (-9000000),.empty,.empty,0⟩ ts s ∧ (s.hot "xlm").entries = [⟨"102",7,"band",-1000000⟩] ∧
    ∀ f, SameFile (hot (-9000000) f) (restore s.hot s.cold f) := by
  have observed : left (-9000000) 1000 = .ok (true,[⟨"102",7,"band",-1000000⟩]) := by decide +kernel
  obtain ⟨ts,s,path,inputs,shown⟩ := replay_steps observed
  obtain ⟨finished,entries⟩ := mk.inj shown
  have words : ∀ name ∈ ["XLM"], WordName name := by
    intro _ listed
    rw [mem_singleton.mp listed]
    exact xlm_word
  have only : ∀ f ∈ config.assets, hot (-9000000) f = .ok (history (-9000000)) := by
    intro f listed
    rw [mem_singleton.mp listed]
    exact update_self _ _ _
  have sorted : ∀ f ∈ config.assets, (hot (-9000000) f).entries.Pairwise (fun a b => a.timestamp ≤ b.timestamp) := by
    intro f listed
    rw [only f listed]
    decide
  have restorable : Restorable config.assets (1000 - config.archiveAfterDays * 86400) (hot (-9000000)) := by
    refine .inr ⟨by decide,?_⟩
    intro f listed
    rw [only f listed]
    decide +kernel
  have alone : ts.map Transition.input = .runOnce 1000 1000000 :: [1000005].map (Event.archiveWritten 0) := inputs
  exact ⟨ts,s,path,entries,(archive_then_restore_exactly words (by decide +kernel) (by decide) sorted path alone (isEmpty_iff.mp finished)).mpr restorable⟩

end Sample

end StellarPriceOracle.ArchiveRestore
