import StellarPriceOracle.HistoryFiles
import StellarPriceOracle.Library.InsertionMap
import StellarPriceOracle.Library.JsText
import StellarPriceOracle.Library.Runs

namespace StellarPriceOracle.FileArchival
open HistoryFiles Guarded
open Runs (Transition Run)
open InsertionMap (get_filter get_set_ne get_set mem_values_remove mem_values get_exact)
open List

-- services/aggregator/src/persistence/file-archival.ts.
structure ArchivalConfig extends HistoryConfig where
  (archiveAfterDays retentionDays : Int)
  assets : List String

def secondsPerDay : Int := 86400

abbrev ColdDir := InsertionMap String (List HistoricalPriceEntry)

def archiveName (asset : String) (cutoffArchive stamp : Int) : String :=
  "history_" ++ asset.toUpper ++ "_" ++ toString cutoffArchive ++ "_" ++ toString stamp ++ ".ndjson.gz"

def fileCutoff (name : String) : Option Int := (name.toList.splitOn '_')[2]?.bind CharText.parseInt

def purges (cutoff : Int) (name : String) : Bool := (fileCutoff name).any (fun c => c < cutoff)

def purgeColdFiles (cutoff : Int) (cold : ColdDir) : ColdDir := cold.filter (fun name => !purges cutoff name)

structure Pass where
  cutoffArchive : Int
  cutoffRetention : Option Int

-- A `runOnce` that awaits `writeNdjsonGz` for one file, with the copy it took of it.
structure Job where
  pass : Pass
  (asset name : String)
  (archived active : List HistoricalPriceEntry)
  rest : List String

structure Archive where
  hot : DataDir
  cold : ColdDir
  jobs : InsertionMap Nat Job
  runs : Nat

section
variable (config : ArchivalConfig)

def startPass (now : Int) : Pass :=
  ⟨now - config.archiveAfterDays * secondsPerDay,
    if config.retentionDays > 0 then some (now - config.retentionDays * secondsPerDay) else none⟩

def listAssetFiles (hot : DataDir) : List String :=
  config.assets.filter (fun asset => match hot asset with | .absent => false | _ => true)

def finishPass (pass : Pass) (cold : ColdDir) : ColdDir :=
  match pass.cutoffRetention with
  | some cutoff => purgeColdFiles cutoff cold
  | none => cold

def nextJob (pass : Pass) (stamp : Int) (hot : DataDir) : List String → Option Job
  | [] => none
  | asset :: rest =>
    match readHistoryFile (hot asset) with
    | .error _ => nextJob pass stamp hot rest
    | .ok history =>
      let archived := history.filter (fun entry => entry.timestamp < pass.cutoffArchive)
      let active := history.filter (fun entry => ¬ entry.timestamp < pass.cutoffArchive)
      if archived = [] then nextJob pass stamp hot rest
      else some ⟨pass,asset,archiveName asset pass.cutoffArchive stamp,archived,active,rest⟩

def continueRun (s : Archive) (run : Nat) (pass : Pass) (stamp : Int) (files : List String) : Archive :=
  match nextJob pass stamp s.hot files with
  | some job => {s with jobs := s.jobs.set run job}
  | none => {s with cold := finishPass pass s.cold}

inductive Event where
  | append (now : Int) (asset : String) (entry : HistoricalPriceEntry)
  | runOnce (now stamp : Int)
  | archiveWritten (run : Nat) (stamp : Int)
  | archiveFailed (run : Nat)
  | rewriteFailed (run : Nat)

inductive Impossible where
  | notAwaited
  deriving DecidableEq

def writeArchive (s : Archive) (run : Nat) (job : Job) : Archive :=
  {s with cold := s.cold.set job.name job.archived, jobs := s.jobs.remove run}

def step (s : Archive) : Event → Except Impossible Archive
  | .append now asset entry => .ok {s with hot := appendHistoricalPrice config.toHistoryConfig now s.hot asset entry}
  | .runOnce now stamp =>
    .ok (continueRun {s with runs := s.runs + 1} s.runs (startPass config now) stamp (listAssetFiles config s.hot))
  | .archiveWritten run stamp => do
    let job ← someOr (s.jobs.get run) .notAwaited
    let s := writeArchive s run job
    .ok (continueRun {s with hot := Function.update s.hot job.asset (.ok job.active)} run job.pass stamp job.rest)
  | .archiveFailed run => do
    let _ ← someOr (s.jobs.get run) .notAwaited
    .ok {s with jobs := s.jobs.remove run}
  | .rewriteFailed run => do
    let job ← someOr (s.jobs.get run) .notAwaited
    .ok (writeArchive s run job)

def InCold (cold : ColdDir) (e : HistoricalPriceEntry) : Prop := ∃ name rows, cold.get name = some rows ∧ e ∈ rows

def coldSeen (t : Transition Archive Event) : ColdDir :=
  match t.input with
  | .archiveWritten run _ =>
    match t.before.jobs.get run with
    | some job => (writeArchive t.before run job).cold
    | none => t.before.cold
  | _ => t.before.cold

def Pruned (t : Transition Archive Event) (asset : String) (e : HistoricalPriceEntry) : Prop :=
  ∃ now entry, t.input = .append now asset entry ∧ e ∈ appendTo t.before.hot asset entry ∧
    e ∉ pruneHistory config.toHistoryConfig now (appendTo t.before.hot asset entry)

def PurgedFrom (cold after : ColdDir) (e : HistoricalPriceEntry) : Prop :=
  ∃ name rows, cold.get name = some rows ∧ e ∈ rows ∧ after.get name = none

def Dropped (t : Transition Archive Event) (asset : String) (e : HistoricalPriceEntry) : Prop :=
  Pruned config t asset e ∨ PurgedFrom (coldSeen t) t.after.cold e

end

-- No append to a file copied and not yet rewritten, and no archive under an existing name.
def Serialised (t : Transition Archive Event) : Bool :=
  match t.input with
  | .append _ asset _ => ∀ job ∈ t.before.jobs.values, job.asset ≠ asset
  | .archiveWritten run _ => ∀ job ∈ t.before.jobs.get run, t.before.cold.get job.name = none
  | .rewriteFailed run => ∀ job ∈ t.before.jobs.get run, t.before.cold.get job.name = none
  | _ => true

-- An entry is safe in an archive, or in its file and every copy a run has of that.
def Held (asset : String) (e : HistoricalPriceEntry) (s : Archive) : Prop :=
  InCold s.cold e ∨
    (e ∈ (s.hot asset).entries ∧ ∀ job ∈ s.jobs.values, job.asset = asset → e ∈ job.archived ∨ e ∈ job.active)

section
variable {config : ArchivalConfig} {s : Archive} {e : HistoricalPriceEntry} {pass : Pass}

theorem nextJob_copy (got : nextJob pass stamp hot files = some job) (mem : e ∈ (hot job.asset).entries) :
    e ∈ job.archived ∨ e ∈ job.active := by
  induction files with
  | nil => cases got
  | cons _ _ ih =>
    simp only [nextJob] at got
    split at got
    · exact ih got
    · rename_i _ read
      split at got
      · exact ih got
      · cases got
        rw [readHistoryFile_ok read]
        by_cases old : e.timestamp < pass.cutoffArchive
        · exact .inl (mem_filter.mpr ⟨mem,by simpa using old⟩)
        · exact .inr (mem_filter.mpr ⟨mem,by simpa using old⟩)

theorem finishPass_cold (has : InCold cold e) : InCold (finishPass pass cold) e ∨ PurgedFrom cold (finishPass pass cold) e := by
  obtain ⟨name,rows,got,mem⟩ := has
  unfold finishPass
  split
  · rename_i cutoff _
    by_cases gone : purges cutoff name = true
    · exact .inr ⟨name,rows,got,mem,by simp [purgeColdFiles,get_filter,gone]⟩
    · exact .inl ⟨name,rows,by simpa [purgeColdFiles,get_filter,gone] using got,mem⟩
  · exact .inl ⟨name,rows,got,mem⟩

theorem continueRun_held (held : Held asset e s) : Held asset e (continueRun s run pass stamp files) ∨
    PurgedFrom s.cold (continueRun s run pass stamp files).cold e := by
  unfold continueRun
  split
  · rename_i _ got
    refine .inl ?_
    rcases held with has | ⟨mem,copies⟩
    · exact .inl has
    · refine .inr ⟨mem,?_⟩
      intro other listed here
      rcases InsertionMap.mem_values_set listed with rfl | old
      · exact nextJob_copy got (here ▸ mem)
      · exact copies other old here
  · rcases held with has | ⟨mem,copies⟩
    · rcases finishPass_cold has with kept | purged
      · exact .inl (.inl kept)
      · exact .inr purged
    · exact .inl (.inr ⟨mem,copies⟩)

theorem writeArchive_cold (run : Nat) (unused : s.cold.get job.name = none) (has : InCold s.cold e) :
    InCold (writeArchive s run job).cold e := by
  obtain ⟨name,rows,got,mem⟩ := has
  have other : name ≠ job.name := by
    rintro rfl
    cases unused.symm.trans got
  exact ⟨name,rows,by rw [writeArchive,get_set_ne other]; exact got,mem⟩

theorem writeArchive_archived (s : Archive) (run : Nat) (mem : e ∈ job.archived) : InCold (writeArchive s run job).cold e :=
  ⟨job.name,job.archived,get_set,mem⟩

theorem rewritten_held (unused : s.cold.get job.name = none) (running : s.jobs.get run = some job) (held : Held asset e s) :
    Held asset e {writeArchive s run job with hot := Function.update s.hot job.asset (.ok job.active)} := by
  rcases held with has | ⟨mem,copies⟩
  · exact .inl (writeArchive_cold run unused has)
  · have left : ∀ other ∈ (s.jobs.remove run).values, other.asset = asset → e ∈ other.archived ∨ e ∈ other.active :=
      fun other listed => copies other (mem_values_remove listed)
    by_cases here : job.asset = asset
    · rcases copies job (mem_values.mpr ⟨run,running⟩) here with archived | active
      · exact .inl (writeArchive_archived s run archived)
      · refine .inr ⟨?_,left⟩
        simpa [here,HistoryFileStatus.entries] using active
    · refine .inr ⟨?_,left⟩
      simpa [Function.update_of_ne (Ne.symm here)] using mem

theorem append_held (serialised : Serialised ⟨s,.append now asset entry,s'⟩ = true) (mem : e ∈ appendTo s.hot asset entry)
    (ran : step config s (.append now asset entry) = .ok s') :
    Held asset e s' ∨ Dropped config ⟨s,.append now asset entry,s'⟩ asset e := by
  cases ran
  by_cases kept : e ∈ pruneHistory config.toHistoryConfig now (appendTo s.hot asset entry)
  · refine .inl (.inr ⟨?_,?_⟩)
    · simpa [appendHistoricalPrice,HistoryFileStatus.entries] using kept
    · simp only [Serialised,decide_eq_true_eq] at serialised
      intro job listed here
      exact absurd here (serialised job listed)
  · exact .inr (.inl ⟨now,entry,rfl,mem,kept⟩)

theorem step_held (ran : step config s event = .ok s') (serialised : Serialised ⟨s,event,s'⟩ = true)
    (held : Held asset e s) : Held asset e s' ∨ Dropped config ⟨s,event,s'⟩ asset e := by
  cases event with
  | append _ other =>
    rcases held with has | ⟨mem,copies⟩
    · cases ran
      exact .inl (.inl has)
    · rcases eq_or_ne other asset with rfl | here
      · exact append_held serialised (mem_append_left _ mem) ran
      · cases ran
        refine .inl (.inr ⟨?_,copies⟩)
        simpa [appendHistoricalPrice,Function.update_of_ne (Ne.symm here)] using mem
  | runOnce =>
    cases ran
    rcases continueRun_held (s := {s with runs := s.runs + 1}) held with kept | purged
    · exact .inl kept
    · exact .inr (.inr purged)
  | archiveWritten =>
    obtain ⟨job,running,ran⟩ := lookup_ok.mp ran
    cases ran
    have unused : s.cold.get job.name = none := by simpa [Serialised,running] using serialised
    rcases continueRun_held (rewritten_held unused running held) with kept | purged
    · exact .inl kept
    · refine .inr (.inr ?_)
      simp only [coldSeen,running]
      exact purged
  | archiveFailed =>
    obtain ⟨_,_,ran⟩ := lookup_ok.mp ran
    cases ran
    rcases held with has | ⟨mem,copies⟩
    · exact .inl (.inl has)
    · exact .inl (.inr ⟨mem,fun job listed => copies job (mem_values_remove listed)⟩)
  | rewriteFailed run =>
    obtain ⟨job,running,ran⟩ := lookup_ok.mp ran
    cases ran
    have unused : s.cold.get job.name = none := by simpa [Serialised,running] using serialised
    rcases held with has | ⟨mem,copies⟩
    · exact .inl (.inl (writeArchive_cold run unused has))
    · exact .inl (.inr ⟨mem,fun other listed => copies other (mem_values_remove listed)⟩)

theorem runs_held (path : Run (step config) start ts s) (serialised : ∀ t ∈ ts, Serialised t = true)
    (held : Held asset e start) : Held asset e s ∨ ∃ u ∈ ts, Dropped config u asset e := by
  induction path with
  | nil => exact .inl held
  | snoc _ ran ih =>
    rcases ih (fun t mem => serialised t (mem_append_left _ mem)) with kept | ⟨u,mem,dropped⟩
    · rcases step_held ran (serialised _ mem_concat_self) kept with after | dropped
      · exact .inl after
      · exact .inr ⟨_,mem_concat_self,dropped⟩
    · exact .inr ⟨u,mem_append_left _ mem,dropped⟩

theorem archival_conserves (path : Run (step config) start (earlier ++ t :: later) s)
    (serialised : ∀ u ∈ earlier ++ t :: later, Serialised u = true) (appended : t.input = .append now asset entry) :
    entry ∈ (s.hot asset).entries ∨ InCold s.cold entry ∨ ∃ u ∈ t :: later, Dropped config u asset entry := by
  obtain ⟨_,_⟩ := t
  cases appended
  have meets := serialised _ (mem_append_right _ mem_cons_self)
  rcases append_held meets mem_concat_self path.split.2 with held | dropped
  · have rest : ∀ u ∈ later, Serialised u = true :=
      fun u present => serialised u (mem_append_right _ (mem_cons_of_mem _ present))
    rcases runs_held path.suffix rest held with (stored | ⟨present,_⟩) | ⟨u,listed,dropped⟩
    · exact .inr (.inl stored)
    · exact .inl present
    · exact .inr (.inr ⟨u,mem_cons_of_mem _ listed,dropped⟩)
  · exact .inr (.inr ⟨_,mem_cons_self,dropped⟩)

end

namespace Sample
def config : ArchivalConfig := ⟨⟨0,0⟩,1,0,["xlm"]⟩
def empty : Archive := ⟨fun _ => .absent,.empty,.empty,0⟩
def old : HistoricalPriceEntry := ⟨"100",7,"band",5⟩
def fresh : HistoricalPriceEntry := ⟨"101",7,"band",86411⟩

def run (events : List Event) : Except Impossible (List (Transition Archive Event) × Archive) :=
  Runs.replay (step config) empty events

def coldEntries (s : Archive) : List HistoricalPriceEntry := s.cold.values.flatten

def dropsNothing (t : Transition Archive Event) : Bool :=
  decide (∀ file ∈ (coldSeen t).entries, t.after.cold.get file.1 ≠ none) &&
    match t.input with
    | .append now asset entry =>
      pruneHistory config.toHistoryConfig now (appendTo t.before.hot asset entry) = appendTo t.before.hot asset entry
    | _ => true

theorem not_dropped (nothing : dropsNothing t = true) : ¬ Dropped config t asset e := by
  simp only [dropsNothing,Bool.and_eq_true,decide_eq_true_eq] at nothing
  rintro (⟨_,_,appended,mem,gone⟩ | ⟨name,rows,got,_,deleted⟩)
  · have same := nothing.2
    simp only [appended,decide_eq_true_eq] at same
    rw [same] at gone
    exact gone mem
  · exact nothing.1 (name,rows) (get_exact.mp got) deleted

theorem inCold_listed (has : InCold s.cold e) : e ∈ coldEntries s := by
  obtain ⟨name,rows,got,mem⟩ := has
  exact mem_flatten.mpr ⟨rows,mem_values.mpr ⟨name,got⟩,mem⟩
end Sample

open Sample

theorem archived_price_conserved : ∃ t later s, Run (step config) empty ([] ++ t :: later) s ∧
    t.input = .append 6 "xlm" old ∧ (s.hot "xlm").entries = [fresh] ∧
    (old ∈ (s.hot "xlm").entries ∨ InCold s.cold old ∨
      ∃ u ∈ t :: later, Dropped config u "xlm" old) := by
  have replayed : (run [.append 6 "xlm" old,.runOnce 86410 86410000,.archiveWritten 0 86410002,
      .append 86411 "xlm" fresh]).map (fun result =>
        (decide (∀ t ∈ result.1, Serialised t = true),(result.2.hot "xlm").entries)) = .ok (true,[fresh]) := by rfl
  obtain ⟨_,s,path,inputs,observed⟩ := Runs.replay_steps replayed
  obtain ⟨serialised,hot⟩ := Prod.mk.inj observed
  obtain ⟨t,later,rfl,appended,_⟩ := map_eq_cons_iff.mp inputs
  have serialised : ∀ u ∈ [] ++ t :: later, Serialised u = true := of_decide_eq_true serialised
  exact ⟨t,later,s,path,appended,hot,archival_conserves path serialised appended⟩

-- A price appended while the archive is being written is gone.
theorem price_lost_to_archival : ∃ earlier t later s,
    Run (step config) empty (earlier ++ t :: later) s ∧ t.input = .append 86411 "xlm" fresh ∧
    fresh ∉ (s.hot "xlm").entries ∧ ¬ InCold s.cold fresh ∧
    ∀ u ∈ t :: later, ¬ Dropped config u "xlm" fresh := by
  have replayed : (run [.append 6 "xlm" old,.runOnce 86410 86410000,.append 86411 "xlm" fresh,
      .archiveWritten 0 86410002]).map (fun result =>
        (decide (∀ t ∈ result.1, dropsNothing t = true),(result.2.hot "xlm").entries,coldEntries result.2)) =
        .ok (true,[],[old]) := by decide +kernel
  obtain ⟨ts,s,path,inputs,observed⟩ := Runs.replay_steps replayed
  obtain ⟨nothing,observed⟩ := Prod.mk.inj observed
  obtain ⟨hot,cold⟩ := Prod.mk.inj observed
  obtain ⟨first,ts,rfl,_,inputs⟩ := map_eq_cons_iff.mp inputs
  obtain ⟨second,ts,rfl,_,inputs⟩ := map_eq_cons_iff.mp inputs
  obtain ⟨t,later,rfl,appended,_⟩ := map_eq_cons_iff.mp inputs
  have nothing := of_decide_eq_true nothing
  refine ⟨[first,second],t,later,s,path,appended,by simp [hot],?_,?_⟩
  · intro stored
    have listed := inCold_listed stored
    rw [cold] at listed
    exact absurd listed (by decide)
  · intro u listed
    exact not_dropped (nothing u (mem_cons_of_mem _ (mem_cons_of_mem _ listed)))

end StellarPriceOracle.FileArchival
