import StellarPriceOracle.Library.JsNumber

namespace StellarPriceOracle.CheckpointStream
open List

-- packages/sdk-bindings/src/checkpoint.ts. `onGap` does not throw.
structure GapEvent where
  streamId : String
  (first last : Int)
  truncatedByReplayLimit : Bool

structure CheckpointStats where
  delivered : Int := 0
  duplicatesDropped : Nat := 0
  gapsDetected : Nat := 0
  missedMessages : Int := 0
  reconnects : Nat := 0

structure Options where
  streamId : String
  maxReplay : JsNumber := 1000
  maxRetries : JsNumber := 5

structure CheckpointResumer where
  stats : CheckpointStats := {}
  stopped : Bool := false
  last : Int
  failures : Nat := 0
  firstAfterConnect : Bool := true
  finished : Bool := false
  reported : List GapEvent := []
  processed : List Int := []

-- A message comes with what the callbacks do on it; `stop` is called meanwhile, or between two messages.
inductive Event where
  | message (seq : JsNumber) (handled saved stops : Bool)
  | thrown
  | ended
  | stop

@[simp] def CheckpointResumer.start (loaded : Option Int) : CheckpointResumer := {last := loaded.getD 0}

def sequence : JsNumber → Option Int
  | .finite q => if q.den = 1 ∧ 0 ≤ q.num then some q.num else none
  | _ => none

section
variable (o : Options)

section
variable (r : CheckpointResumer)

def caught : CheckpointResumer :=
  if r.stopped then {r with finished := true}
  else if o.maxRetries.lt (.finite (r.failures + 1)) then {r with failures := r.failures + 1,finished := true}
  else {r with failures := r.failures + 1,stats.reconnects := r.stats.reconnects + 1,firstAfterConnect := true}

def report (seq : Int) : CheckpointResumer :=
  if seq > Double.addInt r.last 1 then
    let missed := Double.subInt (Double.subInt seq r.last) 1
    let gap : GapEvent := ⟨o.streamId,Double.addInt r.last 1,Double.subInt seq 1,r.firstAfterConnect && o.maxReplay.lt (.finite missed)⟩
    {r with
      stats.gapsDetected := r.stats.gapsDetected + 1
      stats.missedMessages := Double.addInt r.stats.missedMessages missed
      reported := r.reported ++ [gap]}
  else r

def process (seq : Int) (handled saved stops : Bool) : CheckpointResumer :=
  let r := {report o r seq with firstAfterConnect := false,stopped := stops}
  if !handled then caught o r
  else
    let r := {r with last := seq,processed := r.processed ++ [seq]}
    if !saved then caught o r
    else {r with stats.delivered := Double.addInt r.stats.delivered 1,failures := 0}

def step (event : Event) : CheckpointResumer :=
  if r.finished then r
  else match event with
    | .stop => {r with stopped := true}
    | .ended => {r with finished := true}
    | .thrown => caught o r
    | .message seq handled saved stops =>
      if r.stopped then {r with finished := true}
      else match sequence seq with
        | none => r
        | some seq =>
          if seq ≤ r.last then {r with stats.duplicatesDropped := r.stats.duplicatesDropped + 1}
          else process o r seq handled saved stops

end

end

def within (n : Int) (gap : GapEvent) : Bool := gap.first ≤ n ∧ n ≤ gap.last

-- Every number up to the last was processed once or lies in one gap, never both; no later one is in either.
structure Balanced (start last : Int) (processed : List Int) (reported : List GapEvent) (delivered missed : Int) : Prop where
  started : start ≤ last
  each : ∀ n, start < n → processed.count n + reported.countP (within n) = if n ≤ last then 1 else 0
  disjoint : reported.Pairwise (fun gap other => ∀ n, ¬ (within n gap ∧ within n other))
  total : delivered + missed = last - start

def Accounted (start : Int) (r : CheckpointResumer) : Prop :=
  Balanced start r.last r.processed r.reported r.stats.delivered r.stats.missedMessages

-- A number taken up is safe, as is its distance from the start.
def Near (start n : Int) : Prop := Double.Safe n ∧ Double.Safe (n - start)

-- What is taken up is saved; `onMessage` throws only on the number that comes next, before which no gap is reported.
def smooth (start : Int) (r : CheckpointResumer) : Event → Prop
  | .message seq handled saved _ => r.finished = true ∨ r.stopped = true ∨
    ∀ n ∈ sequence seq, n ≤ r.last ∨ (Near start n ∧ if handled then saved = true else n = r.last + 1)
  | _ => True

def Smooth (o : Options) (start : Int) : CheckpointResumer → List Event → Prop
  | _,[] => True
  | r,event :: events => smooth start r event ∧ Smooth o start (step o r event) events

section
variable (balanced : Balanced start last processed reported delivered missed)
include balanced

theorem Balanced.skip (beyond : last + 1 < seq) (id : String) (cut : Bool) :
    Balanced start (seq - 1) processed (reported ++ [⟨id,last + 1,seq - 1,cut⟩]) delivered (missed + (seq - last - 1)) := by
  obtain ⟨_,each,disjoint,_⟩ := balanced
  refine ⟨by omega,?_,pairwise_append.mpr ⟨disjoint,pairwise_singleton _ _,?_⟩,by omega⟩
  · intro n above
    rw [countP_append,countP_singleton,← Nat.add_assoc,each n above]
    simp only [within,decide_eq_true_eq]
    repeat' split
    all_goals omega
  · intro gap mem _ isNew n both
    cases mem_singleton.mp isNew
    simp only [within,decide_eq_true_eq] at both
    have unreported := each n (by omega)
    rw [if_neg (by omega),Nat.add_eq_zero_iff,countP_eq_zero] at unreported
    exact unreported.2 gap mem (decide_eq_true both.1)

theorem Balanced.deliver : Balanced start (last + 1) (processed ++ [last + 1]) reported (delivered + 1) missed := by
  obtain ⟨_,each,disjoint,_⟩ := balanced
  refine ⟨by omega,?_,disjoint,by omega⟩
  intro n above
  rw [count_append,Nat.add_right_comm,each n above,count_singleton]
  simp only [beq_iff_eq]
  repeat' split
  all_goals omega

end

-- The numbers at hand are safe and nothing counts down, so that no sum is rounded.
structure Kept (start last : Int) (processed : List Int) (reported : List GapEvent) (delivered missed : Int) : Prop
    extends Balanced start last processed reported delivered missed where
  near : Near start last
  counted : 0 ≤ delivered ∧ 0 ≤ missed

section
variable (kept : Kept start last processed reported delivered missed)
include kept

theorem Kept.next (near : Near start seq) (new : last < seq) : Double.addInt last 1 = last + 1 := by
  obtain ⟨low,_⟩ := kept.near
  obtain ⟨high,_⟩ := near
  apply Double.addInt_safe
  unfold Double.Safe at *
  omega

theorem Kept.skip (near : Near start seq) (beyond : last + 1 < seq) (id : String) (cut : Bool) :
    Kept start (seq - 1) processed (reported ++ [⟨id,Double.addInt last 1,Double.subInt seq 1,cut⟩]) delivered
      (Double.addInt missed (Double.subInt (Double.subInt seq last) 1)) := by
  have next := kept.next near (by omega)
  obtain ⟨balanced,⟨low,_⟩,delivered,missed⟩ := kept
  obtain ⟨high,far⟩ := near
  have started := balanced.started
  have total := balanced.total
  unfold Double.Safe at low high far
  have distance : Double.subInt seq last = seq - last := Double.subInt_safe (by unfold Double.Safe; omega)
  have between : Double.subInt (seq - last) 1 = seq - last - 1 := Double.subInt_safe (by unfold Double.Safe; omega)
  have before : Double.subInt seq 1 = seq - 1 := Double.subInt_safe (by unfold Double.Safe; omega)
  rw [next,distance,between,before,Double.addInt_safe (by unfold Double.Safe; omega)]
  refine ⟨balanced.skip beyond id cut,⟨?_,?_⟩,delivered,by omega⟩ <;> unfold Double.Safe <;> omega

theorem Kept.deliver (near : Near start (last + 1)) :
    Kept start (last + 1) (processed ++ [last + 1]) reported (Double.addInt delivered 1) missed := by
  obtain ⟨balanced,_,counted⟩ := kept
  have total := balanced.total
  have far := near.2
  unfold Double.Safe at far
  rw [Double.addInt_safe (by unfold Double.Safe; omega)]
  exact ⟨balanced.deliver,near,by omega,counted.2⟩

end

def Steady (start : Int) (r : CheckpointResumer) : Prop :=
  Kept start r.last r.processed r.reported r.stats.delivered r.stats.missedMessages

section
variable (steady : Steady start r)
include steady

theorem caught_steady : Steady start (caught o r) := by
  unfold caught
  split
  · exact steady
  · split <;> exact steady

theorem process_steady (new : r.last < seq) (near : Near start seq) (fits : if handled then saved = true else seq = r.last + 1) :
    Steady start (process o r seq handled saved stops) := by
  have next := Kept.next steady near new
  cases handled with
  | false =>
    simp only [Bool.false_eq_true,if_false] at fits
    simp only [process,report,fits,next,gt_iff_lt,Int.lt_irrefl,if_false,Bool.not_false,if_true]
    apply caught_steady
    exact steady
  | true =>
    simp only [if_true] at fits
    by_cases gap : r.last + 1 < seq
    · have skipped := Kept.skip steady near gap o.streamId
        (r.firstAfterConnect && o.maxReplay.lt (.finite (Double.subInt (Double.subInt seq r.last) 1 : Int)))
      have delivered := skipped.deliver (by rwa [Int.sub_add_cancel])
      simpa [Steady,process,report,fits,next,gap] using delivered
    · obtain rfl : seq = r.last + 1 := by omega
      simpa [Steady,process,report,fits,next] using Kept.deliver steady near

theorem step_steady (fits : smooth start r event) : Steady start (step o r event) := by
  unfold step
  split
  · exact steady
  · rename_i running
    cases event with
    | stop | ended => exact steady
    | thrown => exact caught_steady steady
    | message =>
      dsimp only
      split
      · exact steady
      · rename_i going
        split
        · exact steady
        · rename_i n read
          split
          · exact steady
          · rename_i new
            obtain ⟨near,fits⟩ := ((fits.resolve_left running).resolve_left going n read).resolve_left new
            exact process_steady steady (Int.not_le.mp new) near fits

theorem run_steady (all : Smooth o start r events) : Steady start (events.foldl (step o) r) := by
  induction events generalizing r with
  | nil => exact steady
  | cons _ _ ih => exact ih (step_steady steady all.1) all.2

end

theorem start_steady (safe : Double.Safe (loaded.getD 0)) : Steady (loaded.getD 0) (.start loaded) := by
  refine ⟨⟨Int.le_refl _,?_,.nil,by simp⟩,⟨safe,?_⟩,by simp⟩
  · intro n above
    exact (if_neg (Int.not_le.mpr above)).symm
  · simp [Double.Safe]

theorem stream_accounted (o : Options) (loaded : Option Int) (events : List Event) (safe : Double.Safe (loaded.getD 0))
    (all : Smooth o (loaded.getD 0) (.start loaded) events) :
    Accounted (loaded.getD 0) (events.foldl (step o) (.start loaded)) := (run_steady (start_steady safe) all).toBalanced

namespace Sample

def options : Options := {streamId := "prices"}

def retried : List Event := [.message 2 true true false,.message 3 false true false,.message 3 true true false,.ended]

theorem retried_accounted : Smooth options 0 (.start none) retried ∧ Accounted 0 (retried.foldl (step options) (.start none)) :=
  have all : Smooth options 0 (.start none) retried := by
    simp only [retried,Smooth,smooth,Near]
    decide +kernel
  ⟨all,stream_accounted options none _ (by decide) all⟩

-- The gap before a message on which `onMessage` throws is reported again when the message is sent again,
-- and a gap of 2^53 + 1 messages is counted as one of 2^53.
theorem gap_reported_twice :
    ¬ Accounted 0 ([.message 2 false true false,.message 2 true true false,.ended].foldl (step options) (.start none)) ∧
    ¬ Accounted 0 ([.message (.finite (2^53 + 2)) true true false,.ended].foldl (step options) (.start none)) := by
  constructor
  · intro accounted
    have total := accounted.total
    revert total
    decide +kernel
  · intro accounted
    have total := accounted.total
    revert total
    decide +kernel

end Sample

end StellarPriceOracle.CheckpointStream
