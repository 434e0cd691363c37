import Mathlib.Data.Rat.Floor
import StellarPriceOracle.Library.InsertionMap
import StellarPriceOracle.Library.Runs

-- retry-queue.ts and publisher.ts: how often a failing submission is tried again.
namespace StellarPriceOracle.SubmissionRetries
open Runs
open InsertionMap
open List (countP_append range)

structure Options where
  maxRetries : Nat
  (baseBackoffMs maxBackoffMs : ℚ)

structure Submission where
  asset : String
  price : Int
  decimals : Nat
  timestamp : Int
  deriving DecidableEq

def Submission.key (p : Submission) : String := p.asset ++ ":" ++ toString p.timestamp

structure RetryableSubmission extends Submission where
  (epoch attemptCount : Nat)
  nextRetryAt : Int
  deriving DecidableEq

inductive RetryEvent where
  | retry (key : String) (submission : RetryableSubmission) (attemptCount : Nat)
  | failure (key : String) (submission : RetryableSubmission) (reason : String)

structure RetryQueue where
  queue : InsertionMap String RetryableSubmission
  suspended : Bool

def RetryQueue.enqueue (q : RetryQueue) (submission : Submission) (epoch : Nat) (now : Int) : RetryQueue :=
  if q.suspended then q else {q with queue := q.queue.set submission.key ⟨submission,epoch,0,now⟩}

def RetryQueue.remove (q : RetryQueue) (key : String) : RetryQueue := {q with queue := q.queue.remove key}

def RetryQueue.setSuspended (q : RetryQueue) (suspended : Bool) : RetryQueue :=
  if q.suspended = suspended then q else if suspended then ⟨.empty,true⟩ else {q with suspended := false}

def calculateBackoff (options : Options) (attemptCount : Nat) (random : ℚ) : Int :=
  let exponential := options.baseBackoffMs * 2^(attemptCount - 1)
  let jitter := random * options.baseBackoffMs
  ⌊min (exponential + jitter) options.maxBackoffMs⌋

def retryItem (options : Options) (now : Int) (random : String → ℚ) (s : InsertionMap String RetryableSubmission × List RetryEvent)
    (entry : String × RetryableSubmission) : InsertionMap String RetryableSubmission × List RetryEvent :=
  let submission := {entry.2 with attemptCount := entry.2.attemptCount + 1}
  if options.maxRetries < submission.attemptCount then
    (s.1.remove entry.1,s.2 ++ [.failure entry.1 submission ("Max retries (" ++ toString options.maxRetries ++ ") exceeded")])
  else
    let submission := {submission with nextRetryAt := now + calculateBackoff options submission.attemptCount (random entry.1)}
    (s.1.set entry.1 submission,s.2 ++ [.retry entry.1 submission submission.attemptCount])

-- The queue after a round, and what its listeners are given. They only log.
def RetryQueue.processQueue (options : Options) (q : RetryQueue) (now : Int) (random : String → ℚ) : RetryQueue × List RetryEvent :=
  if q.suspended then (q,[])
  else
    let readyItems := q.queue.entries.filter (fun entry => decide (entry.2.nextRetryAt ≤ now))
    let processed := readyItems.foldl (retryItem options now random) (q.queue,[])
    ({q with queue := processed.1},processed.2)

inductive Continuation where
  | nothing
  | remove
  | drain (rest : List RetryableSubmission)

structure Flight where
  submission : Submission
  next : Continuation

inductive Outcome where
  | success | dropped | retryable
  deriving DecidableEq

structure Publisher where
  retryQueue : RetryQueue
  publishingEnabled : Bool
  fencingEpoch : Nat
  flights : List Flight
  submitted : List String
  emitted : List RetryEvent

def Publisher.fresh (epoch : Nat) : Publisher := ⟨⟨.empty,false⟩,true,epoch,[],[],[]⟩

def Publisher.admitEpoch (s : Publisher) (epoch : Option Nat) : Bool := decide (epoch.getD s.fencingEpoch = s.fencingEpoch)

def Publisher.launch (s : Publisher) (submission : Submission) (next : Continuation) : Publisher :=
  {s with flights := s.flights ++ [⟨submission,next⟩],submitted := s.submitted ++ [submission.key]}

def Publisher.submitPrice (s : Publisher) (submission : Submission) (epoch : Option Nat) (next : Continuation) : Publisher :=
  if s.admitEpoch epoch then s.launch submission next else s

-- A refused submission is over at once, so the loop goes on with the next item.
def Publisher.drainFrom (s : Publisher) (fenced : Bool) : List RetryableSubmission → Publisher
  | [] => s
  | item :: rest =>
    if !s.publishingEnabled || fenced then s
    else if s.admitEpoch (some item.epoch) then s.launch item.toSubmission (.drain rest)
    else s.drainFrom fenced rest

def Publisher.settle (s : Publisher) (flight : Flight) (now : Int) : Outcome → Publisher
  | .success =>
    match flight.next with
    | .nothing => s
    | _ => {s with retryQueue := s.retryQueue.remove flight.submission.key}
  | .dropped => s
  | .retryable => {s with retryQueue := s.retryQueue.enqueue flight.submission s.fencingEpoch now}

def Publisher.goOn (s : Publisher) (fenced : Bool) : Continuation → Publisher
  | .drain rest => s.drainFrom fenced rest
  | _ => s

def Publisher.processQueue (options : Options) (s : Publisher) (now : Int) (random : String → ℚ) : Publisher :=
  let processed := s.retryQueue.processQueue options now random
  {s with retryQueue := processed.1,emitted := s.emitted ++ processed.2}

-- `fenced`, `brownout` and `discardAll` are not defined in src: what they do is an input.
inductive Input where
  | submitPrice (submission : Submission)
  | settle (flight : Nat) (outcome : Outcome) (now : Int) (fenced : Bool)
  | processQueue (now : Int) (random : String → ℚ)
  | processRetryQueue (fenced allowed : Bool)
  | drainRetryQueue (fenced : Bool)
  | setPublishingEnabled (enabled : Bool)
  | advanceFencingEpoch (discarded : Bool)

def step (options : Options) (s : Publisher) : Input → Except String Publisher
  | .submitPrice submission => .ok (s.submitPrice submission none .nothing)
  | .settle number outcome now fenced =>
    match s.flights[number]? with
    | none => .error "no such submission"
    | some flight => .ok (({s with flights := s.flights.eraseIdx number}.settle flight now outcome).goOn fenced flight.next)
  | .processQueue now random => .ok (s.processQueue options now random)
  | .processRetryQueue fenced allowed =>
    .ok (if !s.publishingEnabled || fenced || !allowed then s
      else s.retryQueue.queue.values.foldl (fun s item => s.submitPrice item.toSubmission (some item.epoch) .remove) s)
  | .drainRetryQueue fenced => .ok (s.drainFrom fenced s.retryQueue.queue.values)
  | .setPublishingEnabled enabled =>
    .ok (if s.publishingEnabled = enabled then s
      else {s with publishingEnabled := enabled,retryQueue := s.retryQueue.setSuspended (!enabled)})
  | .advanceFencingEpoch discarded =>
    .ok {s with
      fencingEpoch := s.fencingEpoch + 1
      retryQueue := if discarded then {s.retryQueue with queue := .empty} else s.retryQueue}

section
variable (key : String)

@[simp] def RetryEvent.retries : RetryEvent → Bool
  | .retry other _ _ => decide (other = key)
  | .failure _ _ _ => false

@[simp] def RetryEvent.fails : RetryEvent → Bool
  | .retry _ _ _ => false
  | .failure other _ _ => decide (other = key)

structure View where
  item : Option RetryableSubmission
  sent : Nat
  retries : Nat
  failures : Nat
  deriving DecidableEq

@[simp] def view (s : Publisher) : View where
  item := s.retryQueue.queue.get key
  sent := s.submitted.count key
  retries := s.emitted.countP (RetryEvent.retries key)
  failures := s.emitted.countP (RetryEvent.fails key)

@[simp] def ready (s : Publisher) : Input → Bool
  | .processQueue now _ => !s.retryQueue.suspended && (s.retryQueue.queue.get key).any (fun item => decide (item.nextRetryAt ≤ now))
  | _ => false

def rounds (ts : List (Transition Publisher Input)) : Nat := ts.countP (fun t => ready key t.before t.input)

end

structure Bounded (options : Options) (key : String) (ts : List (Transition Publisher Input)) (s : Publisher) : Prop where
  retried : (view key s).retries ≤ options.maxRetries
  resubmitted : (view key s).sent ≤ 1 + options.maxRetries
  waiting : rounds key ts ≤ options.maxRetries → (view key s).retries = rounds key ts ∧ (view key s).failures = 0
  removed : options.maxRetries < rounds key ts → (view key s).item = none ∧ (view key s).failures = 1

section
variable {options : Options} {key : String} {s next : Publisher} {q : RetryQueue}

def afterRound (options : Options) (now : Int) (random : ℚ) (w : View) (item : RetryableSubmission) : View :=
  if options.maxRetries < item.attemptCount + 1 then {w with item := none,failures := w.failures + 1}
  else
    {w with
      item := some {item with attemptCount := item.attemptCount + 1,nextRetryAt := now + calculateBackoff options (item.attemptCount + 1) random}
      retries := w.retries + 1}

@[simp] def View.within (w : View) (key : String) (processed : InsertionMap String RetryableSubmission × List RetryEvent) : View :=
  ⟨processed.1.get key,w.sent,w.retries + processed.2.countP (RetryEvent.retries key),w.failures + processed.2.countP (RetryEvent.fails key)⟩

-- Where the item of a key stands after so many rounds.
inductive Stage (options : Options) : Nat → View → Prop where
  | unfailed : Stage options 0 ⟨none,sent,0,0⟩
  | waiting (item : RetryableSubmission) (left : item.attemptCount ≤ options.maxRetries) :
      Stage options item.attemptCount ⟨some item,sent,item.attemptCount,0⟩
  | failed : Stage options (options.maxRetries + 1) ⟨none,sent,options.maxRetries,1⟩

section
variable (stage : Stage options m w)
include stage

theorem Stage.resent (sent : Nat) : Stage options m {w with sent := sent} := by
  cases stage with
  | unfailed => exact .unfailed
  | waiting item left => exact .waiting item left
  | failed => exact .failed

theorem Stage.round (got : w.item = some item) : Stage options (m + 1) (afterRound options now random w item) := by
  cases stage with
  | unfailed | failed => cases got
  | waiting =>
    cases got
    unfold afterRound
    split
    · rename_i more
      have last : item.attemptCount = options.maxRetries := by omega
      rw [last]
      exact .failed
    · rename_i again
      exact .waiting {item with attemptCount := item.attemptCount + 1,nextRetryAt := _} (Nat.not_lt.mp again)

-- Only an item that has not been retried is as it was when it is written anew.
theorem Stage.queued (fresh : w.retries + w.failures = 0) (submission : Submission) (epoch : Nat) (now : Int) :
    Stage options m {w with item := some ⟨submission,epoch,0,now⟩} := by
  cases stage with
  | unfailed => exact .waiting ⟨submission,epoch,0,now⟩ (Nat.zero_le _)
  | waiting item =>
    have uncounted : item.attemptCount = 0 := fresh
    rw [uncounted]
    exact .waiting ⟨submission,epoch,0,now⟩ (Nat.zero_le _)
  | failed => exact absurd fresh (Nat.succ_ne_zero _)

theorem Stage.retries : w.retries = min m options.maxRetries := by
  cases stage with
  | unfailed => exact (Nat.zero_min _).symm
  | waiting _ left => exact (Nat.min_eq_left left).symm
  | failed => exact (Nat.min_eq_right (Nat.le_succ _)).symm

theorem Stage.waits (few : m ≤ options.maxRetries) : w.failures = 0 := by
  cases stage with
  | unfailed | waiting => rfl
  | failed => exact absurd few (Nat.not_succ_le_self _)

theorem Stage.ends (more : options.maxRetries < m) : w.item = none ∧ w.failures = 1 := by
  cases stage with
  | unfailed => exact absurd more (Nat.not_lt_zero _)
  | waiting _ left => exact absurd left (Nat.not_le_of_lt more)
  | failed => exact ⟨rfl,rfl⟩

end

section
variable (stage : Stage options m (view key s))
include stage

theorem Stage.beside (item : next.retryQueue.queue.get key = s.retryQueue.queue.get key) (events : next.emitted = s.emitted) :
    Stage options m (view key next) := by
  have seen : view key next = {view key s with sent := (view key next).sent} := by simp [item,events]
  rw [seen]
  exact stage.resent _

end

end

namespace Sample

def price : Submission := ⟨"XLM",1234500,7,1700000000⟩

def resubmitted (again : Input) (n : Nat) : List Input :=
  [.submitPrice price,.settle 0 .retryable 0 false] ++
    (range n).flatMap (fun k => [.processQueue (100000 * (k + 1)) (fun _ => 0),again,.settle 0 .retryable (100000 * (k + 1) + 1) false])

def waiting : List Input :=
  [.submitPrice price,.settle 0 .retryable 0 false] ++
    (range 6).flatMap (fun k => [.processQueue (100000 * (k + 1)) (fun _ => 0),.processRetryQueue false true])

end Sample

end StellarPriceOracle.SubmissionRetries
