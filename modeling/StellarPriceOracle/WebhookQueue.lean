import Mathlib.Algebra.Group.Int.Defs
import StellarPriceOracle.Library.Dispatch
import StellarPriceOracle.Library.InsertionMap
import StellarPriceOracle.Library.Runs

namespace StellarPriceOracle.WebhookQueue
open Dispatch Guarded
open Function (update)

-- api/src/webhooks/webhook-service.ts: the delivery queue of `WebhookService`.
structure Config where
  (baseDelayMs maxDelayMs maxRetries maxConcurrent maxPendingPerDestination circuitFailureThreshold : Int)
  circuitCooldownMs : Int

inductive WebhookCircuitState where
  | closed | opened | halfOpen
  deriving DecidableEq

inductive WebhookStatus where
  | healthy | degraded | deadLetter
  deriving DecidableEq

structure WebhookRegistration where
  id : String
  status : WebhookStatus
  circuit : WebhookCircuitState
  nextProbeAt : Option Int
  lastFailure : Option String
  failureCount : Nat

structure StoredRegistration where
  id : String
  status : WebhookStatus
  lastFailure : Option String
  failureCount : Nat

structure DeliveryJob (π : Type) where
  webhookId : String
  payload : π
  attempt : Nat
  (succeeded settled : Bool)

inductive TimerKind where
  | retry | probe
  deriving DecidableEq

structure DestinationQueue where
  webhookId : String
  pending : List Nat
  running : Bool
  timer : Option Nat
  consecutiveFailures : Nat

-- An attempt that is awaited, with the objects that `runJob` holds.
structure Attempt where
  (dest webhook job attempt : Nat)
  deriving DecidableEq

structure Timeout where
  dest : Nat
  kind : TimerKind
  due : Int
  deriving DecidableEq

-- Registrations, queues and jobs go by references given out in order.
structure Service (π : Type) where
  now : Int
  objects : Nat → WebhookRegistration
  registered : Nat
  webhooks : InsertionMap String Nat
  queues : Nat → DestinationQueue
  opened : Nat
  dests : InsertionMap String Nat
  jobs : Nat → DeliveryJob π
  enqueued : Nat
  inFlight : Int
  attempts : InsertionMap Nat Attempt
  started : Nat
  timeouts : InsertionMap Nat Timeout
  timers : Nat
  history : List (Int × Note)

inductive Event (π : Type) where
  | wait (ms : Nat)
  | enqueue (webhookId : String) (payload : π)
  | attemptSettles (attempt : Nat) (failure : Option String)
  | timerFires (timer : Nat)
  | remove (id : String)
  | merge (records : List StoredRegistration)
  | register (id : String)

inductive Impossible where
  | notThere | notDue | registeredAlready
  deriving DecidableEq

def unregistered : WebhookRegistration := ⟨"",.healthy,.closed,none,none,0⟩
def unopened : DestinationQueue := ⟨"",[],false,none,0⟩

variable {π : Type}

def Service.start [Inhabited π] (now : Int) : Service π where
  now := now
  objects := fun _ => unregistered
  registered := 0
  webhooks := .empty
  queues := fun _ => unopened
  opened := 0
  dests := .empty
  jobs := fun _ => ⟨"",default,0,false,false⟩
  enqueued := 0
  inFlight := 0
  attempts := .empty
  started := 0
  timeouts := .empty
  timers := 0
  history := []

namespace Service
variable (s : Service π)

@[simp] def withQueue (dest : Nat) (change : DestinationQueue → DestinationQueue) : Service π :=
  {s with queues := update s.queues dest (change (s.queues dest))}

@[simp] def withObject (webhook : Nat) (change : WebhookRegistration → WebhookRegistration) : Service π :=
  {s with objects := update s.objects webhook (change (s.objects webhook))}

@[simp] def withJob (job : Nat) (change : DeliveryJob π → DeliveryJob π) : Service π :=
  {s with jobs := update s.jobs job (change (s.jobs job))}

@[simp] def resolve (job : Nat) : Service π := s.withJob job (fun j => {j with settled := true})

@[simp] def note (happened : Note) : Service π := {s with history := s.history ++ [(s.now,happened)]}

@[simp] def mirrored (dest : Nat) : Option Nat := s.webhooks.get (s.queues dest).webhookId
end Service

def timeoutMs (delayMs : Int) : Int := if 1 ≤ delayMs ∧ delayMs ≤ 2147483647 then delayMs else 1

section
variable (config : Config) (s : Service π)

def backoffDelayMs (attempt : Nat) : Int := min (config.baseDelayMs * 2 ^ (attempt - 1)) config.maxDelayMs

def setTimer (dest : Nat) (delayMs : Int) (kind : TimerKind) : Service π :=
  {s.withQueue dest (fun q => {q with timer := some s.timers}) with
    timeouts := s.timeouts.set s.timers ⟨dest,kind,s.now + timeoutMs delayMs⟩
    timers := s.timers + 1}

def isReady (dest : Nat) : Bool :=
  !(s.queues dest).running && (s.queues dest).timer.isNone && !(s.queues dest).pending.isEmpty &&
    (s.mirrored dest).any (fun webhook => (s.objects webhook).circuit ≠ .opened)

def nextReady : Option Nat := s.dests.values.find? (isReady s)

def runJob (dest : Nat) : Service π :=
  match (s.queues dest).pending,s.mirrored dest with
  | job :: _,some webhook =>
    let attempt := (s.jobs job).attempt + 1
    let s := (s.withQueue dest (fun q => {q with running := true})).withJob job (fun j => {j with attempt := attempt})
    {s with
      inFlight := s.inFlight + 1
      attempts := s.attempts.set s.started ⟨dest,webhook,job,attempt⟩
      started := s.started + 1}.note (.started dest job attempt)
  | _,_ => s.withQueue dest (fun q => {q with running := false})

def maxInFlight : Int := max 1 config.maxConcurrent

-- Every pass starts an attempt, so there are no more than there is room for.
def pumpLoop : Nat → Service π → Service π
  | 0,s => s
  | fuel + 1,s =>
    if s.inFlight < maxInFlight config then
      match nextReady s with
      | none => s
      | some dest => pumpLoop fuel (runJob s dest)
    else s

def pump : Service π := pumpLoop config (maxInFlight config - s.inFlight).toNat s

def armProbe (dest : Nat) : Service π :=
  if (s.queues dest).timer.isNone then
    match s.mirrored dest with
    | some webhook =>
      if (s.objects webhook).circuit = .opened ∧ (s.queues dest).pending ≠ [] then
        setTimer s dest (max 0 ((s.objects webhook).nextProbeAt.getD s.now - s.now)) .probe
      else s
    | none => s
  else s

def schedule (dest : Nat) : Service π := pump config (armProbe s dest)

section
variable (webhookId : String)

def destination : Service π × Nat :=
  match s.dests.get webhookId with
  | some dest => (s,dest)
  | none =>
    ({s with
      queues := update s.queues s.opened ⟨webhookId,[],false,none,0⟩
      opened := s.opened + 1
      dests := s.dests.set webhookId s.opened},s.opened)

def dropOldest (dest : Nat) : Service π :=
  match (s.queues dest).pending with
  | [] => s
  | job :: rest => ((s.withQueue dest (fun q => {q with pending := rest})).resolve job).note (.ended dest job .dropped)

def isFull (dest : Nat) : Bool := ((s.queues dest).pending.length : Int) ≥ config.maxPendingPerDestination

def pushJob (payload : π) (dest : Nat) : Service π :=
  {s.withQueue dest (fun q => {q with pending := q.pending ++ [s.enqueued]}) with
    jobs := update s.jobs s.enqueued ⟨webhookId,payload,0,false,false⟩
    enqueued := s.enqueued + 1}

def enqueue (payload : π) : Service π :=
  let (s,dest) := destination s webhookId
  let s := if isFull config s dest then dropOldest s dest else s
  schedule config (pushJob s webhookId payload dest) dest

def attemptOnce (webhook : Nat) : Option String → Service π
  | none => s.withObject webhook (fun w => {w with status := .healthy, failureCount := 0, lastFailure := none})
  | some message => s.withObject webhook (fun w => {w with
      lastFailure := some message, status := .degraded, failureCount := w.failureCount + 1})

def stopRunning (dest : Nat) : Service π :=
  {s.withQueue dest (fun q => {q with running := false}) with inFlight := s.inFlight - 1}

def succeed (a : Attempt) : Service π :=
  let s := s.withQueue a.dest (fun q => {q with pending := q.pending.tail, consecutiveFailures := 0})
  let s := s.withObject a.webhook (fun w => {w with circuit := .closed, nextProbeAt := none})
  ((s.withJob a.job (fun j => {j with succeeded := true})).resolve a.job).note (.ended a.dest a.job .delivered)

def openCircuit (a : Attempt) : Service π :=
  if ((s.queues a.dest).consecutiveFailures : Int) ≥ config.circuitFailureThreshold ∧ (s.objects a.webhook).circuit ≠ .opened then
    s.withObject a.webhook (fun w => {w with circuit := .opened, nextProbeAt := some (s.now + config.circuitCooldownMs)})
  else s

def giveUp (a : Attempt) : Service π :=
  let s := s.withQueue a.dest (fun q => {q with pending := q.pending.tail, consecutiveFailures := q.consecutiveFailures + 1})
  let s := s.withObject a.webhook (fun w => {w with status := .deadLetter})
  openCircuit config ((s.resolve a.job).note (.ended a.dest a.job (.exhausted a.attempt))) a

def finishJob (a : Attempt) (ok : Bool) : Service π :=
  if ok then schedule config (stopRunning (succeed s a) a.dest) a.dest
  else if (a.attempt : Int) < config.maxRetries then
    pump config (setTimer (stopRunning s a.dest) a.dest (backoffDelayMs config a.attempt) .retry)
  else schedule config (stopRunning (giveUp config s a) a.dest) a.dest

def attemptSettles (number : Nat) (failure : Option String) : Except Impossible (Service π) := do
  let a ← someOr (s.attempts.get number) .notThere
  .ok (finishJob config (attemptOnce {s with attempts := s.attempts.remove number} a.webhook failure) a failure.isNone)

def probe (dest : Nat) : Service π :=
  match s.mirrored dest with
  | some webhook => if (s.objects webhook).circuit = .opened then s.withObject webhook (fun w => {w with circuit := .halfOpen}) else s
  | none => s

def expire (number : Nat) (timeout : Timeout) : Service π :=
  let s := {s.withQueue timeout.dest (fun q => {q with timer := none}) with timeouts := s.timeouts.remove number}
  match timeout.kind with
  | .probe => probe s timeout.dest
  | .retry => s

def timerFires (number : Nat) : Except Impossible (Service π) := do
  let timeout ← someOr (s.timeouts.get number) .notThere
  require (timeout.due ≤ s.now) .notDue
  .ok (pump config (expire s number timeout))

-- The queue keeps its jobs and its timer's handle, but is in `dests` no longer.
def dropDestination : Service π :=
  match s.dests.get webhookId with
  | none => s
  | some dest =>
    let discarded := (s.queues dest).pending
    {s with
      timeouts := match (s.queues dest).timer with
        | some timer => s.timeouts.remove timer
        | none => s.timeouts
      jobs := fun job => if job ∈ discarded then {s.jobs job with settled := true} else s.jobs job
      history := s.history ++ discarded.map (fun job => (s.now,.ended dest job .discarded))
      dests := s.dests.remove webhookId}

end

def remove (id : String) : Service π :=
  match s.webhooks.get id with
  | none => s
  | some _ => dropDestination {s with webhooks := s.webhooks.remove id} id

-- A record as it goes into the mirror, with what is only known here.
def mergeRecord (existing : Option WebhookRegistration) (record : StoredRegistration) : WebhookRegistration where
  id := record.id
  status := (existing.map WebhookRegistration.status).getD record.status
  circuit := (existing.map WebhookRegistration.circuit).getD .closed
  nextProbeAt := existing.bind WebhookRegistration.nextProbeAt
  lastFailure := (existing.bind WebhookRegistration.lastFailure).or record.lastFailure
  failureCount := (existing.map WebhookRegistration.failureCount).getD record.failureCount

def existing (id : String) : Option WebhookRegistration := (s.webhooks.get id).map s.objects

-- The mirror under construction: new objects from reference `registered` on.
def mergeInto (next : Service π) (record : StoredRegistration) : Service π := {next with
  objects := update next.objects next.registered (mergeRecord (existing s record.id) record)
  registered := next.registered + 1
  webhooks := next.webhooks.set record.id next.registered}

def mergeIntoMirror (records : List StoredRegistration) : Service π := records.foldl (mergeInto s) {s with webhooks := .empty}

def register (id : String) : Except Impossible (Service π) := do
  require (s.webhooks.get id = none) .registeredAlready
  .ok {s with
    objects := update s.objects s.registered ⟨id,.healthy,.closed,none,none,0⟩
    registered := s.registered + 1
    webhooks := s.webhooks.set id s.registered}

def step : Event π → Except Impossible (Service π)
  | .wait ms => .ok {s with now := s.now + ms}
  | .enqueue webhookId payload => .ok (enqueue config s webhookId payload)
  | .attemptSettles attempt failure => attemptSettles config s attempt failure
  | .timerFires timer => timerFires config s timer
  | .remove id => .ok (remove s id)
  | .merge records => .ok (mergeIntoMirror s records)
  | .register id => register s id
end

end StellarPriceOracle.WebhookQueue
