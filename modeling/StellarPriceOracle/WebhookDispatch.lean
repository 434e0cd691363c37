import StellarPriceOracle.WebhookQueue

namespace StellarPriceOracle.WebhookDispatch
open WebhookQueue Dispatch Guarded
open Function (update update_of_ne)
open InsertionMap (mem_values get_set_ne get_set get_set_some get_remove get_of_remove)
open List
open Runs (Run Transition)
open Board (finish land push)
open Service (note resolve withQueue)

variable {π : Type} {s s' t : Service π} {strict : Prop}

def flight (a : Attempt) : Flight := ⟨a.dest,a.job,a.attempt⟩

-- The service as a board: a lane for every queue, empty if the queue is not in `dests`.
@[simp] def board (s : Service π) : Board where
  queue := fun lane => if s.dests.get (s.queues lane).webhookId = some lane then (s.queues lane).pending else []
  busy := fun lane => (s.queues lane).running
  inFlight := s.inFlight
  flights := s.attempts.values.map flight
  tries := fun job => (s.jobs job).attempt
  settled := fun job => (s.jobs job).settled
  succeeded := fun job => (s.jobs job).succeeded
  issued := s.enqueued
  log := s.history.map Prod.snd

def landed (s : Service π) (number : Nat) : Service π := {s with attempts := s.attempts.remove number}

def exhausted (s : Service π) (a : Attempt) : Service π :=
  let s := s.withQueue a.dest (fun q => {q with pending := q.pending.tail, consecutiveFailures := q.consecutiveFailures + 1})
  let s := s.withObject a.webhook (fun w => {w with status := .deadLetter})
  (s.resolve a.job).note (.ended a.dest a.job (.exhausted a.attempt))

theorem giveUp_parts : giveUp config s a = openCircuit config (exhausted s a) a := rfl

-- `dests` leads to open queues, and the jobs of a queue are addressed to its webhook.
structure Attached (s : Service π) : Prop where
  opened : ∀ id dest, s.dests.get id = some dest → dest < s.opened ∧ (s.queues dest).webhookId = id
  numbered : ∀ number a, s.attempts.get number = some a → number < s.started
  addressed : ∀ dest, ∀ job ∈ (s.queues dest).pending, job < s.enqueued ∧ (s.jobs job).webhookId = (s.queues dest).webhookId
  unopened : ∀ dest, s.opened ≤ dest → (s.queues dest).running = false ∧ (s.queues dest).pending = []

-- The two states differ in registrations, timers and counts of failures only.
structure Alike (s s' : Service π) : Prop where
  dests : s'.dests = s.dests
  opened : s'.opened = s.opened
  attempts : s'.attempts = s.attempts
  started : s'.started = s.started
  jobs : s'.jobs = s.jobs
  enqueued : s'.enqueued = s.enqueued
  inFlight : s'.inFlight = s.inFlight
  history : s'.history = s.history
  queues : ∀ dest, (s'.queues dest).webhookId = (s.queues dest).webhookId ∧ (s'.queues dest).pending = (s.queues dest).pending ∧
    (s'.queues dest).running = (s.queues dest).running

theorem Alike.refl (s : Service π) : Alike s s := ⟨rfl,rfl,rfl,rfl,rfl,rfl,rfl,rfl,fun _ => ⟨rfl,rfl,rfl⟩⟩

theorem Alike.trans (first : Alike s s') (second : Alike s' t) : Alike s t :=
  ⟨second.dests.trans first.dests,second.opened.trans first.opened,second.attempts.trans first.attempts,second.started.trans first.started,
    second.jobs.trans first.jobs,second.enqueued.trans first.enqueued,second.inFlight.trans first.inFlight,
    second.history.trans first.history,fun dest => ⟨(second.queues dest).1.trans (first.queues dest).1,
      (second.queues dest).2.1.trans (first.queues dest).2.1,(second.queues dest).2.2.trans (first.queues dest).2.2⟩⟩

theorem Alike.board (alike : Alike s s') : board s' = board s := by
  obtain ⟨dests,_,attempts,_,jobs,enqueued,inFlight,history,queues⟩ := alike
  unfold WebhookDispatch.board
  ext1
  · funext lane
    simp [dests,(queues lane).1,(queues lane).2.1]
  · funext lane
    exact (queues lane).2.2
  · exact inFlight
  · simp [attempts]
  · simp [jobs]
  · simp [jobs]
  · simp [jobs]
  · exact enqueued
  · simp [history]

theorem Attached.less (attached : Attached s) (dests : s'.dests = s.dests) (opened : s'.opened = s.opened)
    (attempts : ∀ number a, s'.attempts.get number = some a → s.attempts.get number = some a) (started : s'.started = s.started)
    (enqueued : s'.enqueued = s.enqueued) (jobs : ∀ job, (s'.jobs job).webhookId = (s.jobs job).webhookId)
    (queues : ∀ dest, (s'.queues dest).webhookId = (s.queues dest).webhookId ∧
      (∀ job ∈ (s'.queues dest).pending, job ∈ (s.queues dest).pending) ∧
      ((s'.queues dest).running = true → (s.queues dest).running = true)) : Attached s' := by
  refine ⟨?_,?_,?_,?_⟩
  · intro id dest found
    rw [dests] at found
    rw [opened,(queues dest).1]
    exact attached.opened id dest found
  · intro number a found
    rw [started]
    exact attached.numbered number a (attempts number a found)
  · intro dest job mem
    rw [enqueued,jobs,(queues dest).1]
    exact attached.addressed dest job ((queues dest).2.1 job mem)
  · intro dest later
    obtain ⟨idle,empty⟩ := attached.unopened dest (opened ▸ later)
    constructor
    · rw [Bool.eq_false_iff]
      intro runs
      rw [(queues dest).2.2 runs] at idle
      cases idle
    · apply eq_nil_iff_forall_not_mem.mpr
      intro job mem
      have held := (queues dest).2.1 job mem
      rw [empty] at held
      cases held

theorem queue_less (named : q.webhookId = (s.queues dest).webhookId) (fewer : ∀ job ∈ q.pending, job ∈ (s.queues dest).pending)
    (runs : q.running = true → (s.queues dest).running = true) (other : Nat) : (update s.queues dest q other).webhookId = (s.queues other).webhookId ∧
      (∀ job ∈ (update s.queues dest q other).pending, job ∈ (s.queues other).pending) ∧
      ((update s.queues dest q other).running = true → (s.queues other).running = true) := by
  rcases eq_or_ne other dest with rfl | here
  · simpa using ⟨named,fewer,runs⟩
  · simp [here]

theorem job_named (named : j.webhookId = (s.jobs job).webhookId) (other : Nat) :
    (update s.jobs job j other).webhookId = (s.jobs other).webhookId := by
  by_cases here : other = job <;> simp [here,named]

theorem withQueue_board (named : (change (s.queues dest)).webhookId = (s.queues dest).webhookId) :
    board (s.withQueue dest change) = {board s with
      queue := update (board s).queue dest (if s.dests.get (s.queues dest).webhookId = some dest then (change (s.queues dest)).pending else [])
      busy := update (board s).busy dest (change (s.queues dest)).running} := by
  ext1
  · funext lane
    rcases eq_or_ne lane dest with rfl | here
    · simp [named]
    · simp [here]
  · funext lane
    by_cases here : lane = dest <;> simp [here]
  all_goals rfl

theorem withJob_board : board (s.withJob job change) = {board s with
      tries := update (board s).tries job (change (s.jobs job)).attempt
      settled := update (board s).settled job (change (s.jobs job)).settled
      succeeded := update (board s).succeeded job (change (s.jobs job)).succeeded} := by
  ext1
  case tries | settled | succeeded =>
    funext other
    by_cases here : other = job <;> simp [here]
  all_goals rfl

theorem withObject_board : board (s.withObject webhook change) = board s := rfl

theorem note_board : board (s.note happened) = {board s with log := (board s).log ++ [happened]} := by
  simp only [board,note,map_append]
  rfl

theorem stopRunning_board : board (stopRunning s dest) = {board s with busy := update (board s).busy dest false, inFlight := s.inFlight - 1} := by
  calc board (stopRunning s dest)
    _ = {board (s.withQueue dest (fun q => {q with running := false})) with inFlight := s.inFlight - 1} := rfl
    _ = _ := by
      rw [withQueue_board rfl]
      simp

theorem landed_board : board (landed s number) = {board s with flights := (s.attempts.remove number).values.map flight} := rfl

theorem tail_board : ((board s).queue dest).tail = if s.dests.get (s.queues dest).webhookId = some dest then (s.queues dest).pending.tail else [] := by
  simp only [board]
  split <;> rfl

theorem Alike.attached (alike : Alike s s') (attached : Attached s) : Attached s' := by
  obtain ⟨dests,opened,attempts,started,jobs,enqueued,_,_,queues⟩ := alike
  refine attached.less dests opened (by simp [attempts]) started enqueued (by simp [jobs]) (fun dest => ?_)
  obtain ⟨named,pending,running⟩ := queues dest
  exact ⟨named,by simp [pending],by simp [running]⟩

theorem setTimer_alike : Alike s (setTimer s dest delayMs kind) := by
  refine ⟨rfl,rfl,rfl,rfl,rfl,rfl,rfl,rfl,fun other => ?_⟩
  rcases eq_or_ne other dest with rfl | here
  · simp [setTimer,withQueue]
  · simp [setTimer,withQueue,here]

theorem armProbe_alike : Alike s (armProbe s dest) := by
  unfold armProbe
  split
  · split
    · split
      · exact setTimer_alike
      · exact .refl s
    · exact .refl s
  · exact .refl s

theorem probe_alike : Alike s (probe s dest) := by
  unfold probe
  split
  · split
    · exact ⟨rfl,rfl,rfl,rfl,rfl,rfl,rfl,rfl,fun _ => ⟨rfl,rfl,rfl⟩⟩
    · exact .refl s
  · exact .refl s

theorem attemptOnce_alike (webhook : Nat) (failure : Option String) : Alike s (attemptOnce s webhook failure) := by
  cases failure <;> exact ⟨rfl,rfl,rfl,rfl,rfl,rfl,rfl,rfl,fun _ => ⟨rfl,rfl,rfl⟩⟩

theorem openCircuit_alike : Alike s (openCircuit config s a) := by
  unfold openCircuit
  split
  · exact ⟨rfl,rfl,rfl,rfl,rfl,rfl,rfl,rfl,fun _ => ⟨rfl,rfl,rfl⟩⟩
  · exact .refl s

theorem mergeIntoMirror_parts : ∃ objects registered webhooks,
    mergeIntoMirror s records = {s with objects := objects, registered := registered, webhooks := webhooks} := by
  have folded : ∀ next : Service π,
      (∃ objects registered webhooks, next = {s with objects := objects, registered := registered, webhooks := webhooks}) →
      ∃ objects registered webhooks, records.foldl (mergeInto s) next = {s with objects := objects, registered := registered, webhooks := webhooks} := by
    induction records with
    | nil => exact fun _ parts => parts
    | cons _ _ ih =>
      rintro _ ⟨objects,registered,webhooks,rfl⟩
      exact ih _ ⟨_,_,_,rfl⟩
  exact folded _ ⟨_,_,_,rfl⟩

theorem mergeIntoMirror_alike : Alike s (mergeIntoMirror s records) := by
  obtain ⟨_,_,_,parts⟩ := mergeIntoMirror_parts
  rw [parts]
  exact ⟨rfl,rfl,rfl,rfl,rfl,rfl,rfl,rfl,fun _ => ⟨rfl,rfl,rfl⟩⟩

theorem expire_alike : Alike s (expire s number timeout) := by
  have cleared : Alike s {s.withQueue timeout.dest (fun q => {q with timer := none}) with timeouts := s.timeouts.remove number} := by
    refine ⟨rfl,rfl,rfl,rfl,rfl,rfl,rfl,rfl,fun other => ?_⟩
    by_cases here : other = timeout.dest <;> simp [here]
  unfold expire
  dsimp only
  split
  · exact cleared.trans (probe_alike)
  · exact cleared

def again (config : Config) (attempt : Nat) : Prop := (attempt : Int) < config.maxRetries

abbrev Steps (config : Config) (strict : Prop) := Moves (maxInFlight config) (again config) strict

theorem ready_parts (ready : nextReady s = some dest) : (∃ id, s.dests.get id = some dest) ∧ (s.queues dest).running = false ∧
    (s.queues dest).timer = none ∧ (∃ job rest, (s.queues dest).pending = job :: rest) ∧
    ∃ webhook, s.mirrored dest = some webhook ∧ (s.objects webhook).circuit ≠ .opened := by
  have mem := mem_values.mp (mem_of_find?_eq_some ready)
  have holds := find?_some ready
  simp only [isReady,Bool.and_eq_true,Bool.not_eq_true',Option.isNone_iff_eq_none,Option.any_eq_true,decide_eq_true_eq] at holds
  obtain ⟨⟨⟨idle,untimed⟩,filled⟩,webhook,mirrored,shut⟩ := holds
  refine ⟨mem,idle,untimed,?_,webhook,mirrored,shut⟩
  cases pending : (s.queues dest).pending with
  | nil => simp [pending] at filled
  | cons job rest => exact ⟨job,rest,rfl⟩

def Known (s : Service π) (dest : Nat) : Prop := ∃ id, s.dests.get id = some dest

theorem Attached.named (attached : Attached s) (known : Known s dest) : s.dests.get (s.queues dest).webhookId = some dest := by
  obtain ⟨id,found⟩ := known
  rw [(attached.opened id dest found).2]
  exact found

theorem Attached.queue (attached : Attached s) {id : String} (found : s.dests.get id = some dest) :
    (board s).queue dest = (s.queues dest).pending := by
  obtain ⟨_,named⟩ := attached.opened id dest found
  simp [named,found]

section
variable (pending : (s.queues dest).pending = job :: rest) (mirrored : s.mirrored dest = some webhook)
include pending mirrored

theorem runJob_parts : runJob s dest =
      {(s.withQueue dest (fun q => {q with running := true})).withJob job (fun j => {j with attempt := (s.jobs job).attempt + 1}) with
        inFlight := s.inFlight + 1
        attempts := s.attempts.set s.started ⟨dest,webhook,job,(s.jobs job).attempt + 1⟩
        started := s.started + 1
        history := s.history ++ [(s.now,.started dest job ((s.jobs job).attempt + 1))]} := by
  simp only [runJob,pending,mirrored]
  rfl

theorem runJob_board (attached : Attached s) : board (runJob s dest) = (board s).start dest job := by
  have fresh : s.attempts.get s.started = none := by
    cases held : s.attempts.get s.started with
    | none => rfl
    | some a => exact absurd (attached.numbered _ a held) (Nat.lt_irrefl _)
  rw [runJob_parts pending mirrored]
  calc board _
    _ = {board ((s.withQueue dest (fun q => {q with running := true})).withJob job (fun j => {j with attempt := (s.jobs job).attempt + 1})) with
          inFlight := s.inFlight + 1
          flights := (s.attempts.set s.started ⟨dest,webhook,job,(s.jobs job).attempt + 1⟩).values.map flight
          log := (s.history ++ [(s.now,Note.started dest job ((s.jobs job).attempt + 1))]).map Prod.snd} := rfl
    _ = (board s).start dest job := by
      rw [withJob_board,withQueue_board rfl]
      simp [Board.start,InsertionMap.values_set_fresh fresh,flight]

theorem runJob_attached (attached : Attached s) : Attached (runJob s dest) := by
  have run := runJob_parts pending mirrored
  have names (other : Nat) : ((runJob s dest).queues other).webhookId = (s.queues other).webhookId ∧
      ((runJob s dest).queues other).pending = (s.queues other).pending := by
    rw [run]
    by_cases here : other = dest <;> simp [here]
  refine ⟨?_,?_,?_,?_⟩
  · intro id other found
    rw [(names other).1]
    rw [run] at found ⊢
    exact attached.opened id other found
  · intro number a found
    rw [run] at found ⊢
    by_cases new : number = s.started
    · exact new ▸ Nat.lt_succ_self _
    · exact Nat.lt_succ_of_lt (attached.numbered number a ((get_set_ne new).symm.trans found))
  · intro other k mem
    rw [(names other).2] at mem
    rw [(names other).1,run]
    obtain ⟨known,named⟩ := attached.addressed other k mem
    refine ⟨known,?_⟩
    by_cases here : k = job <;> simpa [here] using named
  · intro other later
    rw [run] at later
    have ne : other ≠ dest := by
      rintro rfl
      simp [(attached.unopened other later).2] at pending
    rw [run]
    simpa [ne] using attached.unopened other later
end

-- Every pass starts an attempt, so `pump` ends only with no room or nothing ready.
theorem pumpLoop_settles (fuel : Nat) (enough : maxInFlight config - s.inFlight ≤ fuel) :
    maxInFlight config ≤ (pumpLoop config fuel s).inFlight ∨ nextReady (pumpLoop config fuel s) = none := by
  induction fuel generalizing s with
  | zero =>
    left
    unfold pumpLoop
    omega
  | succ _ ih =>
    unfold pumpLoop
    split
    · split
      · rename_i none
        exact .inr none
      · rename_i dest ready
        obtain ⟨_,_,_,⟨_,_,pending⟩,_,mirrored,_⟩ := ready_parts ready
        have more : (runJob s dest).inFlight = s.inFlight + 1 := by rw [runJob_parts pending mirrored]
        exact ih (by omega)
    · rename_i full
      exact .inl (by omega)

theorem pump_settles (config : Config) (s : Service π) :
    maxInFlight config ≤ (pump config s).inFlight ∨ nextReady (pump config s) = none := pumpLoop_settles _ (by omega)

theorem flights_split (found : s.attempts.get number = some a) : ∃ before after,
    (board s).flights = before ++ flight a :: after ∧ (s.attempts.remove number).values.map flight = before ++ after := by
  obtain ⟨before,after,values,rest⟩ := InsertionMap.values_remove found
  exact ⟨before.map flight,after.map flight,by simp [values],by simp [rest]⟩

theorem stopRunning_attached (attached : Attached s) : Attached (stopRunning s dest) :=
  attached.less rfl rfl (fun _ _ held => held) rfl rfl (fun _ => rfl) (queue_less rfl (fun _ mem => mem) (by simp))

section
variable (attached : Attached s)
include attached

theorem destination_parts (webhookId : String) : board (destination s webhookId).1 = board s ∧ Attached (destination s webhookId).1 ∧
    (destination s webhookId).1.dests.get webhookId = some (destination s webhookId).2 ∧
    (s.dests.get webhookId = some (destination s webhookId).2 ∧ (destination s webhookId).1 = s ∨
      ((destination s webhookId).1.queues (destination s webhookId).2).running = false) := by
  unfold destination
  split
  · rename_i dest found
    exact ⟨rfl,attached,found,.inl ⟨found,rfl⟩⟩
  · rename_i absent
    have fresh : ∀ id, s.dests.get id ≠ some s.opened := by
      intro id found
      exact Nat.lt_irrefl _ (attached.opened id s.opened found).1
    refine ⟨?_,⟨?_,attached.numbered,?_,?_⟩,get_set,.inr (by simp)⟩
    · ext1
      · funext lane
        rcases eq_or_ne lane s.opened with rfl | new
        · simp [fresh]
        · simp only [board,update_of_ne new]
          by_cases here : (s.queues lane).webhookId = webhookId
          · simp [here,absent,Ne.symm new]
          · rw [get_set_ne here]
      · funext lane
        rcases eq_or_ne lane s.opened with rfl | new
        · simp [(attached.unopened s.opened (Nat.le_refl _)).1]
        · simp [update_of_ne new]
      all_goals rfl
    · intro id dest found
      rcases get_set_some.mp found with ⟨rfl,rfl⟩ | ⟨_,found⟩
      · exact ⟨Nat.lt_succ_self _,by simp⟩
      · obtain ⟨known,named⟩ := attached.opened id dest found
        exact ⟨Nat.lt_succ_of_lt known,by simpa [update_of_ne (Nat.ne_of_lt known)] using named⟩
    · intro dest job mem
      by_cases new : dest = s.opened
      · simp [new] at mem
      · simp only [update_of_ne new] at mem ⊢
        exact attached.addressed dest job mem
    · intro dest later
      have new : dest ≠ s.opened := Nat.ne_of_gt later
      simpa [update_of_ne new] using attached.unopened dest (Nat.le_of_succ_le later)

theorem pushJob_attached (found : s.dests.get webhookId = some dest) : Attached (pushJob s webhookId payload dest) := by
  obtain ⟨known,own⟩ := attached.opened webhookId dest found
  refine ⟨?_,attached.numbered,?_,?_⟩
  · intro id other held
    obtain ⟨before,named⟩ := attached.opened id other held
    refine ⟨before,?_⟩
    by_cases here : other = dest <;> simp [pushJob,here] <;> simpa [here] using named
  · intro other job mem
    have old : ∀ k ∈ (s.queues other).pending, k < s.enqueued + 1 ∧
        ((pushJob s webhookId payload dest).jobs k).webhookId = (s.queues other).webhookId := by
      intro k held
      obtain ⟨before,named⟩ := attached.addressed other k held
      exact ⟨Nat.lt_succ_of_lt before,by simpa [pushJob,update_of_ne (Nat.ne_of_lt before)] using named⟩
    rcases eq_or_ne other dest with rfl | here
    · simp only [pushJob,withQueue,Function.update_self,mem_append,mem_singleton] at mem
      rcases mem with held | rfl
      · simpa [pushJob] using old job held
      · exact ⟨Nat.lt_succ_self _,by simp [pushJob,own]⟩
    · simp only [pushJob,withQueue,update_of_ne here] at mem
      simpa [pushJob,here] using old job mem
  · intro other later
    have ne : other ≠ dest := Nat.ne_of_gt (Nat.lt_of_lt_of_le known later)
    simpa [pushJob,ne] using attached.unopened other later

-- No job that is being tried is dropped for a new one.
def Roomy (config : Config) (s : Service π) (webhookId : String) : Prop :=
  ∀ dest ∈ s.dests.get webhookId, isFull config s dest = true → (s.queues dest).running = false

theorem Attached.landed (number : Nat) : Attached (landed s number) :=
  attached.less rfl rfl (fun _ _ => get_of_remove) rfl rfl (fun _ => rfl) (fun _ => ⟨rfl,fun _ mem => mem,fun runs => runs⟩)

section
variable (config : Config) (strict : Prop)

theorem dropOldest_moves {id : String} (found : s.dests.get id = some dest) (idle : strict → (s.queues dest).running = false) :
    Steps config strict (board s) (board (dropOldest s dest)) ∧ Attached (dropOldest s dest) := by
  obtain ⟨_,own⟩ := attached.opened id dest found
  unfold dropOldest
  split
  · exact ⟨.refl,attached⟩
  · rename_i job rest pending
    constructor
    · have drops : board (((s.withQueue dest (fun q => {q with pending := rest})).resolve job).note (.ended dest job .dropped)) =
          (board s).finish dest job .dropped rest := by
        rw [note_board,resolve,withJob_board,withQueue_board rfl]
        simp [finish,own,found]
      rw [drops]
      exact .single (.drop _ dest job rest ((attached.queue found).trans pending) idle)
    · refine attached.less rfl rfl (fun _ _ held => held) rfl rfl (job_named rfl) (queue_less rfl ?_ (fun runs => runs))
      intro _ mem
      rw [pending]
      exact mem_cons_of_mem job mem

theorem pushJob_moves (found : s.dests.get webhookId = some dest) (payload : π) :
    Steps config strict (board s) (board (pushJob s webhookId payload dest)) ∧ Attached (pushJob s webhookId payload dest) := by
  obtain ⟨_,own⟩ := attached.opened webhookId dest found
  refine ⟨?_,pushJob_attached attached found⟩
  have pushes : board (pushJob s webhookId payload dest) = (board s).push dest := by
    calc board (pushJob s webhookId payload dest)
      _ = {board ((s.withQueue dest (fun q => {q with pending := q.pending ++ [s.enqueued]})).withJob s.enqueued (fun _ => ⟨webhookId,payload,0,false,false⟩)) with
            issued := s.enqueued + 1} := rfl
      _ = (board s).push dest := by
        rw [withJob_board,withQueue_board rfl]
        simp [push,own,found]
  rw [pushes]
  exact .single (.push _ dest)

variable (found : s.attempts.get number = some a)
include found

theorem retry_moves (more : again config a.attempt) :
    Steps config strict (board s) (board (stopRunning (landed s number) a.dest)) ∧ Attached (stopRunning (landed s number) a.dest) := by
  obtain ⟨before,after,flies,rest⟩ := flights_split found
  constructor
  · have lands : board (stopRunning (landed s number) a.dest) = (board s).land (flight a) (before ++ after) := by
      rw [stopRunning_board,landed_board,rest]
      rfl
    rw [lands]
    exact .single (.retry _ (flight a) before after flies more)
  · exact stopRunning_attached (attached.landed number)

theorem succeed_moves : Steps config strict (board s) (board (stopRunning (succeed (landed s number) a) a.dest)) ∧
    Attached (stopRunning (succeed (landed s number) a) a.dest) := by
  obtain ⟨before,after,flies,rest⟩ := flights_split found
  constructor
  · have ends : board (stopRunning (succeed (landed s number) a) a.dest) =
        (((board s).finish a.dest a.job .delivered ((board s).queue a.dest).tail).succeed a.job).land (flight a) (before ++ after) := by
      rw [stopRunning_board,succeed,note_board,resolve,withJob_board,withJob_board,tail_board,withObject_board,withQueue_board rfl,landed_board,rest]
      simp [land,Board.succeed,finish]
      exact ⟨rfl,rfl,rfl,rfl⟩
    rw [ends]
    exact .single (.deliver _ (flight a) before after flies)
  · refine stopRunning_attached ((attached.landed number).less rfl rfl (fun _ _ => id) rfl rfl ?_ (queue_less rfl (fun _ => mem_of_mem_tail) id))
    intro other
    by_cases here : other = a.job <;> simp [succeed,here]

theorem giveUp_moves (last : ¬ again config a.attempt) :
    Steps config strict (board s) (board (stopRunning (giveUp config (landed s number) a) a.dest)) ∧
    Attached (stopRunning (giveUp config (landed s number) a) a.dest) := by
  obtain ⟨before,after,flies,rest⟩ := flights_split found
  have alike : Alike (stopRunning (exhausted (landed s number) a) a.dest) (stopRunning (giveUp config (landed s number) a) a.dest) := by
    rw [giveUp_parts,openCircuit]
    split <;> exact ⟨rfl,rfl,rfl,rfl,rfl,rfl,rfl,rfl,fun _ => ⟨rfl,rfl,rfl⟩⟩
  rw [alike.board]
  refine ⟨?_,alike.attached (stopRunning_attached ((attached.landed number).less rfl rfl (fun _ _ => id) rfl rfl (job_named rfl)
    (queue_less rfl (fun _ => mem_of_mem_tail) id)))⟩
  have ends : board (stopRunning (exhausted (landed s number) a) a.dest) =
      ((board s).finish a.dest a.job (.exhausted a.attempt) ((board s).queue a.dest).tail).land (flight a) (before ++ after) := by
    rw [stopRunning_board,exhausted,note_board,resolve,withJob_board,tail_board,withObject_board,withQueue_board rfl,landed_board,rest]
    simp [land,finish]
    exact ⟨rfl,rfl,rfl,rfl,rfl⟩
  rw [ends]
  exact .single (.exhaust _ (flight a) before after flies last)
end

def Idle (s : Service π) (id : String) : Prop := s.webhooks.get id = none ∨ ∀ dest ∈ s.dests.get id, (s.queues dest).running = false

theorem dropDestination_board {id : String} (found : s.dests.get id = some dest) :
    board (dropDestination s id) = (board s).discard dest := by
  obtain ⟨_,own⟩ := attached.opened id dest found
  have lane := attached.queue found
  simp only [dropDestination,found]
  ext1
  · funext other
    rcases eq_or_ne other dest with rfl | here
    · simp [Board.discard,own,get_remove]
    · by_cases same : (s.queues other).webhookId = id
      · simp [Board.discard,here,same,found,get_remove,Ne.symm here]
      · simp [Board.discard,here,same,get_remove]
  · rfl
  · rfl
  · rfl
  · funext job
    simp only [board,Board.discard]
    split <;> rfl
  · funext job
    simp only [Board.discard,lane]
    simp only [board]
    split <;> rfl
  · funext job
    simp only [board,Board.discard]
    split <;> rfl
  · rfl
  · simp only [Board.discard,lane]
    simp [Function.comp_def]

theorem dropDestination_attached (id : String) : Attached (dropDestination s id) := by
  unfold dropDestination
  split
  · exact attached
  · refine ⟨?_,attached.numbered,?_,attached.unopened⟩
    · intro other d held
      exact attached.opened other d (get_of_remove held)
    · intro other job mem
      obtain ⟨known,named⟩ := attached.addressed other job mem
      refine ⟨known,?_⟩
      dsimp only
      split <;> exact named

theorem remove_moves (config : Config) (strict : Prop) (id : String) (idle : strict → Idle s id) :
    Steps config strict (board s) (board (remove s id)) ∧ Attached (remove s id) := by
  unfold remove
  split
  · exact ⟨.refl,attached⟩
  · rename_i registered
    have unlisted : Attached {s with webhooks := s.webhooks.remove id} := {attached with}
    refine ⟨?_,dropDestination_attached unlisted id⟩
    cases found : s.dests.get id with
    | none =>
      simp only [dropDestination,found]
      exact .refl
    | some dest =>
      rw [dropDestination_board unlisted found]
      refine .single (.discard _ dest ?_)
      intro strictly
      rcases idle strictly with absent | idle
      · cases absent.symm.trans registered
      · exact idle dest found

end

-- No job is dropped and no destination removed while an attempt is in flight there.
def Calm (config : Config) (t : Transition (Service π) (Event π)) : Prop :=
  match t.input with
  | .enqueue webhookId _ => Roomy config t.before webhookId
  | .remove id => Idle t.before id
  | _ => True

instance (t : Transition (Service π) (Event π)) : Decidable (Calm config t) := by
  unfold Calm Roomy Idle
  split <;> infer_instance

-- What the operations are made of. `origin` is the state in which the event happens.
inductive Part (config : Config) (origin : Service π) : Event π → Service π → Service π → Prop where
  | start {event s dest} (ready : nextReady s = some dest) (room : s.inFlight < maxInFlight config) : Part config origin event s (runJob s dest)
  | arm {event s dest} (known : dest < s.opened) : Part config origin event s (armProbe s dest)
  | opens {webhookId payload} : Part config origin (.enqueue webhookId payload) origin (destination origin webhookId).1
  | drop {webhookId payload s dest} (found : s.dests.get webhookId = some dest)
      (idle : Roomy config origin webhookId → (s.queues dest).running = false) : Part config origin (.enqueue webhookId payload) s (dropOldest s dest)
  | push {webhookId payload s dest} (found : s.dests.get webhookId = some dest) :
      Part config origin (.enqueue webhookId payload) s (pushJob s webhookId payload dest)
  | answer {number failure} (webhook : Nat) : Part config origin (.attemptSettles number failure) origin (attemptOnce origin webhook failure)
  | succeed {number failure s a} (found : s.attempts.get number = some a) :
      Part config origin (.attemptSettles number failure) s (stopRunning (succeed (landed s number) a) a.dest)
  | retry {number failure s a} (found : s.attempts.get number = some a) (more : again config a.attempt) :
      Part config origin (.attemptSettles number failure) s
        (setTimer (stopRunning (landed s number) a.dest) a.dest (backoffDelayMs config a.attempt) .retry)
  | giveUp {number message s a} (found : s.attempts.get number = some a) (last : ¬ again config a.attempt)
      (same : s.attempts = origin.attempts ∧ s.queues = origin.queues ∧ s.webhooks = origin.webhooks) :
      Part config origin (.attemptSettles number (some message)) s (stopRunning (giveUp config (landed s number) a) a.dest)
  | expire {number s timeout} (found : s.timeouts.get number = some timeout) (due : timeout.due ≤ s.now) :
      Part config origin (.timerFires number) s (expire s number timeout)
  | remove {webhookId} : Part config origin (.remove webhookId) origin (remove origin webhookId)
  | merge {records} : Part config origin (.merge records) origin (mergeIntoMirror origin records)
  | register {webhookId s} (registers : register origin webhookId = .ok s) : Part config origin (.register webhookId) origin s
  | wait {ms} : Part config origin (.wait ms) origin {origin with now := origin.now + ms}

abbrev Parts (config : Config) (origin : Service π) (event : Event π) := Relation.ReflTransGen (Part config origin event)

theorem pumpLoop_parts (fuel : Nat) (s : Service π) : Parts config origin event s (pumpLoop config fuel s) := by
  induction fuel generalizing s with
  | zero => exact .refl
  | succ _ ih =>
    unfold pumpLoop
    split
    · rename_i room
      split
      · exact .refl
      · rename_i _ ready
        exact .head (.start ready room) (ih _)
    · exact .refl

theorem schedule_parts (known : dest < s.opened) : Parts config origin event s (schedule config s dest) := .head (.arm known) (pumpLoop_parts _ _)

theorem enqueue_parts (config : Config) (attached : Attached s) (id : String) (payload : π) : ∃ t dest, Parts config s (.enqueue id payload) s t ∧
    t.dests.get id = some dest ∧ Parts config s (.enqueue id payload) (pushJob t id payload dest) (enqueue config s id payload) := by
  obtain ⟨_,opened,found,old⟩ := destination_parts attached id
  have opens : Part config s (.enqueue id payload) s (destination s id).1 := .opens
  unfold enqueue
  generalize destination s id = d at opened found old opens
  obtain ⟨t,dest⟩ := d
  dsimp only at opened found old opens ⊢
  have known := (opened.opened id dest found).1
  split
  · rename_i full
    have idle : Roomy config s id → (t.queues dest).running = false := by
      intro roomy
      rcases old with ⟨before,rfl⟩ | idle
      · exact roomy dest before full
      · exact idle
    have kept : (dropOldest t dest).dests = t.dests ∧ (dropOldest t dest).opened = t.opened := by
      unfold dropOldest
      split <;> exact ⟨rfl,rfl⟩
    exact ⟨_,dest,.head opens (.single (.drop found idle)),kept.1 ▸ found,schedule_parts (kept.2 ▸ known)⟩
  · exact ⟨_,dest,.single opens,found,schedule_parts known⟩

theorem attemptSettles_parts {failure : Option String} (known : ∀ a, s.attempts.get number = some a → a.dest < s.opened)
    (settles : attemptSettles config s number failure = .ok s') : Parts config s (.attemptSettles number failure) s s' := by
  obtain ⟨a,found,⟨⟩⟩ := lookup_ok.mp settles
  have alike := attemptOnce_alike (s := s) a.webhook failure
  have same : (attemptOnce s a.webhook failure).attempts = s.attempts ∧ (attemptOnce s a.webhook failure).queues = s.queues ∧
      (attemptOnce s a.webhook failure).webhooks = s.webhooks := by
    cases failure <;> exact ⟨rfl,rfl,rfl⟩
  have known := known a found
  refine .head (.answer a.webhook) ?_
  rw [show attemptOnce {s with attempts := s.attempts.remove number} a.webhook failure = landed (attemptOnce s a.webhook failure) number by
    cases failure <;> rfl]
  rw [← same.1] at found
  rw [← alike.opened] at known
  generalize attemptOnce s a.webhook failure = t at found known same
  unfold finishJob
  split
  · exact .head (.succeed found) (schedule_parts known)
  · rename_i failed
    split
    · rename_i more
      exact .head (.retry found more) (pumpLoop_parts _ _)
    · rename_i last
      have opened : (stopRunning (giveUp config (landed t number) a) a.dest).opened = t.opened := by
        rw [giveUp_parts]
        exact (openCircuit_alike).opened
      cases failure with
      | none => exact absurd rfl failed
      | some => exact .head (.giveUp found last same) (schedule_parts (opened ▸ known))

theorem step_parts (attached : Attached s) (known : ∀ number a, s.attempts.get number = some a → a.dest < s.opened)
    (ran : step config s event = .ok s') : Parts config s event s s' := by
  cases event with
  | wait =>
    cases ran
    exact .single .wait
  | enqueue id payload =>
    cases ran
    obtain ⟨t,_,before,found,after⟩ := enqueue_parts config attached id payload
    exact (before.tail (.push found)).trans after
  | attemptSettles number => exact attemptSettles_parts (known number) ran
  | timerFires =>
    simp only [step,timerFires,bind_ok,someOr_ok,require_ok,Except.ok.injEq] at ran
    obtain ⟨_,found,_,due,rfl⟩ := ran
    exact .head (.expire found due) (pumpLoop_parts _ _)
  | remove =>
    cases ran
    exact .single .remove
  | merge =>
    cases ran
    exact .single .merge
  | register => exact .single (.register ran)

-- Whatever happens to the service, the board shows a sequence of moves.
theorem part_moves (strict : Prop) (part : Part config origin event s s') (attached : Attached s)
    (calm : strict → Calm config ⟨origin,event,t⟩) : Steps config strict (board s) (board s') ∧ Attached s' := by
  have unmoved {s s' : Service π} (alike : Alike s s') (attached : Attached s) : Steps config strict (board s) (board s') ∧ Attached s' :=
    ⟨alike.board ▸ .refl,alike.attached attached⟩
  cases part with
  | start ready room =>
    obtain ⟨⟨_,found⟩,idle,_,⟨job,rest,pending⟩,webhook,mirrored,_⟩ := ready_parts ready
    rw [runJob_board pending mirrored attached]
    exact ⟨.single (.start _ _ job rest ((attached.queue found).trans pending) idle room),runJob_attached pending mirrored attached⟩
  | arm => exact unmoved (armProbe_alike) attached
  | opens =>
    obtain ⟨same,opened,_⟩ := destination_parts attached _
    exact ⟨same ▸ .refl,opened⟩
  | drop found idle => exact dropOldest_moves attached config strict found (fun strictly => idle (calm strictly))
  | push found => exact pushJob_moves attached config strict found _
  | answer webhook => exact unmoved (attemptOnce_alike webhook _) attached
  | succeed found => exact succeed_moves attached config strict found
  | retry found more =>
    obtain ⟨lands,after⟩ := retry_moves attached config strict found more
    obtain ⟨still,timed⟩ := unmoved (setTimer_alike) after
    exact ⟨lands.trans still,timed⟩
  | giveUp found last => exact giveUp_moves attached config strict found last
  | expire => exact unmoved (expire_alike) attached
  | remove => exact remove_moves attached config strict _ calm
  | merge => exact unmoved (mergeIntoMirror_alike) attached
  | register registers =>
    obtain ⟨_,⟨⟩⟩ := guard_ok.mp registers
    exact ⟨.refl,{attached with}⟩
  | wait => exact ⟨.refl,{attached with}⟩

theorem parts_moves (strict : Prop) (parts : Parts config origin event s s') (attached : Attached s)
    (calm : strict → Calm config ⟨origin,event,t⟩) : Steps config strict (board s) (board s') ∧ Attached s' := by
  induction parts with
  | refl => exact ⟨.refl,attached⟩
  | tail _ part ih =>
    obtain ⟨moves,next⟩ := part_moves strict part ih.2 calm
    exact ⟨ih.1.trans moves,next⟩

theorem part_now (part : Part config origin event s s') : s.now ≤ s'.now := by
  cases part with
  | start =>
    unfold runJob
    split <;> exact Int.le_refl _
  | arm =>
    unfold armProbe setTimer
    (repeat' split) <;> exact Int.le_refl _
  | opens =>
    unfold destination
    split <;> exact Int.le_refl _
  | drop =>
    unfold dropOldest
    split <;> exact Int.le_refl _
  | push | succeed | retry => exact Int.le_refl _
  | answer =>
    unfold attemptOnce
    split <;> exact Int.le_refl _
  | giveUp =>
    rw [giveUp_parts,openCircuit]
    split <;> exact Int.le_refl _
  | expire =>
    unfold expire probe
    dsimp only
    (repeat' split) <;> exact Int.le_refl _
  | remove =>
    unfold remove dropDestination
    (repeat' split) <;> exact Int.le_refl _
  | merge =>
    obtain ⟨_,_,_,parts⟩ := mergeIntoMirror_parts
    exact Int.le_of_eq (congrArg Service.now parts).symm
  | register registers =>
    obtain ⟨_,⟨⟩⟩ := guard_ok.mp registers
    exact Int.le_refl _
  | wait => exact Int.le_add_of_nonneg_right (Int.natCast_nonneg _)

def limit (config : Config) : Nat := (max 1 config.maxRetries).toNat

theorem limit_exact : (limit config : Int) = max 1 config.maxRetries := by
  unfold limit
  omega

theorem again_limit (attempt : Nat) (more : again config attempt) : attempt < limit config := by
  unfold again at more
  unfold limit
  omega

section
variable (standing : Standing (maxInFlight config) (limit config) (board s))
include standing

-- An attempt keeps its queue running, and such a queue is open.
theorem Attached.aloft (attached : Attached s)
    (found : s.attempts.get number = some a) : (s.queues a.dest).running = true ∧ a.dest < s.opened := by
  have running : (s.queues a.dest).running = true := by
    apply (standing.busy a.dest).mpr
    simp only [board,map_map,mem_map]
    exact ⟨a,mem_values.mpr ⟨number,found⟩,rfl⟩
  refine ⟨running,?_⟩
  by_contra unopened
  rw [(attached.unopened a.dest (Nat.le_of_not_lt unopened)).1] at running
  cases running

theorem steps_standing (moves : Steps config strict (board s) (board s')) :
    Standing (maxInFlight config) (limit config) (board s') := moves_standing standing (by unfold limit; omega) again_limit moves

theorem step_moves (strict : Prop) (attached : Attached s)
    (ran : step config s event = .ok s') (calm : strict → Calm config ⟨s,event,s'⟩) : Steps config strict (board s) (board s') ∧ Attached s' :=
  parts_moves strict (step_parts attached (fun _ _ found => (attached.aloft standing found).2) ran) attached calm

theorem step_now (attached : Attached s) (ran : step config s event = .ok s') : s.now ≤ s'.now := by
  have parts := step_parts attached (fun _ _ found => (attached.aloft standing found).2) ran
  clear ran
  induction parts with
  | refl => exact Int.le_refl _
  | tail _ part ih => exact Int.le_trans ih (part_now part)

end

theorem enqueue_issues (attached : Attached s) : s.enqueued < (enqueue config s webhookId payload).enqueued := by
  obtain ⟨t,_,before,found,after⟩ := enqueue_parts config attached webhookId payload
  obtain ⟨first,ready⟩ := parts_moves (t := s) False before attached (fun never => never.elim)
  obtain ⟨second,_⟩ := parts_moves (t := s) False after (pushJob_attached ready found) (fun never => never.elim)
  exact Nat.lt_of_le_of_lt (moves_grow first).2 (Nat.lt_of_succ_le (moves_grow second).2)

variable [Inhabited π]

theorem start_board : board (Service.start now : Service π) = .empty := by
  ext1
  · funext lane
    simp [Service.start,unopened,Board.empty]
  all_goals rfl

theorem start_attached : Attached (Service.start now : Service π) := by
  constructor <;> simp [Service.start,unopened]

theorem runs_standing (path : Run (step config) (Service.start now) ts s) :
    Standing (maxInFlight config) (limit config) (board s) ∧ Attached s := by
  refine path.invariant_of (P := fun s => Standing (maxInFlight config) (limit config) (board s) ∧ Attached s) (G := fun _ => True)
    (fun _ _ => trivial) ⟨?_,start_attached⟩ ?_
  · rw [start_board]
    exact empty_standing (by unfold maxInFlight; omega)
  · rintro ⟨_,_⟩ _ ran ⟨standing,attached⟩
    obtain ⟨moves,next⟩ := step_moves standing False attached ran (fun never => never.elim)
    exact ⟨steps_standing standing moves,next⟩

theorem runs_kept {I : Service π → Prop} {G : Transition (Service π) (Event π) → Prop} (path : Run (step config) (Service.start now) ts s)
    (good : ∀ t ∈ ts, G t) (base : I (Service.start now)) (keep : ∀ origin event after s s', G ⟨origin,event,after⟩ → Part config origin event s s' →
      Standing (maxInFlight config) (limit config) (board s) → Attached s → I s → I s') : I s := by
  induction path with
  | nil => exact base
  | @snoc ts before event after path ran ih =>
    have held := ih (fun t mem => good t (by simp [mem]))
    obtain ⟨standing,attached⟩ := runs_standing path
    have parts := step_parts attached (fun _ _ found => (attached.aloft standing found).2) ran
    have each := fun t t' => keep before event after t t' (good _ (by simp))
    clear ran good
    refine (?_ : Standing (maxInFlight config) (limit config) (board after) ∧ Attached after ∧ I after).2.2
    induction parts with
    | refl => exact ⟨standing,attached,held⟩
    | tail _ part ih =>
      obtain ⟨standing,attached,held⟩ := ih
      obtain ⟨moves,next⟩ := part_moves (t := before) False part attached (fun never => never.elim)
      exact ⟨steps_standing standing moves,next,each _ _ part standing attached held⟩

theorem runs_accounted (path : Run (step config) (Service.start now) ts s) (calm : ∀ t ∈ ts, Calm config t) :
    Accounted (again config) (board s) := by
  refine runs_kept (I := fun s => Accounted (again config) (board s)) path calm ?_ ?_
  · rw [start_board]
    exact empty_accounted
  · intro _ _ _ s _ calm part standing attached accounted
    obtain ⟨moves,_⟩ := part_moves True part attached (fun _ => calm)
    exact moves_accounted standing accounted (by unfold limit; omega) again_limit moves

end StellarPriceOracle.WebhookDispatch
