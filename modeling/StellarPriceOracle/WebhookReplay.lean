import StellarPriceOracle.WebhookDispatch

namespace StellarPriceOracle.WebhookReplay
open WebhookQueue hiding Event step Impossible
open WebhookDispatch Dispatch Guarded
open InsertionMap (get_set get_set_ne get_remove get_of_remove)
open List

-- api/src/webhooks/webhook-service.ts: `replay`. A dead letter goes by its id.
structure DeadLetterEntry (π : Type) where
  webhookId : String
  payload : π
  resolvedAt : Option Int
  replayId : Option String

inductive ReplayResult (π : Type) where
  | missing
  | duplicate (entry : DeadLetterEntry π)
  | inFlight (entry : DeadLetterEntry π)
  | failed (failure : String) (entry : DeadLetterEntry π)
  | replayed (entry : DeadLetterEntry π)

inductive Phase (π : Type) where
  | reading
  | read (entry : Option (DeadLetterEntry π))
  | delivering (entry : DeadLetterEntry π) (webhook job : Nat)
  | updating (entry resolved : DeadLetterEntry π)
  | updated (entry resolved : DeadLetterEntry π) (failure : Option String)
  | finished (result : ReplayResult π)

structure Call (π : Type) where
  (deadLetterId idempotencyKey : String)
  phase : Phase π

-- The service with its dead letters; `replays` has the jobs that `replay` enqueued.
structure World (π : Type) where
  service : Service π
  letters : InsertionMap String (DeadLetterEntry π)
  (appended replaying : List String)
  calls : InsertionMap Nat (Call π)
  called : Nat
  replays : List (String × Nat)

inductive Event (π : Type) where
  | service (event : WebhookQueue.Event π)
  | append (deadLetterId webhookId : String) (payload : π)
  | prune (deadLetterId : String)
  | replay (deadLetterId idempotencyKey : String)
  | read (call : Nat)
  | readFails (call : Nat)
  | goesOn (call : Nat)
  | done (call : Nat)
  | update (call : Nat)
  | updateFails (call : Nat) (message : String) (written : Bool)
  | finish (call : Nat)

inductive Impossible where
  | service (reason : WebhookQueue.Impossible)
  | notThere | otherPhase | notDone | appendedAlready
  deriving DecidableEq

section
variable {π : Type}

@[simp] def World.start [Inhabited π] (now : Int) : World π := ⟨.start now,.empty,[],[],.empty,0,[]⟩

def isResolved (entry : DeadLetterEntry π) : Bool := entry.resolvedAt.any (fun time => time ≠ 0)

variable (config : Config) (w : World π)

section
variable (number : Nat)

@[simp] def World.withPhase (call : Call π) (phase : Phase π) : World π :=
  {w with calls := w.calls.set number {call with phase := phase}}

@[simp] def World.release (deadLetterId : String) : World π := {w with replaying := w.replaying.filter (fun id => id ≠ deadLetterId)}

def failureOf (webhook : Nat) : String :=
  match (w.service.objects webhook).lastFailure with
  | none | some "" => "Delivery failed"
  | some failure => failure

-- `replay` from the answer of `getDeadLetter` up to the wait for the job.
def afterRead (call : Call π) : Option (DeadLetterEntry π) → World π
  | none => w.withPhase number call (.finished .missing)
  | some entry =>
    if isResolved entry then w.withPhase number call (.finished (.duplicate entry))
    else if call.deadLetterId ∈ w.replaying then w.withPhase number call (.finished (.inFlight entry))
    else match w.service.webhooks.get entry.webhookId with
      | none => w.withPhase number call (.finished (.failed "Webhook is no longer registered" entry))
      | some webhook =>
        {w.withPhase number call (.delivering entry webhook w.service.enqueued) with
          service := enqueue config w.service (w.service.objects webhook).id entry.payload
          replaying := call.deadLetterId :: w.replaying
          replays := w.replays ++ [(call.deadLetterId,w.service.enqueued)]}

def afterDone (call : Call π) (entry : DeadLetterEntry π) (webhook job : Nat) : World π :=
  if (w.service.jobs job).succeeded then
    w.withPhase number call (.updating entry {entry with resolvedAt := some w.service.now, replayId := some call.idempotencyKey})
  else (w.withPhase number call (.finished (.failed (failureOf w webhook) entry))).release call.deadLetterId

def afterUpdate (call : Call π) (entry resolved : DeadLetterEntry π) : Option String → World π
  | none => (w.withPhase number call (.finished (.replayed resolved))).release call.deadLetterId
  | some message => (w.withPhase number call (.finished (.failed message entry))).release call.deadLetterId

end

def updateDeadLetter (deadLetterId : String) (resolved : DeadLetterEntry π) : World π :=
  {w with letters := w.letters.set deadLetterId resolved}

def step : Event π → Except Impossible (World π)
  | .service event => do
    let service ← (WebhookQueue.step config w.service event).mapError .service
    .ok {w with service := service}
  | .append deadLetterId webhookId payload => do
    require (deadLetterId ∉ w.appended) .appendedAlready
    .ok {w with letters := w.letters.set deadLetterId ⟨webhookId,payload,none,none⟩, appended := deadLetterId :: w.appended}
  | .prune deadLetterId => .ok {w with letters := w.letters.remove deadLetterId}
  | .replay deadLetterId idempotencyKey =>
    .ok {w with calls := w.calls.set w.called ⟨deadLetterId,idempotencyKey,.reading⟩, called := w.called + 1}
  | .read number => do
    let call ← someOr (w.calls.get number) .notThere
    match call.phase with
    | .reading => .ok (w.withPhase number call (.read (w.letters.get call.deadLetterId)))
    | _ => .error .otherPhase
  | .readFails number => do
    let call ← someOr (w.calls.get number) .notThere
    match call.phase with
    | .reading => .ok (w.withPhase number call (.read none))
    | _ => .error .otherPhase
  | .goesOn number => do
    let call ← someOr (w.calls.get number) .notThere
    match call.phase with
    | .read found => .ok (afterRead config w number call found)
    | _ => .error .otherPhase
  | .done number => do
    let call ← someOr (w.calls.get number) .notThere
    match call.phase with
    | .delivering entry webhook job =>
      require ((w.service.jobs job).settled = true) .notDone
      .ok (afterDone w number call entry webhook job)
    | _ => .error .otherPhase
  | .update number => do
    let call ← someOr (w.calls.get number) .notThere
    match call.phase with
    | .updating entry resolved => .ok (updateDeadLetter (w.withPhase number call (.updated entry resolved none)) call.deadLetterId resolved)
    | _ => .error .otherPhase
  | .updateFails number message written => do
    let call ← someOr (w.calls.get number) .notThere
    match call.phase with
    | .updating entry resolved =>
      let w := w.withPhase number call (.updated entry resolved (some message))
      .ok (if written then updateDeadLetter w call.deadLetterId resolved else w)
    | _ => .error .otherPhase
  | .finish number => do
    let call ← someOr (w.calls.get number) .notThere
    match call.phase with
    | .updated entry resolved failure => .ok (afterUpdate w number call entry resolved failure)
    | _ => .error .otherPhase

def successes (deadLetterId : String) : List (Int × Note) := w.service.history.filter (fun entry =>
  match entry.2 with
  | .ended _ job .delivered => decide ((deadLetterId,job) ∈ w.replays)
  | _ => false)
end

section
variable {π : Type} {config : Config} {w w' : World π} {id : String} {number job : Nat} {call : Call π}

def Phase.underWay : Phase π → Bool
  | .delivering _ _ _ | .updating _ _ | .updated _ _ _ => true
  | _ => false

def Under (w : World π) (id : String) (number : Nat) (phase : Phase π) : Prop :=
  phase.underWay = true ∧ ∃ key, w.calls.get number = some ⟨id,key,phase⟩

-- The job has ended without a delivery.
def Lost (s : Service π) (job : Nat) : Prop := (s.jobs job).settled = true ∧ (s.jobs job).succeeded = false

def Closed (w : World π) (id : String) : Prop := id ∈ w.appended ∧ ∀ entry, w.letters.get id = some entry → isResolved entry = true

-- At most one call for the letter is under way.
structure Once (id : String) (w : World π) : Prop where
  guarded : ∀ number phase, Under w id number phase → id ∈ w.replaying
  alone : ∀ number other phase phase', Under w id number phase → Under w id other phase' → number = other
  single : ∀ job other, (id,job) ∈ w.replays → (id,other) ∈ w.replays → ¬ Lost w.service job → ¬ Lost w.service other → job = other
  winner : ∀ job, (id,job) ∈ w.replays → ¬ Lost w.service job → (∃ number entry webhook, Under w id number (.delivering entry webhook job)) ∨
    (∃ number entry resolved, Under w id number (.updating entry resolved)) ∨ Closed w id

theorem Once.frame (once : Once id w) (under : ∀ number phase, Under w' id number phase ↔ Under w id number phase)
    (replaying : id ∈ w.replaying → id ∈ w'.replaying) (replays : ∀ job, (id,job) ∈ w'.replays → (id,job) ∈ w.replays)
    (lost : ∀ job, (id,job) ∈ w.replays → Lost w.service job → Lost w'.service job) (closed : Closed w id → Closed w' id) : Once id w' := by
  refine ⟨?_,?_,?_,?_⟩
  · intro number phase held
    exact replaying (once.guarded number phase ((under ..).mp held))
  · intro number other phase phase' first second
    exact once.alone number other phase phase' ((under ..).mp first) ((under ..).mp second)
  · intro job other first second kept kept'
    have before := replays job first
    have before' := replays other second
    exact once.single job other before before' (fun gone => kept (lost job before gone)) (fun gone => kept' (lost other before' gone))
  · intro job mem kept
    have before := replays job mem
    rcases once.winner job before (fun gone => kept (lost job before gone)) with ⟨number,entry,webhook,held⟩ | ⟨number,entry,resolved,held⟩ | ended
    · exact .inl ⟨number,entry,webhook,(under ..).mpr held⟩
    · exact .inr (.inl ⟨number,entry,resolved,(under ..).mpr held⟩)
    · exact .inr (.inr (closed ended))

theorem under_set (set : w'.calls = w.calls.set number {call with phase := phase}) : Under w' id other phase' ↔
      (other = number ∧ call.deadLetterId = id ∧ phase' = phase ∧ phase.underWay = true) ∨ (other ≠ number ∧ Under w id other phase') := by
  unfold Under
  rw [set]
  rcases eq_or_ne other number with rfl | here
  · rw [get_set]
    constructor
    · rintro ⟨under,_,same⟩
      cases same
      exact .inl ⟨rfl,rfl,rfl,under⟩
    · rintro (⟨_,rfl,rfl,under⟩ | ⟨absurd',_⟩)
      · exact ⟨under,call.idempotencyKey,rfl⟩
      · exact absurd rfl absurd'
  · simp [get_set_ne here,here]

@[simp] def Phase.hasEntry : Phase π → Bool
  | .read (some _) | .delivering _ _ _ | .updating _ _ | .updated _ _ _ => true
  | _ => false

structure Orderly (config : Config) (s : Service π) : Prop where
  standing : Standing (maxInFlight config) (limit config) (board s)
  attached : Attached s
  accounted : Accounted (again config) (board s)

structure Sane (config : Config) (w : World π) : Prop where
  orderly : Orderly config w.service
  clock : 0 < w.service.now
  issued : ∀ id job, (id,job) ∈ w.replays → job < w.service.enqueued
  numbered : ∀ number call, w.calls.get number = some call → number < w.called
  stored : ∀ id entry, w.letters.get id = some entry → id ∈ w.appended
  named : ∀ number call, w.calls.get number = some call → call.phase.hasEntry = true → call.deadLetterId ∈ w.appended
  resolves : ∀ number call entry resolved, w.calls.get number = some call → call.phase = .updating entry resolved → isResolved resolved = true

theorem orderly_step (orderly : Orderly config s)
    (ran : WebhookQueue.step config s event = .ok s') (calm : Calm config ⟨s,event,s'⟩) :
    Orderly config s' ∧ s.enqueued ≤ s'.enqueued ∧ ∀ job < s.enqueued, Lost s job → Lost s' job := by
  obtain ⟨standing,attached,accounted⟩ := orderly
  obtain ⟨moves,attached'⟩ := step_moves standing True attached ran (fun _ => calm)
  have accounted' := moves_accounted standing accounted (by unfold limit; omega) again_limit moves
  obtain ⟨log,issued⟩ := moves_grow moves
  refine ⟨⟨steps_standing standing moves,attached',accounted'⟩,issued,?_⟩
  rintro job known ⟨settled,failed⟩
  obtain ⟨settled',same⟩ := settled_stays accounted accounted' log issued known settled
  exact ⟨settled',same.trans failed⟩

theorem Sane.rephase (sane : Sane config w) (found : w.calls.get number = some call) (phase : Phase π)
    (named : phase.hasEntry = true → call.deadLetterId ∈ w.appended)
    (resolves : ∀ entry resolved, phase = .updating entry resolved → isResolved resolved = true) : Sane config (w.withPhase number call phase) := by
  obtain ⟨orderly,clock,issued,numbered,stored,named',resolves'⟩ := sane
  refine ⟨orderly,clock,issued,?_,stored,?_,?_⟩
  · intro other held get
    by_cases here : other = number
    · exact here ▸ numbered number call found
    · exact numbered other held ((get_set_ne here).symm.trans get)
  · intro other held get
    rcases eq_or_ne other number with rfl | here
    · cases (get_set.symm.trans get : some _ = some held)
      exact named
    · exact named' other held ((get_set_ne here).symm.trans get)
  · intro other held entry resolved get
    rcases eq_or_ne other number with rfl | here
    · cases (get_set.symm.trans get : some _ = some held)
      exact resolves entry resolved
    · exact resolves' other held entry resolved ((get_set_ne here).symm.trans get)

theorem under_found (found : w.calls.get number = some call) :
    Under w id number phase ↔ phase.underWay = true ∧ call.deadLetterId = id ∧ call.phase = phase := by
  constructor
  · rintro ⟨under,_,get⟩
    cases found.symm.trans get
    exact ⟨under,rfl,rfl⟩
  · rintro ⟨under,rfl,rfl⟩
    exact ⟨under,call.idempotencyKey,found⟩

section
variable {phase : Phase π} (found : w.calls.get number = some call) (set : w'.calls = w.calls.set number {call with phase := phase})
include found set

theorem under_foreign (foreign : call.deadLetterId ≠ id) (other : Nat) (phase' : Phase π) : Under w' id other phase' ↔ Under w id other phase' := by
  rw [under_set set]
  rcases eq_or_ne other number with rfl | here
  · simp [under_found found,foreign]
  · simp [here]

theorem under_quiet (before : call.phase.underWay = false) (after : phase.underWay = false) (other : Nat) (phase' : Phase π) :
    Under w' id other phase' ↔ Under w id other phase' := by
  rw [under_set set]
  rcases eq_or_ne other number with rfl | here
  · simp only [under_found found,after,ne_eq,not_true_eq_false,false_and,or_false,Bool.false_eq_true,and_false,false_iff,not_and]
    rintro under _ rfl
    cases before.symm.trans under
  · simp [here]

theorem under_own (once : Once call.deadLetterId w) (before : call.phase.underWay = true) (other : Nat) (phase' : Phase π) :
    Under w' call.deadLetterId other phase' ↔ other = number ∧ phase' = phase ∧ phase.underWay = true := by
  rw [under_set set]
  have own : Under w call.deadLetterId number call.phase := (under_found found).mpr ⟨before,rfl,rfl⟩
  constructor
  · rintro (⟨here,_,same,after⟩ | ⟨elsewhere,held⟩)
    · exact ⟨here,same,after⟩
    · exact absurd (once.alone other number _ _ held own) elsewhere
  · rintro ⟨here,same,after⟩
    exact .inl ⟨here,rfl,same,after⟩
end

theorem Once.holder (once : Once call.deadLetterId w) (found : w.calls.get number = some call) (before : call.phase.underWay = true)
    (mem : (call.deadLetterId,job) ∈ w.replays) (kept : ¬ Lost w.service job) :
    (∃ entry webhook, call.phase = .delivering entry webhook job) ∨ (∃ entry resolved, call.phase = .updating entry resolved) ∨
      Closed w call.deadLetterId := by
  have own : Under w call.deadLetterId number call.phase := (under_found found).mpr ⟨before,rfl,rfl⟩
  rcases once.winner job mem kept with ⟨other,entry,webhook,held⟩ | ⟨other,entry,resolved,held⟩ | ended
  · obtain rfl := once.alone other number _ _ held own
    exact .inl ⟨entry,webhook,((under_found found).mp held).2.2⟩
  · obtain rfl := once.alone other number _ _ held own
    exact .inr (.inl ⟨entry,resolved,((under_found found).mp held).2.2⟩)
  · exact .inr (.inr ended)

def Good (config : Config) (w : World π) : Prop := Sane config w ∧ ∀ id, Once id w

section
variable (good : Good config w)
include good

section
variable (found : w.calls.get number = some call)
include found

theorem good_quiet (before : call.phase.underWay = false)
    (after : phase.underWay = false) (named : phase.hasEntry = true → call.deadLetterId ∈ w.appended) :
    Good config (w.withPhase number call phase) := by
  refine ⟨good.1.rephase found phase named ?_,fun id => ?_⟩
  · rintro _ _ rfl
    cases after
  · exact (good.2 id).frame (under_quiet found rfl before after) (fun held => held) (fun _ mem => mem) (fun _ _ gone => gone)
      (fun closed => closed)

theorem good_release (before : call.phase.underWay = true)
    (ended : ∀ entry webhook job, call.phase = .delivering entry webhook job → Lost w.service job)
    (settled : ∀ entry resolved, call.phase ≠ .updating entry resolved) :
    Good config ((w.withPhase number call (.finished result)).release call.deadLetterId) := by
  obtain ⟨orderly,clock,issued,numbered,stored,named,resolves⟩ := good.1.rephase found (.finished result) (by simp) (by simp)
  refine ⟨⟨orderly,clock,issued,numbered,stored,named,resolves⟩,fun id => ?_⟩
  have once := good.2 id
  rcases eq_or_ne call.deadLetterId id with rfl | foreign
  · have none : ∀ other phase, ¬ Under ((w.withPhase number call (.finished result)).release call.deadLetterId) call.deadLetterId other phase := by
      intro other phase held
      have after := ((under_own found rfl once before other phase).mp held).2.2
      cases after
    refine ⟨fun other phase held => absurd held (none other phase),fun other _ phase _ held => absurd held (none other phase),once.single,?_⟩
    intro job mem kept
    rcases once.holder found before mem kept with ⟨entry,webhook,delivering⟩ | ⟨entry,resolved,updating⟩ | closed
    · exact absurd (ended entry webhook job delivering) kept
    · exact absurd updating (settled entry resolved)
    · exact .inr (.inr closed)
  · refine once.frame (under_foreign found rfl foreign) ?_ (fun _ mem => mem) (fun _ _ gone => gone) (fun closed => closed)
    intro held
    simp [held,Ne.symm foreign]

theorem good_succeed (delivering : call.phase = .delivering entry webhook job) (resolves : isResolved resolved = true) :
    Good config (w.withPhase number call (.updating entry resolved)) := by
  have before : call.phase.underWay = true := by rw [delivering]; rfl
  refine ⟨good.1.rephase found (.updating entry resolved) (fun _ => good.1.named number call found (by rw [delivering]; rfl)) ?_,fun id => ?_⟩
  · rintro _ _ ⟨⟩
    exact resolves
  have once := good.2 id
  rcases eq_or_ne call.deadLetterId id with rfl | foreign
  · have under := under_own found (rfl : (w.withPhase number call (.updating entry resolved)).calls = _) once before
    refine ⟨?_,?_,once.single,?_⟩
    · intro _ _ held
      exact once.guarded number call.phase ((under_found found).mpr ⟨before,rfl,rfl⟩)
    · intro _ _ _ _ held held'
      exact ((under ..).mp held).1.trans ((under ..).mp held').1.symm
    · intro _ mem _
      exact .inr (.inl ⟨number,entry,resolved,(under ..).mpr ⟨rfl,rfl,rfl⟩⟩)
  · exact once.frame (under_foreign found rfl foreign) (fun held => held) (fun _ mem => mem) (fun _ _ gone => gone) (fun closed => closed)

theorem good_update (updating : call.phase = .updating entry resolved) (failure : Option String) :
    Good config (updateDeadLetter (w.withPhase number call (.updated entry resolved failure)) call.deadLetterId resolved) := by
  have before : call.phase.underWay = true := by rw [updating]; rfl
  have known : call.deadLetterId ∈ w.appended := good.1.named number call found (by rw [updating]; rfl)
  obtain ⟨orderly,clock,issued,numbered,stored,named,resolves⟩ := good.1.rephase found (.updated entry resolved failure) (fun _ => known) (by simp)
  constructor
  · refine ⟨orderly,clock,issued,numbered,?_,named,resolves⟩
    intro id held get
    by_cases here : id = call.deadLetterId
    · exact here ▸ known
    · exact stored id held ((get_set_ne here).symm.trans get)
  intro id
  have once := good.2 id
  rcases eq_or_ne call.deadLetterId id with rfl | foreign
  · have under := under_own found (rfl : (updateDeadLetter (w.withPhase number call (.updated entry resolved failure))
      call.deadLetterId resolved).calls = _) once before
    refine ⟨?_,?_,once.single,?_⟩
    · intro _ _ held
      exact once.guarded number call.phase ((under_found found).mpr ⟨before,rfl,rfl⟩)
    · intro _ _ _ _ held held'
      exact ((under ..).mp held).1.trans ((under ..).mp held').1.symm
    · intro _ mem _
      refine .inr (.inr ⟨known,?_⟩)
      intro held get
      cases (get_set.symm.trans get : some resolved = some held)
      exact good.1.resolves number call entry resolved found updating
  · refine once.frame (under_foreign found rfl foreign) (fun held => held) (fun _ mem => mem) (fun _ _ gone => gone) ?_
    rintro ⟨appended,closed⟩
    exact ⟨appended,fun held get => closed held ((get_set_ne (Ne.symm foreign)).symm.trans get)⟩

theorem good_begin (reading : call.phase = .read (some entry)) (free : call.deadLetterId ∉ w.replaying)
    (current : w.letters.get call.deadLetterId = some held) (unresolved : isResolved held = false)
    (orderly : Orderly config s) (clock : 0 < s.now) (more : w.service.enqueued < s.enqueued)
    (lost : ∀ job < w.service.enqueued, Lost w.service job → Lost s job) :
    Good config {w.withPhase number call (.delivering entry webhook w.service.enqueued) with
      service := s
      replaying := call.deadLetterId :: w.replaying
      replays := w.replays ++ [(call.deadLetterId,w.service.enqueued)]} := by
  have known : call.deadLetterId ∈ w.appended := good.1.named number call found (by rw [reading]; rfl)
  obtain ⟨_,_,_,numbered,stored,named,resolves⟩ := good.1.rephase found (.delivering entry webhook w.service.enqueued) (fun _ => known) (by simp)
  constructor
  · refine ⟨orderly,clock,?_,numbered,stored,named,resolves⟩
    intro id job mem
    rcases mem_append.mp mem with old | new
    · exact Nat.lt_trans (good.1.issued id job old) more
    · cases mem_singleton.mp new
      exact more
  intro id
  have once := good.2 id
  rcases eq_or_ne call.deadLetterId id with rfl | foreign
  · have nobody : ∀ other phase, ¬ Under w call.deadLetterId other phase := fun other phase held => free (once.guarded other phase held)
    have gone : ∀ job, (call.deadLetterId,job) ∈ w.replays → Lost s job := by
      intro job mem
      refine lost job (good.1.issued _ job mem) ?_
      by_contra kept
      rcases once.winner job mem kept with ⟨other,_,_,under⟩ | ⟨other,_,_,under⟩ | ⟨_,closed⟩
      · exact nobody other _ under
      · exact nobody other _ under
      · rw [closed held current] at unresolved
        cases unresolved
    have fresh : ∀ job, (call.deadLetterId,job) ∈ w.replays ++ [(call.deadLetterId,w.service.enqueued)] → ¬ Lost s job →
        job = w.service.enqueued := by
      intro job mem kept
      rcases mem_append.mp mem with old | new
      · exact absurd (gone job old) kept
      · cases mem_singleton.mp new
        rfl
    have under : ∀ other phase, Under {w.withPhase number call (.delivering entry webhook w.service.enqueued) with
        service := s
        replaying := call.deadLetterId :: w.replaying
        replays := w.replays ++ [(call.deadLetterId,w.service.enqueued)]} call.deadLetterId other phase ↔
        other = number ∧ phase = .delivering entry webhook w.service.enqueued := by
      intro other _
      rw [under_set rfl]
      simp [nobody,Phase.underWay]
    refine ⟨fun _ _ _ => mem_cons_self,?_,?_,?_⟩
    · intro first second _ _ one two
      exact ((under ..).mp one).1.trans ((under ..).mp two).1.symm
    · intro job other first second kept kept'
      exact (fresh job first kept).trans (fresh other second kept').symm
    · intro job mem kept
      obtain rfl := fresh job mem kept
      exact .inl ⟨number,entry,webhook,(under ..).mpr ⟨rfl,rfl⟩⟩
  · refine once.frame (under_foreign found rfl foreign) (mem_cons_of_mem _) ?_ (fun job mem => lost job (good.1.issued id job mem))
      (fun closed => closed)
    intro _ mem
    rcases mem_append.mp mem with old | new
    · exact old
    · cases mem_singleton.mp new
      exact absurd rfl foreign

end

end

-- What a call has read is what the store still says, or the dead letter is in `replaying`.
def Current (w : World π) (call : Call π) : Prop :=
  match call.phase with
  | .read (some entry) => isResolved entry = false → call.deadLetterId ∈ w.replaying ∨ ∃ held ∈ w.letters.get call.deadLetterId, isResolved held = false
  | _ => True

-- The queue that the job of a call would go to has room for it.
def HasRoom (config : Config) (w : World π) (call : Call π) : Prop :=
  match call.phase with
  | .read (some entry) => ∀ webhook ∈ w.service.webhooks.get entry.webhookId, Roomy config w.service (w.service.objects webhook).id
  | _ => True

-- No stale read, no lost update, and no job taken from its queue while it is attempted.
def Careful (config : Config) (t : Runs.Transition (World π) (Event π)) : Prop :=
  match t.input with
  | .service event => Calm config ⟨t.before.service,event,t.after.service⟩
  | .goesOn number => ∀ call ∈ t.before.calls.get number, Current t.before call ∧ HasRoom config t.before call
  | .updateFails _ _ written => written = true
  | _ => True

instance (w : World π) (call : Call π) : Decidable (Current w call) := by
  unfold Current
  split <;> infer_instance

instance (w : World π) (call : Call π) : Decidable (HasRoom config w call) := by
  unfold HasRoom Roomy
  split <;> infer_instance

instance (t : Runs.Transition (World π) (Event π)) : Decidable (Careful config t) := by
  unfold Careful
  split <;> infer_instance

section
variable (good : Good config w)
include good

theorem goesOn_good (found : w.calls.get number = some call) {read : Option (DeadLetterEntry π)}
    (reading : call.phase = .read read) (current : Current w call) (room : HasRoom config w call) :
    Good config (afterRead config w number call read) := by
  have before : call.phase.underWay = false := by rw [reading]; rfl
  have ends : ∀ result, Good config (w.withPhase number call (.finished result)) :=
    fun _ => good_quiet good found before rfl (by simp)
  cases read with
  | none => exact ends _
  | some entry =>
    simp only [afterRead]
    split
    · exact ends _
    · rename_i unresolved
      split
      · exact ends _
      · rename_i free
        split
        · exact ends _
        · rename_i webhook registered
          simp only [Current,HasRoom,reading] at current room
          obtain ⟨_,stored,open'⟩ := (current (by simpa using unresolved)).resolve_left free
          have ran : WebhookQueue.step config w.service (.enqueue (w.service.objects webhook).id entry.payload) =
              .ok (enqueue config w.service (w.service.objects webhook).id entry.payload) := rfl
          obtain ⟨orderly,_,lost⟩ := orderly_step good.1.orderly ran (room webhook registered)
          refine good_begin good found reading free stored open' orderly ?_ ?_ lost
          · exact Int.lt_of_lt_of_le good.1.clock (step_now good.1.orderly.standing good.1.orderly.attached ran)
          · exact enqueue_issues good.1.orderly.attached

theorem service_good (served : WebhookQueue.step config w.service event = .ok s)
    (calm : Calm config ⟨w.service,event,s⟩) : Good config {w with service := s} := by
  obtain ⟨sane,once⟩ := good
  obtain ⟨orderly,more,lost⟩ := orderly_step sane.orderly served calm
  have later := step_now sane.orderly.standing sane.orderly.attached served
  refine ⟨⟨orderly,Int.lt_of_lt_of_le sane.clock later,?_,sane.numbered,sane.stored,sane.named,sane.resolves⟩,fun id => ?_⟩
  · intro id job mem
    exact Nat.lt_of_lt_of_le (sane.issued id job mem) more
  · exact (once id).frame (fun _ _ => Iff.rfl) (fun held => held) (fun _ mem => mem)
      (fun job mem => lost job (sane.issued id job mem)) (fun closed => closed)

theorem append_good (fresh : deadLetterId ∉ w.appended) :
    Good config {w with letters := w.letters.set deadLetterId entry, appended := deadLetterId :: w.appended} := by
  obtain ⟨sane,once⟩ := good
  refine ⟨⟨sane.orderly,sane.clock,sane.issued,sane.numbered,?_,?_,sane.resolves⟩,fun id => ?_⟩
  · intro id entry get
    by_cases here : id = deadLetterId
    · exact here ▸ mem_cons_self
    · exact mem_cons_of_mem _ (sane.stored id entry ((get_set_ne here).symm.trans get))
  · intro number call found some'
    exact mem_cons_of_mem _ (sane.named number call found some')
  · refine (once id).frame (fun _ _ => Iff.rfl) (fun held => held) (fun _ mem => mem) (fun _ _ gone => gone) ?_
    rintro ⟨known,closed⟩
    have ne : id ≠ deadLetterId := fun here => fresh (here ▸ known)
    exact ⟨mem_cons_of_mem _ known,fun entry get => closed entry ((get_set_ne ne).symm.trans get)⟩

theorem prune_good : Good config {w with letters := w.letters.remove deadLetterId} := by
  obtain ⟨sane,once⟩ := good
  have fewer : ∀ id entry, (w.letters.remove deadLetterId).get id = some entry → w.letters.get id = some entry :=
    fun _ _ => get_of_remove
  refine ⟨⟨sane.orderly,sane.clock,sane.issued,sane.numbered,?_,sane.named,sane.resolves⟩,fun id => ?_⟩
  · intro id entry get
    exact sane.stored id entry (fewer id entry get)
  · refine (once id).frame (fun _ _ => Iff.rfl) (fun held => held) (fun _ mem => mem) (fun _ _ gone => gone) ?_
    rintro ⟨known,closed⟩
    exact ⟨known,fun entry get => closed entry (fewer id entry get)⟩

theorem replay_good :
    Good config {w with calls := w.calls.set w.called ⟨deadLetterId,idempotencyKey,.reading⟩, called := w.called + 1} := by
  obtain ⟨sane,once⟩ := good
  have old : ∀ number call, (w.calls.set w.called ⟨deadLetterId,idempotencyKey,.reading⟩).get number = some call →
      (number = w.called ∧ call.phase = .reading) ∨ w.calls.get number = some call := by
    intro number call get
    rcases eq_or_ne number w.called with rfl | here
    · cases get_set.symm.trans get
      exact .inl ⟨rfl,rfl⟩
    · exact .inr ((get_set_ne here).symm.trans get)
  refine ⟨⟨sane.orderly,sane.clock,sane.issued,?_,sane.stored,?_,?_⟩,fun id => ?_⟩
  · intro number call get
    rcases old number call get with ⟨rfl,_⟩ | found
    · exact Nat.lt_succ_self _
    · exact Nat.lt_succ_of_lt (sane.numbered number call found)
  · intro number call get some'
    rcases old number call get with ⟨_,reading⟩ | found
    · rw [reading] at some'
      cases some'
    · exact sane.named number call found some'
  · intro number call entry resolved get updating
    rcases old number call get with ⟨_,reading⟩ | found
    · cases reading.symm.trans updating
    · exact sane.resolves number call entry resolved found updating
  · refine (once id).frame ?_ (fun held => held) (fun _ mem => mem) (fun _ _ gone => gone) (fun closed => closed)
    intro number phase
    constructor
    · rintro ⟨under,key,get⟩
      rcases old number _ get with ⟨_,reading⟩ | found
      · rw [show phase = .reading from reading] at under
        cases under
      · exact ⟨under,key,found⟩
    · rintro ⟨under,key,found⟩
      have before := sane.numbered number _ found
      exact ⟨under,key,(get_set_ne (Nat.ne_of_lt before)).trans found⟩

theorem done_good (found : w.calls.get number = some call)
    (delivering : call.phase = .delivering entry webhook job) (settled : (w.service.jobs job).settled = true) :
    Good config (afterDone w number call entry webhook job) := by
  unfold afterDone
  split
  · refine good_succeed good found delivering ?_
    have clock := good.1.clock
    simp only [isResolved,Option.any_some,decide_eq_true_eq]
    omega
  · rename_i failed
    refine good_release good found (by rw [delivering]; rfl) ?_ (by simp [delivering])
    intro _ _ _ same
    rw [delivering] at same
    cases same
    exact ⟨settled,by simpa using failed⟩

theorem step_good (ran : step config w event = .ok w') (careful : Careful config ⟨w,event,w'⟩) : Good config w' := by
  cases event with
  | service event =>
    simp only [step,bind_ok,Except.ok.injEq] at ran
    obtain ⟨s,ran,rfl⟩ := ran
    refine service_good good ?_ careful
    cases happens : WebhookQueue.step config w.service event with
    | error =>
      rw [happens] at ran
      cases ran
    | ok =>
      rw [happens] at ran
      cases ran
      rfl
  | append =>
    obtain ⟨fresh,⟨⟩⟩ := guard_ok.mp ran
    exact append_good good fresh
  | prune =>
    cases ran
    exact prune_good good
  | replay =>
    cases ran
    exact replay_good good
  | read =>
    obtain ⟨call,found,ran⟩ := lookup_ok.mp ran
    split at ran
    · rename_i reading
      cases ran
      refine good_quiet good found (by rw [reading]; rfl) rfl ?_
      intro some'
      cases stored : w.letters.get call.deadLetterId with
      | none => simp [stored] at some'
      | some entry => exact good.1.stored _ entry stored
    · cases ran
  | readFails =>
    obtain ⟨call,found,ran⟩ := lookup_ok.mp ran
    split at ran
    · rename_i reading
      cases ran
      exact good_quiet good found (by rw [reading]; rfl) rfl (by simp)
    · cases ran
  | goesOn =>
    obtain ⟨call,found,ran⟩ := lookup_ok.mp ran
    split at ran
    · rename_i read reading
      cases ran
      obtain ⟨current,room⟩ := careful call found
      exact goesOn_good good found reading current room
    · cases ran
  | done =>
    obtain ⟨call,found,ran⟩ := lookup_ok.mp ran
    split at ran
    · rename_i entry _ _ delivering
      obtain ⟨settled,⟨⟩⟩ := guard_ok.mp ran
      exact done_good good found delivering settled
    · cases ran
  | update =>
    obtain ⟨call,found,ran⟩ := lookup_ok.mp ran
    split at ran
    · rename_i entry resolved updating
      cases ran
      exact good_update good found updating none
    · cases ran
  | updateFails _ message written =>
    obtain ⟨call,found,ran⟩ := lookup_ok.mp ran
    split at ran
    · rename_i entry resolved updating
      cases ran
      rw [show written = true from careful]
      exact good_update good found updating (some message)
    · cases ran
  | finish =>
    obtain ⟨call,found,ran⟩ := lookup_ok.mp ran
    split at ran
    · rename_i entry resolved failure updated
      cases ran
      cases failure with
      | none | some message => exact good_release good found (by rw [updated]; rfl) (by simp [updated]) (by simp [updated])
    · cases ran

end

theorem success_parts (success : entry ∈ successes w id) :
    ∃ lane job, entry.2 = .ended lane job .delivered ∧ (id,job) ∈ w.replays ∧ .delivered ∈ endings (board w.service).log job := by
  obtain ⟨mem,matches'⟩ := mem_filter.mp success
  split at matches'
  · rename_i lane job happened
    refine ⟨lane,job,happened,by simpa using matches',?_⟩
    exact mem_filterMap.mpr ⟨entry.2,mem_map_of_mem mem,by simp [happened,Note.ending]⟩
  · cases matches'

theorem delivered_parts (sane : Sane config w) (mem : (id,job) ∈ w.replays) (delivered : .delivered ∈ endings (board w.service).log job) :
    ¬ Lost w.service job ∧ (endings (board w.service).log job).length = 1 := by
  obtain ⟨_,_,accounted⟩ := sane.orderly
  have gone : ∀ lane, job ∉ (board w.service).queue lane := by
    intro lane waits
    rw [(accounted.waiting lane job waits).2.2] at delivered
    cases delivered
  obtain ⟨_,_,only,succeeded,_⟩ := accounted.left job (sane.issued id job mem) gone
  rw [only] at delivered ⊢
  refine ⟨?_,rfl⟩
  rintro ⟨_,failed⟩
  have won : (w.service.jobs job).succeeded = true := succeeded.mpr (mem_singleton.mp delivered).symm
  cases won.symm.trans failed

theorem successes_single (good : Good config w) (id : String) : (successes w id).length ≤ 1 := by
  obtain ⟨sane,once⟩ := good
  rcases eq_nil_or_concat' (successes w id) with none | ⟨_,last,split⟩
  · simp [none]
  · have success : last ∈ successes w id := by simp [split]
    obtain ⟨_,job,_,listed,delivered⟩ := success_parts success
    obtain ⟨kept,ended⟩ := delivered_parts sane listed delivered
    calc (successes w id).length
      _ = w.service.history.countP _ := countP_eq_length_filter.symm
      _ ≤ w.service.history.countP (fun entry => (Note.ending job entry.2).isSome) := ?_
      _ = (endings (board w.service).log job).length := by
          rw [endings,length_filterMap_eq_countP,board,countP_map]
          rfl
      _ = 1 := ended
      _ ≤ 1 := Nat.le_refl 1
    apply countP_mono_left
    intro entry mem delivers
    obtain ⟨_,other,happened,listed',delivered'⟩ := success_parts (mem_filter.mpr ⟨mem,delivers⟩ : entry ∈ successes w id)
    have same := (once id).single other job listed' listed (delivered_parts sane listed' delivered').1 kept
    simp [happened,same,Note.ending]

section
variable [Inhabited π] {now : Int} {ts : List (Runs.Transition (World π) (Event π))}

-- At most one delivery of a dead letter by `replay` succeeds.
theorem replayed_at_most_once (path : Runs.Run (step config) (World.start now) ts w) (clock : 0 < now) (careful : ∀ t ∈ ts, Careful config t) :
    ∀ deadLetterId, (successes w deadLetterId).length ≤ 1 := by
  have good : Good config w := by
    refine path.invariant_of (P := Good config) (G := Careful config) careful ?_ ?_
    · refine ⟨⟨⟨?_,start_attached,?_⟩,clock,by simp,by simp,by simp,by simp,by simp⟩,fun _ => ?_⟩
      · rw [World.start,start_board]
        exact empty_standing (by unfold maxInFlight; omega)
      · rw [World.start,start_board]
        exact empty_accounted
      · constructor <;> simp [Under]
    · rintro ⟨_,_⟩ careful accepted good
      exact step_good good accepted careful
  exact successes_single good
end
end

namespace Sample
def config : Config := ⟨1000,60000,1,1,10,5,60000⟩

def run (events : List (Event Unit)) := Runs.replay (step config) (World.start 1) events

def first : List (Event Unit) := [.goesOn 0,.service (.attemptSettles 0 none),.done 0,.update 0,.finish 0]

def calls : List (Event Unit) := [.service (.register "w"),.append "d" "w" (),.replay "d" "k",.read 0,.replay "d" "l"]

def readsAfter : List (Event Unit) := calls ++ first ++ [.read 1,.goesOn 1]

def readsBefore : List (Event Unit) := calls ++ .read 1 :: first ++ [.goesOn 1,.service (.attemptSettles 1 none)]
end Sample

open Sample

theorem second_call_too_late : ∃ ts w, Runs.Run (step config) (World.start 1 : World Unit) ts w ∧ (successes w "d").length = 1 ∧
    (successes w "d").length ≤ 1 := by
  have observed : (run readsAfter).map (fun result =>
      (result.1.all (fun t => decide (Careful config t)),(successes result.2 "d").length)) = .ok (true,1) := by decide +kernel
  obtain ⟨ts,w,path,shown⟩ := Runs.replay_observed observed
  simp only [Prod.mk.injEq,List.all_eq_true,decide_eq_true_eq] at shown
  obtain ⟨careful,once⟩ := shown
  exact ⟨ts,w,path,once,replayed_at_most_once path (by decide) careful "d"⟩

theorem stale_read_delivers_twice : ∃ ts w, Runs.Run (step config) (World.start 1 : World Unit) ts w ∧ (successes w "d").length = 2 := by
  have observed : (run readsBefore).map (fun result => (successes result.2 "d").length) = .ok 2 := by decide +kernel
  obtain ⟨ts,w,path,twice⟩ := Runs.replay_observed observed
  exact ⟨ts,w,path,twice⟩

end StellarPriceOracle.WebhookReplay
