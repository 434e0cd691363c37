import StellarPriceOracle.Library.Breaker
import StellarPriceOracle.WebhookDispatch

namespace StellarPriceOracle.WebhookCircuit
open WebhookQueue WebhookDispatch Dispatch Guarded Breaker
open Function (update update_self update_of_ne)
open Runs (Transition Run)
open InsertionMap (get_set get_set_some get_set_ne values_set_fresh get_remove get_of_remove values_remove mem_values)
open Service

section
variable {π : Type} {config : Config} {s s' t : Service π} {w : String} {dest number webhook : Nat}

@[simp] def markOf : Note → Option Mark
  | .started _ _ _ => some .start
  | .ended _ _ .delivered => some .success
  | .ended _ _ (.exhausted _) => some .failure
  | .ended _ _ .dropped | .ended _ _ .discarded => none

@[simp] def marked (lane : Option Nat) (entry : Int × Note) : Option (Int × Mark) :=
  if lane = some entry.2.lane then (markOf entry.2).map (fun mark => (entry.1,mark)) else none

def circuitOf (registration : WebhookRegistration) : Option (Option Int) :=
  if registration.circuit = .opened then some registration.nextProbeAt else none

@[simp] def timeoutOf (lane : Option Nat) (timeout : Timeout) : Option (Bool × Int) :=
  if lane = some timeout.dest then some (decide (timeout.kind = .probe),timeout.due) else none

-- A webhook's circuit: that of the registration in the mirror, with the webhook's queue.
@[simp] def breaker (w : String) (s : Service π) : State where
  now := s.now
  opened := (s.webhooks.get w).bind (fun webhook => circuitOf (s.objects webhook))
  busy := (s.dests.get w).any (fun dest => (s.queues dest).running)
  timed := (s.dests.get w).any (fun dest => (s.queues dest).timer.isSome)
  timeouts := s.timeouts.values.filterMap (timeoutOf (s.dests.get w))
  failures := ((s.dests.get w).map (fun dest => (s.queues dest).consecutiveFailures)).getD 0
  log := s.history.filterMap (marked (s.dests.get w))

-- References are of their kind, and the webhook has no queue but that in `dests`.
structure Wired (w : String) (s : Service π) : Prop where
  queues : ∀ dest < s.opened, (s.queues dest).webhookId = w → s.dests.get w = some dest
  mirror : ∀ id webhook, s.webhooks.get id = some webhook → webhook < s.registered ∧ (s.objects webhook).id = id
  attempts : ∀ number a, s.attempts.get number = some a → a.dest < s.opened ∧ a.webhook < s.registered ∧
    (s.objects a.webhook).id = (s.queues a.dest).webhookId
  timeouts : ∀ number timeout, s.timeouts.get number = some timeout → number < s.timers ∧ timeout.dest < s.opened
  handles : ∀ dest number, (s.queues dest).timer = some number → number < s.timers ∧
    ∀ timeout, s.timeouts.get number = some timeout → timeout.dest = dest
  notes : ∀ entry ∈ s.history, entry.2.lane < s.opened

theorem Wired.less (wired : Wired w s) (webhooks : t.webhooks = s.webhooks) (registered : t.registered = s.registered)
    (ids : ∀ webhook, (t.objects webhook).id = (s.objects webhook).id) (dests : t.dests = s.dests) (opened : t.opened = s.opened)
    (queues : ∀ dest, (t.queues dest).webhookId = (s.queues dest).webhookId ∧
      ((t.queues dest).timer = (s.queues dest).timer ∨ (t.queues dest).timer = none))
    (attempts : ∀ number a, t.attempts.get number = some a → s.attempts.get number = some a)
    (timeouts : ∀ number timeout, t.timeouts.get number = some timeout → s.timeouts.get number = some timeout)
    (timers : t.timers = s.timers) (history : ∀ entry ∈ t.history, entry ∈ s.history ∨ entry.2.lane < s.opened) : Wired w t := by
  refine ⟨?_,?_,?_,?_,?_,?_⟩
  · intro dest known named
    rw [opened] at known
    rw [(queues dest).1] at named
    rw [dests]
    exact wired.queues dest known named
  · intro id webhook got
    rw [webhooks] at got
    rw [registered,ids]
    exact wired.mirror id webhook got
  · intro number a got
    rw [opened,registered,ids,(queues a.dest).1]
    exact wired.attempts number a (attempts number a got)
  · intro number timeout got
    rw [timers,opened]
    exact wired.timeouts number timeout (timeouts number timeout got)
  · intro dest number held
    rw [timers]
    rcases (queues dest).2 with same | none
    · rw [same] at held
      obtain ⟨known,own⟩ := wired.handles dest number held
      exact ⟨known,fun timeout got => own timeout (timeouts number timeout got)⟩
    · cases none.symm.trans held
  · intro entry mem
    rw [opened]
    rcases history entry mem with old | new
    · exact wired.notes entry old
    · exact new

theorem breaker_same (now : t.now = s.now) (webhooks : t.webhooks.get w = s.webhooks.get w)
    (objects : ∀ webhook, s.webhooks.get w = some webhook → circuitOf (t.objects webhook) = circuitOf (s.objects webhook))
    (dests : t.dests.get w = s.dests.get w) (queues : ∀ dest, s.dests.get w = some dest → (t.queues dest).running = (s.queues dest).running ∧
      (t.queues dest).timer = (s.queues dest).timer ∧ (t.queues dest).consecutiveFailures = (s.queues dest).consecutiveFailures)
    (timeouts : t.timeouts.values.filterMap (timeoutOf (s.dests.get w)) = s.timeouts.values.filterMap (timeoutOf (s.dests.get w)))
    (history : t.history.filterMap (marked (s.dests.get w)) = s.history.filterMap (marked (s.dests.get w))) :
    breaker w t = breaker w s := by
  unfold breaker
  rw [now,webhooks,dests,timeouts,history]
  congr 1
  · cases got : s.webhooks.get w with
    | none => rfl
    | some webhook => exact objects webhook got
  · cases got : s.dests.get w with
    | none => rfl
    | some dest => simp [(queues dest got).1]
  · cases got : s.dests.get w with
    | none => rfl
    | some dest => simp [(queues dest got).2.1]
  · cases got : s.dests.get w with
    | none => rfl
    | some dest => simp [(queues dest got).2.2]

abbrev Works (config : Config) := Acts config.circuitFailureThreshold config.circuitCooldownMs 2147483647

theorem named_update (s : Service π) (dest : Nat) (change : DestinationQueue → DestinationQueue) (named : (change (s.queues dest)).webhookId = (s.queues dest).webhookId)
    (other : Nat) : (update s.queues dest (change (s.queues dest)) other).webhookId = (s.queues other).webhookId := by
  rcases eq_or_ne other dest with rfl | here
  · rw [update_self,named]
  · rw [update_of_ne here]

section
variable (wired : Wired w s)
include wired

theorem Wired.withQueue (dest : Nat) (change : DestinationQueue → DestinationQueue)
    (named : (change (s.queues dest)).webhookId = (s.queues dest).webhookId)
    (timer : (change (s.queues dest)).timer = (s.queues dest).timer ∨ (change (s.queues dest)).timer = none) : Wired w (s.withQueue dest change) := by
  refine wired.less rfl rfl (fun _ => rfl) rfl rfl (fun other => ⟨named_update s dest change named other,?_⟩) (fun _ _ => id)
    (fun _ _ => id) rfl (fun _ => .inl)
  rcases eq_or_ne other dest with rfl | here
  · simpa using timer
  · simp [here]

theorem Wired.withObject (webhook : Nat) (change : WebhookRegistration → WebhookRegistration)
    (named : (change (s.objects webhook)).id = (s.objects webhook).id) : Wired w (s.withObject webhook change) := by
  refine wired.less rfl rfl ?_ rfl rfl (fun _ => ⟨rfl,.inl rfl⟩) (fun _ _ => id) (fun _ _ => id) rfl (fun _ => .inl)
  intro other
  by_cases here : other = webhook <;> simp [here,named]

theorem Wired.withJob (job : Nat) (change : DeliveryJob π → DeliveryJob π) : Wired w (s.withJob job change) :=
  {wired with}

theorem Wired.note (happened : Note) (known : happened.lane < s.opened) : Wired w (s.note happened) := by
  refine ⟨wired.queues,wired.mirror,wired.attempts,wired.timeouts,wired.handles,?_⟩
  intro entry mem
  rcases Runs.mem_snoc.mp mem with old | new
  · exact wired.notes entry old
  · rw [new]
    exact known

end

-- What leaves the circuit as it is does nothing to it.
theorem still (same : breaker w t = breaker w s) : Works config (breaker w s) (breaker w t) := same ▸ .refl

section
variable (wired : Wired w s)
include wired

theorem runJob_works (attached : Attached s) (ready : nextReady s = some dest) :
    Works config (breaker w s) (breaker w (runJob s dest)) ∧ Wired w (runJob s dest) := by
  obtain ⟨⟨id,got⟩,idle,untimed,⟨job,_,pending⟩,webhook,mirrored,shut⟩ := ready_parts ready
  obtain ⟨known,named⟩ := attached.opened id dest got
  rw [runJob_parts pending mirrored]
  dsimp only [Service.withQueue,Service.withJob]
  constructor
  · by_cases own : s.dests.get w = some dest
    · have same : id = w := named.symm.trans (attached.opened w dest own).2
      subst same
      have mirror : s.webhooks.get id = some webhook := named ▸ mirrored
      refine .single ?_
      convert Act.start (breaker id s) ?_ ?_ ?_ using 1
      · ext1 <;> simp [own,Note.lane]
      · simp [mirror,circuitOf,shut]
      · simp [own,idle]
      · simp [own,untimed]
    · refine still (breaker_same rfl rfl (fun _ _ => rfl) rfl ?_ rfl ?_)
      · intro other held
        have ne : other ≠ dest := fun here => own (here ▸ held)
        simp [ne]
      · simp [own,Note.lane]
  · have before := wired.withQueue dest (fun q => {q with running := true}) rfl (.inl rfl)
    refine ⟨before.queues,before.mirror,?_,before.timeouts,before.handles,?_⟩
    · intro number a held
      rcases get_set_some.mp held with ⟨rfl,rfl⟩ | ⟨_,held⟩
      · obtain ⟨kept,identified⟩ := wired.mirror _ webhook mirrored
        exact ⟨known,kept,identified.trans (named_update s dest (fun q => {q with running := true}) rfl dest).symm⟩
      · exact before.attempts number a held
    · exact (wired.note (.started dest job ((s.jobs job).attempt + 1)) known).notes

theorem setTimer_wired (known : dest < s.opened) (delayMs : Int) (kind : TimerKind) : Wired w (setTimer s dest delayMs kind) := by
  have names := named_update s dest (fun q => {q with timer := some s.timers}) rfl
  unfold setTimer
  dsimp only [Service.withQueue]
  refine ⟨?_,wired.mirror,?_,?_,?_,wired.notes⟩
  · intro other open' named
    exact wired.queues other open' ((names other).symm.trans named)
  · intro number a held
    obtain ⟨open',kept,identified⟩ := wired.attempts number a held
    exact ⟨open',kept,identified.trans (names a.dest).symm⟩
  · intro number timeout held
    rcases get_set_some.mp held with ⟨rfl,rfl⟩ | ⟨_,held⟩
    · exact ⟨Nat.lt_succ_self _,known⟩
    · obtain ⟨before,open'⟩ := wired.timeouts number timeout held
      exact ⟨Nat.lt_succ_of_lt before,open'⟩
  · intro other number held
    dsimp only at held ⊢
    rcases eq_or_ne other dest with rfl | here
    · rw [update_self] at held
      cases held
      refine ⟨Nat.lt_succ_self _,?_⟩
      intro timeout got
      cases get_set.symm.trans got
      rfl
    · rw [update_of_ne here] at held
      obtain ⟨before,own⟩ := wired.handles other number held
      refine ⟨Nat.lt_succ_of_lt before,?_⟩
      intro timeout got
      rw [get_set_ne (Nat.ne_of_lt before)] at got
      exact own timeout got

theorem Wired.unset : s.timeouts.get s.timers = none := by
  cases held : s.timeouts.get s.timers with
  | none => rfl
  | some timeout => exact absurd (wired.timeouts _ timeout held).1 (Nat.lt_irrefl _)

theorem setTimer_own (own : s.dests.get w = some dest) : breaker w (setTimer s dest delayMs kind) = {breaker w s with
      timed := true
      timeouts := (breaker w s).timeouts ++ [(decide (kind = .probe),s.now + timeoutMs delayMs)]} := by
  ext1 <;> simp [setTimer,own,values_set_fresh wired.unset]

theorem setTimer_other (other : s.dests.get w ≠ some dest) : breaker w (setTimer s dest delayMs kind) = breaker w s := by
  refine breaker_same rfl rfl (fun _ _ => rfl) rfl ?_ ?_ rfl
  · intro lane held
    have ne : lane ≠ dest := fun here => other (here ▸ held)
    simp [setTimer,ne]
  · simp [setTimer,values_set_fresh wired.unset,other]

theorem armProbe_works (attached : Attached s) (known : dest < s.opened) :
    Works config (breaker w s) (breaker w (armProbe s dest)) ∧ Wired w (armProbe s dest) := by
  unfold armProbe
  split
  · rename_i untimed
    rw [Option.isNone_iff_eq_none] at untimed
    split
    · rename_i webhook mirrored
      split
      · rename_i opened
        refine ⟨?_,setTimer_wired wired known ..⟩
        by_cases own : s.dests.get w = some dest
        · rw [setTimer_own wired own]
          have mirror : s.webhooks.get w = some webhook := (attached.opened w dest own).2 ▸ mirrored
          refine .single (.arm _ (s.objects webhook).nextProbeAt ?_ ?_)
          · simp [mirror,circuitOf,opened.1]
          · simp [own,untimed]
        · exact still (setTimer_other wired own)
      · exact ⟨.refl,wired⟩
    · exact ⟨.refl,wired⟩
  · exact ⟨.refl,wired⟩

theorem Wired.apart {id other : String} (got : s.webhooks.get id = some first)
    (held : s.webhooks.get other = some second) (ne : id ≠ other) : first ≠ second := by
  rintro rfl
  exact ne ((wired.mirror id first got).2.symm.trans (wired.mirror other first held).2)

end

theorem probe_own (attached : Attached s) (own : s.dests.get w = some dest) : breaker w (probe s dest) = {breaker w s with opened := none} := by
  have named := (attached.opened w dest own).2
  unfold probe
  split
  · rename_i webhook mirrored
    have mirror : s.webhooks.get w = some webhook := named ▸ mirrored
    split
    · simp [mirror,circuitOf]
    · rename_i shut
      simp [mirror,circuitOf,shut]
  · rename_i absent
    have mirror : s.webhooks.get w = none := named ▸ absent
    simp [mirror]

theorem probe_other (wired : Wired w s) (other : (s.queues dest).webhookId ≠ w) : breaker w (probe s dest) = breaker w s := by
  unfold probe
  split
  · rename_i _ mirrored
    split
    · refine breaker_same rfl rfl ?_ rfl (fun _ _ => ⟨rfl,rfl,rfl⟩) rfl rfl
      intro _ held
      simp [update_of_ne (wired.apart held mirrored other.symm)]
    · rfl
  · rfl

theorem probe_wired (wired : Wired w s) : Wired w (probe s dest) := by
  unfold probe
  split
  · split
    · exact wired.withObject _ _ rfl
    · exact wired
  · exact wired

@[simp] def cleared (s : Service π) (number : Nat) (dest : Nat) : Service π :=
  {s.withQueue dest (fun q => {q with timer := none}) with timeouts := s.timeouts.remove number}

theorem cleared_wired (wired : Wired w s) (number dest : Nat) : Wired w (cleared s number dest) := by
  refine wired.less rfl rfl (fun _ => rfl) rfl rfl ?_ (fun _ _ => id) (fun _ _ => get_of_remove) rfl
    (fun _ => .inl)
  intro other
  by_cases here : other = dest <;> simp [here]

theorem cleared_own (got : s.timeouts.get number = some timeout) (own : s.dests.get w = some timeout.dest) :
    ∃ before after, (breaker w s).timeouts = before ++ (decide (timeout.kind = .probe),timeout.due) :: after ∧
      breaker w (cleared s number timeout.dest) = {breaker w s with timed := false, timeouts := before ++ after} := by
  obtain ⟨before,after,values,rest⟩ := values_remove got
  refine ⟨before.filterMap (timeoutOf (some timeout.dest)),after.filterMap (timeoutOf (some timeout.dest)),?_,?_⟩
  · simp [own,values]
  · ext1 <;> simp [own,rest]

theorem cleared_other (got : s.timeouts.get number = some timeout) (other : s.dests.get w ≠ some timeout.dest) :
    breaker w (cleared s number timeout.dest) = breaker w s := by
  obtain ⟨_,_,values,rest⟩ := values_remove got
  refine breaker_same rfl rfl (fun _ _ => rfl) rfl ?_ ?_ rfl
  · intro lane held
    have ne : lane ≠ timeout.dest := fun here => other (here ▸ held)
    simp [ne]
  · simp [values,rest,other]

theorem expire_works (config : Config) (wired : Wired w s) (attached : Attached s)
    (got : s.timeouts.get number = some timeout) (ripe : timeout.due ≤ s.now) :
    Works config (breaker w s) (breaker w (expire s number timeout)) ∧ Wired w (expire s number timeout) := by
  have clear := cleared_wired wired number timeout.dest
  have attachedNow : Attached (cleared s number timeout.dest) := by
    refine attached.less rfl rfl (fun _ _ => id) rfl rfl (fun _ => rfl) (fun other => ?_)
    by_cases here : other = timeout.dest <;> simp [here]
  have fires : expire s number timeout =
      if timeout.kind = .probe then probe (cleared s number timeout.dest) timeout.dest else cleared s number timeout.dest := by
    unfold expire
    cases timeout.kind <;> rfl
  rw [fires]
  by_cases own : s.dests.get w = some timeout.dest
  · obtain ⟨before,after,live,gone⟩ := cleared_own got own
    have fire : Works config _ _ := .single (.fire (breaker w s) _ _ before after live ripe)
    split
    · rename_i kind
      rw [probe_own attachedNow own,gone]
      simp only [kind,decide_true,if_true] at fire
      exact ⟨fire,probe_wired clear⟩
    · rename_i kind
      simp only [kind,decide_false,Bool.false_eq_true,if_false] at fire
      rw [gone]
      exact ⟨fire,clear⟩
  · have gone := cleared_other got own
    split
    · have named : ((cleared s number timeout.dest).queues timeout.dest).webhookId ≠ w := by
        intro mine
        exact own (clear.queues timeout.dest (wired.timeouts number timeout got).2 mine)
      rw [probe_other clear named,gone]
      exact ⟨.refl,probe_wired clear⟩
    · rw [gone]
      exact ⟨.refl,clear⟩

section
variable (wired : Wired w s)
include wired

theorem destination_same (attached : Attached s) : breaker w (destination s webhookId).1 = breaker w s := by
  unfold destination
  split
  · rfl
  · rename_i absent
    rcases eq_or_ne webhookId w with rfl | mine
    · have timeouts : s.timeouts.values.filterMap (timeoutOf (some s.opened)) = s.timeouts.values.filterMap (timeoutOf none) := by
        apply List.filterMap_congr
        intro timeout mem
        obtain ⟨number,got⟩ := mem_values.mp mem
        have before := (wired.timeouts number timeout got).2
        simp [Nat.ne_of_gt before]
      have history : s.history.filterMap (marked (some s.opened)) = s.history.filterMap (marked none) := by
        apply List.filterMap_congr
        intro entry mem
        simp [Nat.ne_of_gt (wired.notes entry mem)]
      ext1 <;> simp [absent,timeouts,history]
    · refine breaker_same rfl rfl (fun _ _ => rfl) (get_set_ne (Ne.symm mine)) ?_ rfl rfl
      intro dest held
      simp [update_of_ne (Nat.ne_of_lt (attached.opened w dest held).1)]

theorem destination_wired : Wired w (destination s webhookId).1 := by
  unfold destination
  split
  · exact wired
  · rename_i absent
    have old : ∀ dest < s.opened, update s.queues s.opened ⟨webhookId,[],false,none,0⟩ dest = s.queues dest :=
      fun dest known => update_of_ne (Nat.ne_of_lt known) ..
    refine ⟨?_,wired.mirror,?_,?_,?_,?_⟩
    · intro dest known named
      dsimp only at known named ⊢
      rcases eq_or_ne dest s.opened with rfl | new
      · rw [update_self] at named
        rw [← named,get_set]
      · have before : dest < s.opened := by omega
        rw [old dest before] at named
        have held := wired.queues dest before named
        have ne : w ≠ webhookId := by
          rintro rfl
          cases absent.symm.trans held
        rw [get_set_ne ne]
        exact held
    · intro number a got
      obtain ⟨known,kept,identified⟩ := wired.attempts number a got
      refine ⟨Nat.lt_succ_of_lt known,kept,?_⟩
      dsimp only
      rw [old a.dest known]
      exact identified
    · intro number timeout got
      obtain ⟨before,known⟩ := wired.timeouts number timeout got
      exact ⟨before,Nat.lt_succ_of_lt known⟩
    · intro dest number held
      dsimp only at held ⊢
      rcases eq_or_ne dest s.opened with rfl | new
      · rw [update_self] at held
        cases held
      · rw [update_of_ne new] at held
        exact wired.handles dest number held
    · intro entry mem
      exact Nat.lt_succ_of_lt (wired.notes entry mem)

theorem dropOldest_still (known : dest < s.opened) : breaker w (dropOldest s dest) = breaker w s ∧ Wired w (dropOldest s dest) := by
  unfold dropOldest
  split
  · exact ⟨rfl,wired⟩
  · rename_i job _ _
    refine ⟨breaker_same rfl rfl (fun _ _ => rfl) rfl ?_ rfl ?_,((wired.withQueue dest _ rfl (.inl rfl)).withJob job _).note _ known⟩
    · intro other _
      by_cases here : other = dest <;> simp [here]
    · simp

theorem pushJob_still : breaker w (pushJob s webhookId payload dest) = breaker w s ∧ Wired w (pushJob s webhookId payload dest) := by
  constructor
  · refine breaker_same rfl rfl (fun _ _ => rfl) rfl ?_ rfl rfl
    intro other _
    by_cases here : other = dest <;> simp [pushJob,here]
  · obtain ⟨queues,mirror,attempts,timeouts,handles,notes⟩ := wired.withQueue dest (fun q => {q with pending := q.pending ++ [s.enqueued]}) rfl (.inl rfl)
    exact ⟨queues,mirror,attempts,timeouts,handles,notes⟩

theorem attemptOnce_still (webhook : Nat) (failure : Option String) :
    breaker w (attemptOnce s webhook failure) = breaker w s ∧ Wired w (attemptOnce s webhook failure) := by
  have same (change : WebhookRegistration → WebhookRegistration) (kept : ∀ r, circuitOf (change r) = circuitOf r) :
      breaker w (s.withObject webhook change) = breaker w s := by
    refine breaker_same rfl rfl ?_ rfl (fun _ _ => ⟨rfl,rfl,rfl⟩) rfl rfl
    intro other _
    by_cases here : other = webhook <;> simp [here,kept]
  cases failure <;> (rw [attemptOnce]; exact ⟨same _ (fun _ => rfl),wired.withObject webhook _ rfl⟩)

end

theorem landed_same : breaker w (landed s number) = breaker w s := rfl

theorem landed_wired (wired : Wired w s) : Wired w (landed s number) :=
  ⟨wired.queues,wired.mirror,fun other a held => wired.attempts other a (get_of_remove held),wired.timeouts,wired.handles,wired.notes⟩

-- An attempt's queue is that of its webhook and still busy with it.
structure Landing (s : Service π) (a : Attempt) : Prop where
  known : a.dest < s.opened
  identified : (s.objects a.webhook).id = (s.queues a.dest).webhookId
  running : (s.queues a.dest).running = true

theorem elsewhere_same (wired : Wired w s) (landing : Landing s a) (other : s.dests.get w ≠ some a.dest) (now : t.now = s.now)
    (webhooks : t.webhooks = s.webhooks) (objects : ∀ webhook, webhook ≠ a.webhook → t.objects webhook = s.objects webhook)
    (dests : t.dests = s.dests) (queues : ∀ dest, dest ≠ a.dest → t.queues dest = s.queues dest) (timeouts : t.timeouts = s.timeouts)
    (history : t.history = s.history ∨ ∃ outcome, t.history = s.history ++ [(s.now,.ended a.dest a.job outcome)]) :
    breaker w t = breaker w s := by
  refine breaker_same now (by rw [webhooks]) ?_ (by rw [dests]) ?_ (by rw [timeouts]) ?_
  · intro webhook got
    have ne : webhook ≠ a.webhook := by
      rintro rfl
      have named := landing.identified
      rw [(wired.mirror w a.webhook got).2] at named
      exact other (wired.queues a.dest landing.known named.symm)
    rw [objects webhook ne]
  · intro dest got
    have ne : dest ≠ a.dest := fun here => other (here ▸ got)
    rw [queues dest ne]
    exact ⟨rfl,rfl,rfl⟩
  · rcases history with same | ⟨outcome,more⟩
    · rw [same]
    · rw [more]
      simp [Note.lane,other]

theorem stopRunning_own (own : s.dests.get w = some dest) : breaker w (stopRunning s dest) = {breaker w s with busy := false} := by
  ext1 <;> simp [stopRunning,own]

theorem stopRunning_wired (wired : Wired w s) (dest : Nat) : Wired w (stopRunning s dest) := by
  obtain ⟨queues,mirror,attempts,timeouts,handles,notes⟩ := wired.withQueue dest (fun q => {q with running := false}) rfl (.inl rfl)
  exact ⟨queues,mirror,attempts,timeouts,handles,notes⟩

theorem succeed_works (wired : Wired w s) (landing : Landing s a) :
    Works config (breaker w s) (breaker w (stopRunning (succeed s a) a.dest)) ∧ Wired w (stopRunning (succeed s a) a.dest) := by
  constructor
  · by_cases own : s.dests.get w = some a.dest
    · rw [stopRunning_own (s := succeed s a) own]
      refine .single ?_
      convert Act.succeed (breaker w s) (decide (s.webhooks.get w = some a.webhook)) ?_ using 1
      · ext1
        · rfl
        · cases got : s.webhooks.get w with
          | none => simp [succeed,got]
          | some webhook => by_cases here : webhook = a.webhook <;> simp [succeed,got,here,circuitOf]
        all_goals simp [succeed,own,Note.lane]
      · simp [own,landing.running]
    · refine still (elsewhere_same wired landing own rfl rfl ?_ rfl ?_ rfl (.inr ⟨_,rfl⟩))
      · intro _ ne
        simp [stopRunning,succeed,ne]
      · intro _ ne
        simp [stopRunning,succeed,ne]
  · have ended : Wired w (succeed s a) :=
      ((((wired.withQueue a.dest _ rfl (.inl rfl)).withObject a.webhook _ rfl).withJob a.job _).withJob a.job _).note _ landing.known
    exact stopRunning_wired ended a.dest

theorem retry_works (config : Config) (wired : Wired w s) (landing : Landing s a) (delayMs : Int) :
    Works config (breaker w s) (breaker w (setTimer (stopRunning s a.dest) a.dest delayMs .retry)) ∧
    Wired w (setTimer (stopRunning s a.dest) a.dest delayMs .retry) := by
  have stopped := stopRunning_wired wired a.dest
  refine ⟨?_,setTimer_wired stopped landing.known ..⟩
  by_cases own : s.dests.get w = some a.dest
  · rw [setTimer_own stopped own,stopRunning_own own]
    exact .single (.retry _ _ (by simp [own,landing.running]))
  · rw [setTimer_other stopped own]
    refine still (elsewhere_same wired landing own rfl rfl (fun _ _ => rfl) rfl ?_ rfl (.inl rfl))
    intro _ ne
    simp [stopRunning,ne]

-- The registration on which a job's last failure opens the circuit is the one in the mirror.
def InMirror (config : Config) (w : String) (s : Service π) (a : Attempt) : Prop :=
  (s.queues a.dest).webhookId = w → config.maxRetries ≤ a.attempt →
    config.circuitFailureThreshold ≤ (s.queues a.dest).consecutiveFailures + 1 → s.webhooks.get w = some a.webhook

instance (s : Service π) (a : Attempt) : Decidable (InMirror config w s a) := inferInstanceAs (Decidable (_ → _ → _ → _))

theorem exhausted_own (own : s.dests.get w = some a.dest) : breaker w (exhausted s a) = {breaker w s with
    failures := (breaker w s).failures + 1, log := (breaker w s).log ++ [(s.now,.failure)]} := by
  ext1
  · rfl
  · cases got : s.webhooks.get w with
    | none => simp [exhausted,got]
    | some webhook => by_cases here : webhook = a.webhook <;> simp [exhausted,got,here,circuitOf]
  all_goals simp [exhausted,own,Note.lane]

theorem exhausted_wired (wired : Wired w s) (landing : Landing s a) : Wired w (exhausted s a) :=
  (((wired.withQueue a.dest _ rfl (.inl rfl)).withObject a.webhook _ rfl).withJob a.job _).note _ landing.known

theorem openCircuit_wired (wired : Wired w s) : Wired w (openCircuit config s a) := by
  unfold openCircuit
  split
  · exact wired.withObject a.webhook _ rfl
  · exact wired

theorem openCircuit_trips (shut : (breaker w s).opened = none)
    (current : config.circuitFailureThreshold ≤ (s.queues a.dest).consecutiveFailures → s.webhooks.get w = some a.webhook) :
    breaker w (openCircuit config s a) = {breaker w s with
      opened := if config.circuitFailureThreshold ≤ (s.queues a.dest).consecutiveFailures
        then some (some (s.now + config.circuitCooldownMs)) else none} := by
  unfold openCircuit
  by_cases many : config.circuitFailureThreshold ≤ (s.queues a.dest).consecutiveFailures
  · have mirror := current many
    have closed : (s.objects a.webhook).circuit ≠ .opened := by
      intro opened
      simp [mirror,circuitOf,opened] at shut
    rw [if_pos ⟨many,closed⟩,if_pos many]
    ext1 <;> simp [mirror,circuitOf]
  · rw [if_neg (fun both => many both.1),if_neg many]
    ext1
    · rfl
    · exact shut
    all_goals rfl

section
variable (wired : Wired w s)
include wired

theorem giveUp_works (attached : Attached s) (landing : Landing s a) (last : config.maxRetries ≤ a.attempt)
    (shut : (breaker w s).busy = true → (breaker w s).opened = none) (current : InMirror config w s a) :
    Works config (breaker w s) (breaker w (stopRunning (giveUp config s a) a.dest)) := by
  rw [giveUp_parts]
  by_cases own : s.dests.get w = some a.dest
  · have flying : (breaker w s).busy = true := by simp [own,landing.running]
    have failures : ((exhausted s a).queues a.dest).consecutiveFailures = (s.queues a.dest).consecutiveFailures + 1 := by simp [exhausted]
    have counted : (breaker w s).failures = (s.queues a.dest).consecutiveFailures := by simp [own]
    have opened : (breaker w (exhausted s a)).opened = none := by
      rw [exhausted_own own]
      exact shut flying
    have dests : (openCircuit config (exhausted s a) a).dests.get w = some a.dest := by
      rw [(openCircuit_alike).dests]
      exact own
    rw [stopRunning_own dests,openCircuit_trips opened,exhausted_own own]
    · refine .single ?_
      rw [failures]
      split
      · rename_i many
        exact .trip _ flying (by rw [counted]; exact_mod_cast many)
      · rename_i few
        rw [← shut flying]
        exact .fail _ flying (by rw [counted]; omega)
    · intro many
      rw [failures] at many
      exact current (attached.opened w a.dest own).2 last (by exact_mod_cast many)
  · refine still ?_
    unfold openCircuit
    split
    all_goals
      refine elsewhere_same wired landing own rfl rfl ?_ rfl ?_ rfl (.inr ⟨_,rfl⟩)
      · intro _ ne
        simp [stopRunning,exhausted,ne]
      · intro _ ne
        simp [stopRunning,exhausted,ne]

theorem giveUp_wired (landing : Landing s a) : Wired w (stopRunning (giveUp config s a) a.dest) :=
  stopRunning_wired (openCircuit_wired (exhausted_wired wired landing)) a.dest

theorem dropDestination_still (attached : Attached s) {id : String} (other : id ≠ w) :
    breaker w (dropDestination s id) = breaker w s ∧ Wired w (dropDestination s id) := by
  unfold dropDestination
  split
  · exact ⟨rfl,wired⟩
  · rename_i dest got
    obtain ⟨known,named⟩ := attached.opened id dest got
    have elsewhere : s.dests.get w ≠ some dest := by
      intro held
      exact other (named.symm.trans (attached.opened w dest held).2)
    have kept : (s.dests.remove id).get w = s.dests.get w := by
      rw [get_remove,if_neg (Ne.symm other)]
    constructor
    · refine breaker_same rfl rfl (fun _ _ => rfl) kept (fun _ _ => ⟨rfl,rfl,rfl⟩) ?_ ?_
      · dsimp only
        split
        · rename_i timer held
          apply InsertionMap.filterMap_remove
          intro timeout live
          rw [timeoutOf,(wired.handles dest timer held).2 timeout live,if_neg elsewhere]
        · rfl
      · simp [Function.comp_def]
    · refine ⟨?_,wired.mirror,wired.attempts,?_,?_,?_⟩
      · intro lane open' own
        exact kept.trans (wired.queues lane open' own)
      · intro number timeout held
        dsimp only at held
        split at held
        · exact wired.timeouts number timeout (get_of_remove held)
        · exact wired.timeouts number timeout held
      · intro lane number held
        obtain ⟨before,own⟩ := wired.handles lane number held
        refine ⟨before,?_⟩
        intro timeout live
        dsimp only at live
        split at live
        · exact own timeout (get_of_remove live)
        · exact own timeout live
      · intro entry mem
        rcases List.mem_append.mp mem with old | new
        · exact wired.notes entry old
        · obtain ⟨_,_,rfl⟩ := List.mem_map.mp new
          exact known

theorem remove_still (attached : Attached s) {id : String} (other : id ≠ w) :
    breaker w (remove s id) = breaker w s ∧ Wired w (remove s id) := by
  unfold remove
  split
  · exact ⟨rfl,wired⟩
  · have kept : (s.webhooks.remove id).get w = s.webhooks.get w := by
      rw [get_remove,if_neg (Ne.symm other)]
    have same : breaker w {s with webhooks := s.webhooks.remove id} = breaker w s :=
      breaker_same rfl kept (fun _ _ => rfl) rfl (fun _ _ => ⟨rfl,rfl,rfl⟩) rfl rfl
    rw [← same]
    refine dropDestination_still (s := {s with webhooks := s.webhooks.remove id}) ⟨wired.queues,?_,wired.attempts,wired.timeouts,wired.handles,wired.notes⟩
      {attached with} other
    intro key webhook got
    exact wired.mirror key webhook (get_of_remove got)

end

structure Merging (w : String) (s next : Service π) : Prop where
  registered : s.registered ≤ next.registered
  objects : ∀ webhook < s.registered, next.objects webhook = s.objects webhook
  mirror : ∀ id webhook, next.webhooks.get id = some webhook → webhook < next.registered ∧ (next.objects webhook).id = id
  circuit : ∀ webhook, next.webhooks.get w = some webhook → circuitOf (next.objects webhook) = (s.webhooks.get w).bind (fun old => circuitOf (s.objects old))

theorem mergeInto_merging (merging : Merging w s next) : Merging w s (mergeInto s next record) := by
  obtain ⟨registered,objects,mirror,circuit⟩ := merging
  unfold mergeInto
  refine ⟨Nat.le_succ_of_le registered,?_,?_,?_⟩
  · intro webhook old
    dsimp only
    rw [update_of_ne (by omega)]
    exact objects webhook old
  · intro id webhook got
    dsimp only at got ⊢
    rcases get_set_some.mp got with ⟨rfl,rfl⟩ | ⟨_,got⟩
    · exact ⟨Nat.lt_succ_self _,by simp [mergeRecord]⟩
    · obtain ⟨known,identified⟩ := mirror id webhook got
      rw [update_of_ne (Nat.ne_of_lt known)]
      exact ⟨Nat.lt_succ_of_lt known,identified⟩
  · intro webhook got
    dsimp only at got ⊢
    rcases get_set_some.mp got with ⟨rfl,rfl⟩ | ⟨_,got⟩
    · rw [update_self]
      cases held : s.webhooks.get record.id <;> simp [mergeRecord,existing,held,circuitOf]
    · rw [update_of_ne (Nat.ne_of_lt (mirror w webhook got).1)]
      exact circuit webhook got

theorem mergeIntoMirror_merging (s : Service π) (records : List StoredRegistration) : Merging w s (mergeIntoMirror s records) := by
  have folded : ∀ next, Merging w s next → Merging w s (records.foldl (mergeInto s) next) := by
    induction records with
    | nil => exact fun _ merging => merging
    | cons _ _ ih => exact fun _ merging => ih _ (mergeInto_merging merging)
  refine folded _ ⟨Nat.le_refl _,fun _ _ => rfl,?_,?_⟩
  · intro _ webhook got
    cases got
  · intro _ got
    cases got

theorem mergeInto_has (s next : Service π) (records : List StoredRegistration)
    (held : next.webhooks.get w ≠ none ∨ ∃ record ∈ records, record.id = w) : (records.foldl (mergeInto s) next).webhooks.get w ≠ none := by
  induction records generalizing next with
  | nil => simpa using held
  | cons record _ ih =>
    apply ih
    by_cases here : record.id = w
    · exact .inl (by simp [mergeInto,here])
    · rcases held with old | ⟨other,mem,same⟩
      · left
        rw [mergeInto,get_set_ne (Ne.symm here)]
        exact old
      · rcases List.mem_cons.mp mem with rfl | later
        · exact absurd same here
        · exact .inr ⟨other,later,same⟩

theorem merge_still (stays : s.webhooks.get w ≠ none → ∃ record ∈ records, record.id = w) :
    breaker w (mergeIntoMirror s records) = breaker w s := by
  have merging := mergeIntoMirror_merging (w := w) s records
  have has : s.webhooks.get w ≠ none → (mergeIntoMirror s records).webhooks.get w ≠ none := fun mem => mergeInto_has s {s with webhooks := .empty} records (.inr (stays mem))
  obtain ⟨objects,_,webhooks,parts⟩ := mergeIntoMirror_parts
  rw [parts] at merging has ⊢
  have opened : (webhooks.get w).bind (fun webhook => circuitOf (objects webhook)) =
      (s.webhooks.get w).bind (fun webhook => circuitOf (s.objects webhook)) := by
    cases got : webhooks.get w with
    | some webhook => exact merging.circuit webhook got
    | none =>
      have absent : s.webhooks.get w = none := by
        by_contra mem
        exact has mem got
      simp [absent]
  unfold breaker
  rw [opened]

theorem merge_wired (wired : Wired w s) : Wired w (mergeIntoMirror s records) := by
  have merging := mergeIntoMirror_merging (w := w) s records
  obtain ⟨_,_,_,parts⟩ := mergeIntoMirror_parts
  rw [parts] at merging ⊢
  refine ⟨wired.queues,merging.mirror,?_,wired.timeouts,wired.handles,wired.notes⟩
  intro number a got
  obtain ⟨known,kept,identified⟩ := wired.attempts number a got
  refine ⟨known,Nat.lt_of_lt_of_le kept merging.registered,?_⟩
  rw [merging.objects a.webhook kept]
  exact identified

theorem register_still {id : String} (wired : Wired w s) (registers : register s id = .ok s') : breaker w s' = breaker w s ∧ Wired w s' := by
  obtain ⟨fresh,⟨⟩⟩ := guard_ok.mp registers
  constructor
  · rcases eq_or_ne w id with rfl | mine
    · simp [fresh,circuitOf]
    · refine breaker_same rfl (get_set_ne mine) ?_ rfl (fun _ _ => ⟨rfl,rfl,rfl⟩) rfl rfl
      intro webhook got
      simp [update_of_ne (Nat.ne_of_lt (wired.mirror w webhook got).1)]
  · refine ⟨wired.queues,?_,?_,wired.timeouts,wired.handles,wired.notes⟩
    · intro key webhook got
      dsimp only at got ⊢
      rcases get_set_some.mp got with ⟨rfl,rfl⟩ | ⟨_,got⟩
      · exact ⟨Nat.lt_succ_self _,by simp⟩
      · obtain ⟨known,identified⟩ := wired.mirror key webhook got
        rw [update_of_ne (Nat.ne_of_lt known)]
        exact ⟨Nat.lt_succ_of_lt known,identified⟩
    · intro number a got
      obtain ⟨known,kept,identified⟩ := wired.attempts number a got
      refine ⟨known,Nat.lt_succ_of_lt kept,?_⟩
      dsimp only
      rw [update_of_ne (Nat.ne_of_lt kept)]
      exact identified

def Stays (w : String) (t : Transition (Service π) (Event π)) : Prop :=
  match t.input with
  | .remove id => id ≠ w
  | .merge records => t.before.webhooks.get w ≠ none → ∃ record ∈ records, record.id = w
  | _ => True

-- No attempt that opens the circuit holds a registration that has been replaced.
def Undisturbed (config : Config) (w : String) (t : Transition (Service π) (Event π)) : Prop :=
  match t.input with
  | .attemptSettles number (some _) => ∀ a ∈ t.before.attempts.get number, InMirror config w t.before a
  | _ => True

instance (t : Transition (Service π) (Event π)) : Decidable (Stays w t) := by
  obtain ⟨before,event,after⟩ := t
  cases event with
  | remove id => exact inferInstanceAs (Decidable (id ≠ w))
  | merge records => exact inferInstanceAs (Decidable (before.webhooks.get w ≠ none → ∃ record ∈ records, record.id = w))
  | _ => exact .isTrue trivial

instance (t : Transition (Service π) (Event π)) : Decidable (Undisturbed config w t) := by
  obtain ⟨before,event,after⟩ := t
  cases event with
  | attemptSettles number failure =>
    cases failure with
    | none => exact .isTrue trivial
    | some message => exact inferInstanceAs (Decidable (∀ a ∈ before.attempts.get number, InMirror config w before a))
  | _ => exact .isTrue trivial

theorem Wired.landing (wired : Wired w s) (attached : Attached s) (standing : Standing (maxInFlight config) (limit config) (board s))
    (got : s.attempts.get number = some a) : Landing (landed s number) a := by
  obtain ⟨known,_,identified⟩ := wired.attempts number a got
  exact ⟨known,identified,(attached.aloft standing got).1⟩

theorem part_works (part : Part config origin event s s') (wired : Wired w s) (attached : Attached s)
    (standing : Standing (maxInFlight config) (limit config) (board s)) (kept : event ≠ .remove w) :
    (((breaker w s).busy = true → (breaker w s).opened = none) → Stays w ⟨origin,event,t⟩ → Undisturbed config w ⟨origin,event,t⟩ →
      Works config (breaker w s) (breaker w s')) ∧ Wired w s' := by
  cases part with
  | start ready =>
    obtain ⟨works,after⟩ := runJob_works wired attached ready
    exact ⟨fun _ _ _ => works,after⟩
  | arm known =>
    obtain ⟨works,after⟩ := armProbe_works wired attached known
    exact ⟨fun _ _ _ => works,after⟩
  | opens => exact ⟨fun _ _ _ => still (destination_same wired attached),destination_wired wired⟩
  | drop got =>
    obtain ⟨same,after⟩ := dropOldest_still wired (attached.opened _ _ got).1
    exact ⟨fun _ _ _ => still same,after⟩
  | push =>
    obtain ⟨same,after⟩ := pushJob_still wired
    exact ⟨fun _ _ _ => still same,after⟩
  | answer webhook =>
    obtain ⟨same,after⟩ := attemptOnce_still wired webhook _
    exact ⟨fun _ _ _ => still same,after⟩
  | succeed got =>
    obtain ⟨works,after⟩ := succeed_works (landed_wired wired) (wired.landing attached standing got)
    exact ⟨fun _ _ _ => works,after⟩
  | retry got =>
    obtain ⟨works,after⟩ := retry_works config (landed_wired wired) (wired.landing attached standing got) _
    exact ⟨fun _ _ _ => works,after⟩
  | @giveUp number message _ a got last same =>
    have landing := wired.landing attached standing got
    refine ⟨fun shut _ undisturbed => ?_,giveUp_wired (landed_wired wired) landing⟩
    rw [← landed_same] at shut ⊢
    refine giveUp_works (landed_wired wired) (attached.landed number) landing (Int.not_lt.mp last) shut ?_
    obtain ⟨attempts,queues,webhooks⟩ := same
    have current := undisturbed a (attempts ▸ got)
    unfold InMirror at current ⊢
    rwa [← queues,← webhooks] at current
  | expire got due =>
    obtain ⟨works,after⟩ := expire_works config wired attached got due
    exact ⟨fun _ _ _ => works,after⟩
  | remove =>
    obtain ⟨same,after⟩ := remove_still wired attached (fun here => kept (congrArg _ here))
    exact ⟨fun _ _ _ => still same,after⟩
  | merge => exact ⟨fun _ stays _ => still (merge_still stays),merge_wired wired⟩
  | register registers =>
    obtain ⟨same,after⟩ := register_still wired registers
    exact ⟨fun _ _ _ => still same,after⟩
  | wait => exact ⟨fun _ _ _ => .single (.wait _ _ (Int.natCast_nonneg _)),{wired with}⟩

def deliveries (s : Service π) (w : String) : Log := s.history.filterMap (fun entry =>
  if (s.queues entry.2.lane).webhookId = w then (markOf entry.2).map (fun mark => (entry.1,mark)) else none)

theorem deliveries_log (wired : Wired w s) (attached : Attached s) : deliveries s w = (breaker w s).log := by
  apply List.filterMap_congr
  intro entry mem
  refine if_congr ⟨wired.queues _ (wired.notes entry mem),?_⟩ rfl rfl
  intro own
  exact (attached.opened w _ own).2

section
variable [Inhabited π] {now : Int} {ts : List (Transition (Service π) (Event π))}

theorem start_wired : Wired w (start now : Service π) := by
  constructor <;> simp [start,unopened]

theorem runs_wired (path : Run (step config) (start now) ts s) (kept : ∀ t ∈ ts, t.input ≠ .remove w) : Wired w s :=
  runs_kept path kept start_wired (fun origin _ _ _ _ kept part standing attached wired => (part_works (t := origin) part wired attached standing kept).2)

theorem runs_sound (path : Run (step config) (start now) ts s) (stays : ∀ t ∈ ts, Stays w t)
    (undisturbed : ∀ t ∈ ts, Undisturbed config w t) (within : config.circuitCooldownMs ≤ 2147483647) :
    Sound config.circuitFailureThreshold config.circuitCooldownMs (breaker w s) ∧ Wired w s := by
  refine runs_kept (I := fun s => Sound config.circuitFailureThreshold config.circuitCooldownMs (breaker w s) ∧ Wired w s)
    (G := fun t => Stays w t ∧ Undisturbed config w t) path (fun t mem => ⟨stays t mem,undisturbed t mem⟩) ⟨?_,start_wired⟩ ?_
  · constructor <;> simp [start,Trip,Respects,streak]
  · rintro _ event _ s _ ⟨stays,undisturbed⟩ part standing attached ⟨sound,wired⟩
    have kept : event ≠ .remove w := by
      rintro rfl
      exact stays rfl
    obtain ⟨works,next⟩ := part_works part wired attached standing kept
    exact ⟨acts_sound within sound (works sound.shut stays undisturbed),next⟩

-- After so many jobs in a row that failed for good, no attempt starts before the cool-down.
theorem open_circuit_kept (path : Run (step config) (Service.start now) ts s) (stays : ∀ t ∈ ts, Stays w t)
    (undisturbed : ∀ t ∈ ts, Undisturbed config w t) (within : config.circuitCooldownMs ≤ 2147483647) :
    Respects config.circuitFailureThreshold config.circuitCooldownMs (deliveries s w) := by
  obtain ⟨sound,wired⟩ := runs_sound path stays undisturbed within
  rw [deliveries_log wired (runs_standing path).2]
  exact sound.respects
end
end

namespace Sample
def config : Config := ⟨1000,60000,1,1,10,1,60000⟩

def stored : StoredRegistration := ⟨"w",.healthy,none,0⟩

def run (events : List (Event Unit)) := Runs.replay (step config) (start 0) events

-- The registration is replaced after the attempt has failed, or while it is in flight.
def refreshedAfter : List (Event Unit) := [.register "w",.enqueue "w" (),.attemptSettles 0 (some "HTTP 500"),.merge [stored],
  .enqueue "w" (),.wait 60000,.timerFires 0]

def refreshedMeanwhile : List (Event Unit) := [.register "w",.enqueue "w" (),.merge [stored],.attemptSettles 0 (some "HTTP 500"),
  .enqueue "w" ()]
end Sample

open Sample

theorem circuit_survives_refresh : ∃ ts s, Run (step config) (Service.start 0 : Service Unit) ts s ∧
    deliveries s "w" = [(0,.start),(0,.failure),(60000,.start)] ∧
    Respects config.circuitFailureThreshold config.circuitCooldownMs (deliveries s "w") := by
  have observed : (run refreshedAfter).map (fun result =>
      (result.1.all (fun t => decide (Stays "w" t)),result.1.all (fun t => decide (Undisturbed config "w" t)),deliveries result.2 "w")) =
      .ok (true,true,[(0,.start),(0,.failure),(60000,.start)]) := by decide +kernel
  obtain ⟨ts,s,path,shown⟩ := Runs.replay_observed observed
  simp only [Prod.mk.injEq,List.all_eq_true,decide_eq_true_eq] at shown
  obtain ⟨stays,undisturbed,log⟩ := shown
  exact ⟨ts,s,path,log,open_circuit_kept path stays undisturbed (by decide)⟩

theorem refresh_resets_circuit : ∃ ts s, Run (step config) (Service.start 0 : Service Unit) ts s ∧ (∀ t ∈ ts, Stays "w" t) ∧
    deliveries s "w" = [(0,.start),(0,.failure),(0,.start)] ∧
    ¬ Respects config.circuitFailureThreshold config.circuitCooldownMs (deliveries s "w") := by
  have observed : (run refreshedMeanwhile).map (fun result =>
      (result.1.all (fun t => decide (Stays "w" t)),deliveries result.2 "w")) = .ok (true,[(0,.start),(0,.failure),(0,.start)]) := by decide +kernel
  obtain ⟨ts,s,path,shown⟩ := Runs.replay_observed observed
  simp only [Prod.mk.injEq,List.all_eq_true,decide_eq_true_eq] at shown
  obtain ⟨stays,log⟩ := shown
  refine ⟨ts,s,path,stays,log,?_⟩
  rw [log]
  intro respects
  have late := respects [(0,.start)] 0 [(0,.start)] rfl (by decide) (0,.start) (by simp) rfl
  exact absurd late (by decide)

end StellarPriceOracle.WebhookCircuit
