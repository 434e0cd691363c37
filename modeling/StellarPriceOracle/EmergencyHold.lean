import StellarPriceOracle.EmergencyBounds

namespace StellarPriceOracle.EmergencyActions
open JsArray
open Runs (Run total)
open List hiding after
open InsertionMap (mem_values)
open Option (some)

inductive Target where
  | asset (name : String) | source (name : String) | protocol
  deriving DecidableEq

def targetOf (kind : EmergencyActionKind) (asset source : Option String) : Option Target :=
  match kind with
  | .pauseFeed => (asset.filter (fun name => decide (name ≠ ""))).map .asset
  | .freezeSource => (source.filter (fun name => decide (name ≠ ""))).map .source
  | .haltPublishing => some .protocol

def EmergencyAction.target (a : EmergencyAction) : Option Target := targetOf a.kind a.asset a.source

section
variable (host : Host)

def OpenInput.target (input : OpenInput) : Option Target :=
  (readKind input.kind).bind (fun kind => targetOf kind (input.asset.map (fun a => host.text.toUpperCase (host.text.trim a)))
    (input.source.map (fun a => host.text.toLowerCase (host.text.trim a))))

def Overlays.restrict (overlays : Overlays) : Target → Bool
  | .asset name => decide (name ∈ overlays.assets)
  | .source name => decide (name ∈ overlays.sources)
  | .protocol => overlays.halted

-- Reading the overlays at the time shows the target, between any two calls made then.
def RestrictedAt (ts : Trace) (time : Int) (target : Target) : Prop :=
  ∃ earlier later r, ts = earlier ++ later ∧ Run (total (next host)) .create earlier r ∧
    (∀ t ∈ earlier, t.input.now ≤ time) ∧ (∀ t ∈ later, time ≤ t.input.again) ∧
    (activeOverlays r time).1.restrict target = true

def callerOf (s : EmergencyActionRegistry) (request : Request) : Option String :=
  if (perform host s request).toBool = false then none
  else match request.call with
    | .openAction _ input => some (host.text.trim input.actor)
    | .renew _ actor _ _ => some (host.text.trim actor)
    | .review _ _ reviewer _ _ => some (host.text.trim reviewer)
    | _ => none

def longOver (now : Int) (a : EmergencyAction) : Bool :=
  decide (a.expiresAt < now) || a.revokedAt.any (fun time => decide (time + 1 < now))

-- An action opened on a target while another one on it was in force a moment ago.
def reopens (s : EmergencyActionRegistry) (request : Request) : Bool :=
  match request.call with
  | .openAction _ input => (perform host s request).toBool &&
      s.actions.values.any (fun a => decide (a.target = input.target host) && !longOver request.now a)
  | _ => false

end

section
variable {host : Host} {request : Request} {s : EmergencyActionRegistry} {ts : Trace} {id : Nat} {a b : EmergencyAction} {who : String}

theorem mem_overlay {actions : List EmergencyAction} :
    name ∈ distinct (((actions.filter isOpen).filter (fun a => a.kind = kind && present (scope a))).filterMap scope) ↔
      ∃ a ∈ actions, isOpen a = true ∧ a.kind = kind ∧ scope a = some name ∧ name ≠ "" := by
  simp only [mem_distinct,mem_filterMap,mem_filter,Bool.and_eq_true,decide_eq_true_eq]
  constructor
  · rintro ⟨a,⟨⟨among,inForce⟩,same,given⟩,named⟩
    exact ⟨a,among,inForce,same,named,by simpa [present,named] using given⟩
  · rintro ⟨a,among,inForce,same,named,given⟩
    exact ⟨a,⟨⟨among,inForce⟩,same,by simpa [present,named] using given⟩,named⟩

theorem target_asset : a.target = some (.asset name) ↔ a.kind = .pauseFeed ∧ a.asset = some name ∧ name ≠ "" := by
  unfold EmergencyAction.target targetOf
  cases a.kind <;> simp [Option.filter_eq_some_iff]

theorem target_source : a.target = some (.source name) ↔ a.kind = .freezeSource ∧ a.source = some name ∧ name ≠ "" := by
  unfold EmergencyAction.target targetOf
  cases a.kind <;> simp [Option.filter_eq_some_iff]

theorem target_protocol : a.target = some .protocol ↔ a.kind = .haltPublishing := by
  unfold EmergencyAction.target targetOf
  cases a.kind <;> simp

theorem restrict_exact {actions : List EmergencyAction} :
    (overlaysOf actions).restrict target = true ↔ ∃ a ∈ actions, isOpen a = true ∧ a.target = some target := by
  cases target with
  | asset =>
    simp only [target_asset]
    exact decide_eq_true_iff.trans mem_overlay
  | source =>
    simp only [target_source]
    exact decide_eq_true_iff.trans mem_overlay
  | protocol => simp [target_protocol,Overlays.restrict,overlaysOf]

-- No action of one person alone is ever reviewed, so each ends within the first span.
structure Solo (who : String) (a : EmergencyAction) : Prop where
  author : a.actor = who
  unreviewed : a.status ≠ .reviewed
  revoked : a.revokedAt ≠ none → a.status = .revoked
  short : a.expiresAt ≤ a.createdAt + maxDurationMs

structure Continues (time : Int) (a b : EmergencyAction) : Prop where
  target : b.target = a.target
  createdAt : b.createdAt = a.createdAt
  expiresAt : b.expiresAt = a.expiresAt
  revoked : ∀ ended, a.revokedAt = some ended → b.revokedAt = some ended
  revokes : ∀ ended, b.revokedAt = some ended → a.revokedAt = some ended ∨ time ≤ ended

theorem Continues.refl : Continues time a a := ⟨rfl,rfl,rfl,fun _ same => same,fun _ same => .inl same⟩

theorem Continues.trans (first : Continues time a b) (second : Continues time b c) : Continues time a c where
  target := second.target.trans first.target
  createdAt := second.createdAt.trans first.createdAt
  expiresAt := second.expiresAt.trans first.expiresAt
  revoked := fun ended held => second.revoked ended (first.revoked ended held)
  revokes := fun ended held => (second.revokes ended held).elim (first.revokes ended) .inr

theorem Continues.longOver (on : Continues time a b) (gone : longOver now a = true) : longOver now b = true := by
  unfold EmergencyActions.longOver at *
  rw [on.expiresAt]
  cases held : a.revokedAt with
  | none => simp_all
  | some ended =>
    rw [on.revoked ended held]
    simpa [held] using gone

theorem sweepAction_continues (time now : Int) (a : EmergencyAction) : Continues time a (sweepAction now a) := by
  obtain ⟨_,_,_,made⟩ := sweepAction_keeps now a
  rw [made]
  exact ⟨rfl,rfl,rfl,fun _ same => same,fun _ same => .inl same⟩

theorem restricts_of (id : Nat) (expiresAt : Int)
    (stored : (r.actions.get id).map (fun a => (isOpen a,a.expiresAt,a.target)) = some (true,expiresAt,some target)) (early : time < expiresAt) :
    (activeOverlays r time).1.restrict target = true := by
  obtain ⟨a,got,shown⟩ := Option.map_eq_some_iff.mp stored
  simp only [Prod.mk.injEq] at shown
  obtain ⟨inForce,rfl,aims⟩ := shown
  refine restrict_exact.mpr ⟨sweepAction time a,mem_values.mpr ⟨id,by rw [swept_get,got]; rfl⟩,?_,?_⟩
  · rw [isOpen,sweepAction_status,if_neg (fun gone => absurd gone.2 (Int.not_le.mpr early))]
    exact inForce
  · rw [(sweepAction_continues time time a).target]
    exact aims

-- A stored action restricts the target and has not run out.
def InForce (s : EmergencyActionRegistry) (now : Int) (target : Target) : Prop :=
  ∃ id a, s.actions.get id = some a ∧ isOpen a = true ∧ now < a.expiresAt ∧ a.target = some target

theorem inForce_exact : (activeOverlays s now).1.restrict target = true ↔ InForce s now target := by
  constructor
  · intro shown
    obtain ⟨_,among,inForce,aims⟩ := restrict_exact.mp shown
    obtain ⟨id,got⟩ := mem_values.mp among
    obtain ⟨a,stored,rfl⟩ := swept_some got
    obtain ⟨still,early⟩ := isOpen_swept inForce
    rw [(sweepAction_continues now now a).target] at aims
    exact ⟨id,a,stored,still,early,aims⟩
  · intro ⟨id,a,stored,still,early,aims⟩
    exact restricts_of id a.expiresAt (by simp [stored,still,aims]) early

-- A name is frozen just while some stored action is in force on it or on all, and every stored action is bounded.
theorem frozen_while_in_force (path : Run (total (next host)) .create ts s) (now : Int) (name : String) :
    (∀ id a, s.actions.get id = some a → Bounded a) ∧
      (isFrozen host s now name = true ↔ InForce s now .protocol ∨ InForce s now (.asset (host.text.toUpperCase (host.text.trim name)))) ∧
      (isSourceFrozen host s now name = true ↔ InForce s now .protocol ∨ InForce s now (.source (host.text.toLowerCase (host.text.trim name)))) := by
  simp only [← inForce_exact]
  exact ⟨runs_stored path (fun _ _ _ _ _ => Fate.bounded),Bool.or_eq_true_iff,Bool.or_eq_true_iff⟩

theorem Solo.swept (solo : Solo who a) (time : Int) : Solo who (sweepAction time a) := by
  have status := sweepAction_status time a
  obtain ⟨_,_,_,made⟩ := sweepAction_keeps time a
  rw [made] at status ⊢
  refine ⟨solo.author,?_,?_,solo.short⟩
  · have unreviewed := solo.unreviewed
    intro reviewed
    simp only at status reviewed
    rw [status] at reviewed
    split at reviewed <;> simp_all
  · intro held
    have closed : isOpen a = false := by simp [isOpen,solo.revoked held]
    simpa [closed,solo.revoked held] using status

theorem Deed.solo (deed : Deed host request id b act written) (solo : Solo who b) (sole : ∀ done, act = some done → done.actor = who) :
    Solo who written ∧ Continues request.again b written := by
  cases deed with
  | countersigned _ _ _ other =>
    refine absurd ?_ other
    rw [solo.author]
    exact sole _ rfl
  | renewed _ reviewed => exact absurd reviewed solo.unreviewed
  | revoked _ inForce =>
    refine ⟨⟨solo.author,nofun,fun _ => rfl,solo.short⟩,rfl,rfl,rfl,?_,?_⟩
    · intro ended held
      have closed := solo.revoked (by simp [held])
      simp [isOpen,closed] at inForce
    · rintro ended held
      exact .inr (Int.le_of_eq (some.inj held))
  | disclosed => exact ⟨{solo with},rfl,rfl,rfl,fun _ same => same,fun _ same => .inl same⟩

theorem Fate.solo (fate : Fate host request id before act after) (solo : ∀ a, before = some a → Solo who a)
    (sole : ∀ done, act = some done → done.actor = who) : ∀ a, after = some a → Solo who a := by
  rintro a rfl
  cases fate with
  | same => exact solo a rfl
  | swept time => exact (solo _ rfl).swept time
  | flagged =>
    have swept := (solo _ rfl).swept request.now
    exact {swept with}
  | did deed => exact (deed.solo ((solo _ rfl).swept request.now) sole).1
  | opened opens =>
    refine ⟨?_,by simp [opens.status],fun held => absurd opens.unrevoked held,?_⟩
    · rw [opens.author]
      exact sole _ rfl
    · simpa [opens.created] using opens.short

theorem Fate.continues (fate : Fate host request id (some a) act after) (solo : Solo who a)
    (sole : ∀ done, act = some done → done.actor = who) : ∃ b, after = some b ∧ Continues request.again a b := by
  cases fate with
  | same => exact ⟨a,rfl,.refl⟩
  | swept time => exact ⟨_,rfl,sweepAction_continues _ time a⟩
  | flagged =>
    have swept := sweepAction_continues request.again request.now a
    exact ⟨_,rfl,swept.target,swept.createdAt,swept.expiresAt,swept.revoked,swept.revokes⟩
  | did deed => exact ⟨_,rfl,(sweepAction_continues _ _ a).trans (deed.solo (solo.swept request.now) sole).2⟩

theorem callerOf_act (recorded : actOf host s request id = some act) : callerOf host s request = some act.actor := by
  unfold actOf at recorded
  unfold callerOf
  split at recorded
  · cases recorded
  · rename_i ran
    rw [if_neg ran]
    cases called : request.call <;> simp_all <;> obtain ⟨_,rfl⟩ := recorded <;> rfl

variable (sole : ∀ t ∈ ts, ∀ caller, callerOf host t.before t.input = some caller → caller = who)
include sole

theorem runs_solo (path : Run (total (next host)) .create ts s) : ∀ id a, s.actions.get id = some a → Solo who a := by
  have both : Numbered s ∧ ∀ id a, s.actions.get id = some a → Solo who a := by
    apply path.invariant_of (P := fun s => Numbered s ∧ ∀ id a, s.actions.get id = some a → Solo who a) sole
      ⟨numbered_create,fun _ _ got => (create_stores_none got).elim⟩
    intro t sole taken valid
    rw [← Except.ok.inj taken]
    refine ⟨next_numbered valid.1,fun id => (next_fate valid.1).solo (valid.2 id) ?_⟩
    exact fun _ recorded => sole _ (callerOf_act recorded)
  exact both.2

theorem runs_continue (path : Run (total (next host)) .create ts s) (whole : ts = earlier ++ later)
    (front : Run (total (next host)) .create earlier r) (onward : ∀ t ∈ later, time ≤ t.input.again) :
    ∀ id a, r.actions.get id = some a → ∃ b, s.actions.get id = some b ∧ Continues time a b := by
  subst whole
  apply (path.resume front).carries (R := fun r s => ∀ id a, r.actions.get id = some a → ∃ b, s.actions.get id = some b ∧ Continues time a b)
  · exact fun s id a stored => ⟨a,stored,.refl⟩
  · intro _ _ _ before after id a stored
    obtain ⟨b,middle,left⟩ := before id a stored
    obtain ⟨c,final,right⟩ := after id b middle
    exact ⟨c,final,left.trans right⟩
  · intro t among id a stored
    have present : t ∈ earlier ++ later := mem_append_right _ among
    obtain ⟨past,_,cut,reached,taken⟩ := path.member present
    have solo : Solo who a := by
      have soleEarlier : ∀ u ∈ past, ∀ caller, callerOf host u.before u.input = some caller → caller = who :=
        fun u before => sole u (cut ▸ mem_append_left _ before)
      exact runs_solo soleEarlier reached id a stored
    have fate : Fate host t.input id _ _ _ := next_fate (runs_numbered reached)
    rw [stored] at fate
    obtain ⟨b,made,on⟩ := fate.continues solo (fun _ recorded => sole t present _ (callerOf_act recorded))
    refine ⟨b,?_,on.target,on.createdAt,on.expiresAt,on.revoked,?_⟩
    · rw [← Except.ok.inj taken]
      exact made
    · intro ended held
      exact (on.revokes ended held).imp_right (Int.le_trans (onward t among))

omit sole in
theorem Fate.opens (fate : Fate host request id none act (some a)) :
    act ≠ none ∧ ∃ policyVersion input, Opens host request id policyVersion input a := by
  cases fate with
  | opened opens => exact ⟨by simp,_,_,opens⟩

theorem runs_dated (path : Run (total (next host)) .create ts s) :
    ∀ id a, s.actions.get id = some a → ∃ t ∈ ts, a.createdAt = t.input.now := by
  induction path with
  | nil => exact fun _ _ got => (create_stores_none got).elim
  | @snoc ts s i _ prior taken ih =>
    cases taken
    have past : ∀ t ∈ ts, ∀ caller, callerOf host t.before t.input = some caller → caller = who :=
      fun t before => sole t (mem_append_left _ before)
    intro id a got
    have fate : Fate host i id _ _ _ := next_fate (runs_numbered prior)
    cases stored : s.actions.get id with
    | none =>
      rw [stored,got] at fate
      obtain ⟨_,_,_,opens⟩ := fate.opens
      exact ⟨_,mem_concat_self,opens.created⟩
    | some b =>
      rw [stored] at fate
      obtain ⟨c,made,on⟩ := fate.continues (runs_solo past prior id b stored)
        (fun _ recorded => sole _ mem_concat_self _ (callerOf_act recorded))
      cases got.symm.trans made
      obtain ⟨t,among,created⟩ := ih past id b stored
      exact ⟨t,mem_append_left _ among,on.createdAt.trans created⟩

omit sole in
theorem Opens.target (opens : Opens host request id policyVersion input a) : a.target = input.target host := by
  simp [EmergencyAction.target,OpenInput.target,opens.kind,opens.asset,opens.source]

def Separated (s : EmergencyActionRegistry) : Prop :=
  ∀ i j a b, i < j → s.actions.get i = some a → s.actions.get j = some b → a.target = b.target → longOver b.createdAt a = true

omit sole in
theorem next_separated (numbered : Numbered s) (solo : ∀ id a, s.actions.get id = some a → Solo who a) (separated : Separated s)
    (sole : ∀ caller, callerOf host s request = some caller → caller = who) (apart : reopens host s request = false) :
    Separated (next host s request) := by
  have onward {id : Nat} {a b : EmergencyAction} (stored : s.actions.get id = some a)
      (got : (next host s request).actions.get id = some b) : Continues request.again a b := by
    have fate : Fate host request id _ _ _ := next_fate numbered
    rw [stored] at fate
    obtain ⟨c,made,on⟩ := fate.continues (solo id a stored) (fun _ recorded => sole _ (callerOf_act recorded))
    cases got.symm.trans made
    exact on
  intro i j a b before first second same
  cases left : s.actions.get i with
  | none =>
    have newest := next_fresh first left
    have counted : j ≤ s.actionCount + 1 := by
      cases right : s.actions.get j with
      | none => exact Nat.le_of_eq (next_fresh second right)
      | some c => exact Nat.le_succ_of_le (numbered j c right).2
    omega
  | some old =>
    have on := onward left first
    cases right : s.actions.get j with
    | none =>
      have fate : Fate host request j _ _ _ := next_fate numbered
      rw [right,second] at fate
      obtain ⟨acted,_,_,opens⟩ := fate.opens
      have ran : (perform host s request).toBool = true := by
        rw [← Bool.not_eq_false]
        intro refused
        exact acted (by simp [actOf,refused])
      simp only [reopens,opens.called,ran,Bool.true_and,any_eq_false] at apart
      have gone := apart old (mem_values.mpr ⟨i,left⟩)
      rw [← on.target,same,opens.target] at gone
      rw [opens.created]
      exact on.longOver (by simpa using gone)
    | some new =>
      have also := onward right second
      rw [also.createdAt]
      refine on.longOver (separated i j old new before left right ?_)
      rw [← on.target,← also.target,same]

theorem runs_separated (path : Run (total (next host)) .create ts s) (apart : ∀ t ∈ ts, reopens host t.before t.input = false) :
    Separated s := by
  induction path with
  | nil => exact fun _ _ _ _ _ got => (create_stores_none got).elim
  | @snoc ts s i _ prior taken ih =>
    cases taken
    have past : ∀ t ∈ ts, ∀ caller, callerOf host t.before t.input = some caller → caller = who :=
      fun t before => sole t (mem_append_left _ before)
    apply next_separated (runs_numbered prior) (runs_solo past prior)
    · exact ih past (fun t before => apart t (mem_append_left _ before))
    · exact sole _ mem_concat_self
    · exact apart _ mem_concat_self

structure Holds (s : EmergencyActionRegistry) (target : Target) (id : Nat) (a : EmergencyAction) (time : Int) : Prop where
  stored : s.actions.get id = some a
  aimed : a.target = some target
  begun : a.createdAt ≤ time
  before : time < a.expiresAt
  unrevoked : ∀ ended, a.revokedAt = some ended → time ≤ ended

theorem RestrictedAt.held (restricted : RestrictedAt host ts time target) (path : Run (total (next host)) .create ts s) :
    ∃ id a, Holds s target id a time := by
  obtain ⟨earlier,later,r,rfl,front,past,onward,shown⟩ := restricted
  obtain ⟨id,a,stored,openBefore,early,aims⟩ := inForce_exact.mp shown
  have soleEarlier : ∀ t ∈ earlier, ∀ caller, callerOf host t.before t.input = some caller → caller = who :=
    fun t before => sole t (mem_append_left _ before)
  obtain ⟨t,called,created⟩ := runs_dated soleEarlier front id a stored
  obtain ⟨b,final,on⟩ := runs_continue sole path rfl front onward id a stored
  refine ⟨id,b,final,?_,?_,on.expiresAt ▸ early,?_⟩
  · exact on.target.trans aims
  · rw [on.createdAt,created]
    exact past t called
  · intro ended held
    rcases on.revokes ended held with already | later
    · have closed := (runs_solo soleEarlier front id a stored).revoked (by simp [already])
      simp [isOpen,closed] at openBefore
    · exact later

omit sole in
theorem Holds.gone (holds : Holds s target id a time) (gone : longOver now a = true) : time + 1 < now := by
  unfold longOver at gone
  cases ended : a.revokedAt with
  | none =>
    have := holds.before
    simp [ended] at gone
    omega
  | some instant =>
    have := holds.before
    have := holds.unrevoked instant ended
    simp [ended] at gone
    omega

omit sole in
theorem Holds.same (separated : Separated s) (first : Holds s target i a time) (second : Holds s target j b (time + 1)) : i = j := by
  rcases Nat.lt_trichotomy i j with less | same | more
  · have gone := separated i j a b less first.stored second.stored (first.aimed.trans second.aimed.symm)
    have := first.gone gone
    have := second.begun
    omega
  · exact same
  · have gone := separated j i b a more second.stored first.stored (second.aimed.trans first.aimed.symm)
    have := second.gone gone
    have := first.begun
    omega

-- One person alone, opening no second action on a target, holds it for 72 hours at most.
theorem alone_held_briefly (path : Run (total (next host)) .create ts s) (apart : ∀ t ∈ ts, reopens host t.before t.input = false)
    (target : Target) (start finish : Int) (throughout : ∀ time, start ≤ time → time ≤ finish → RestrictedAt host ts time target) :
    finish - start ≤ maxDurationMs := by
  by_cases empty : finish < start
  · have : (0 : Int) ≤ maxDurationMs := by decide
    omega
  obtain ⟨id,a,holds⟩ := (throughout start (Int.le_refl _) (Int.not_lt.mp empty)).held sole path
  have separated := runs_separated sole path apart
  have still (n : Nat) (within : start + n ≤ finish) : Holds s target id a (start + n) := by
    induction n with
    | zero => simpa using holds
    | succ n ih =>
      have here := ih (by omega)
      obtain ⟨_,b,held⟩ := (throughout (start + (n + 1 : Nat)) (by omega) within).held sole path
      rw [show start + ((n + 1 : Nat) : Int) = start + n + 1 by omega] at held ⊢
      obtain rfl := here.same separated held
      cases here.stored.symm.trans held.stored
      exact held
  have final := still (finish - start).toNat (by omega)
  have short := (runs_solo sole path id a final.stored).short
  have := final.before
  have := holds.begun
  omega

end

namespace Sample
def hour : Int := 3600000

def first : Request := pause 0 "alice" (some "a") 259200
def second (now : Int) : Request := pause now "alice" (some "b") 259200

def opened : EmergencyActionRegistry := next host .create first
def reopened (now : Int) : EmergencyActionRegistry := next host opened (second now)

def trace (now : Int) : Trace := [⟨.create,first,opened⟩,⟨opened,second now,reopened now⟩]

theorem opened_run : Run (total (next host)) .create [⟨.create,first,opened⟩] opened := .snoc .nil rfl

theorem trace_run : Run (total (next host)) .create (trace now) (reopened now) := .snoc opened_run rfl

theorem trace_restricted (between : 0 ≤ time ∧ time ≤ now) (early : time < 72 * hour) :
    RestrictedAt host (trace now) time (.asset "XLM") := by
  refine ⟨[⟨.create,first,opened⟩],[⟨opened,second now,reopened now⟩],opened,rfl,opened_run,?_,?_,?_⟩
  · simpa [first,pause] using between.1
  · simpa [second,pause] using between.2
  · exact restricts_of 1 (72 * hour) (by decide +kernel) early

theorem alone (answers : callerOf host opened (second now) = some "alice") :
    ∀ t ∈ trace now, ∀ caller, callerOf host t.before t.input = some caller → caller = "alice" := by
  have first : callerOf host .create first = some "alice" := by decide +kernel
  intro t among _ called
  simp only [trace,mem_cons,not_mem_nil,or_false] at among
  rcases among with rfl | rfl
  · exact (some.inj (first.symm.trans called)).symm
  · exact (some.inj (answers.symm.trans called)).symm
end Sample

open Sample

theorem paused_feed_frozen : (∀ id a, opened.actions.get id = some a → Bounded a) ∧
    (InForce opened hour .protocol ∨ InForce opened hour (.asset "XLM")) := by
  obtain ⟨bounded,frozen,_⟩ := frozen_while_in_force opened_run hour "XLM"
  exact ⟨bounded,frozen.mp (by decide +kernel)⟩

theorem pause_held_briefly : (∀ time, 0 ≤ time → time ≤ 72 * hour - 1 →
      RestrictedAt host (trace (72 * hour + 1)) time (.asset "XLM")) ∧
    72 * hour - 1 - 0 ≤ maxDurationMs := by
  have throughout : ∀ time, 0 ≤ time → time ≤ 72 * hour - 1 →
      RestrictedAt host (trace (72 * hour + 1)) time (.asset "XLM") := by
    intro _ from_start _
    exact trace_restricted ⟨from_start,by omega⟩ (by omega)
  refine ⟨throughout,alone_held_briefly (alone (by decide +kernel)) (trace_run) ?_ _ _ _ throughout⟩
  simp only [trace,forall_mem_cons]
  exact ⟨by decide +kernel,by decide +kernel,by simp⟩

-- Two pauses of one feed overlap, and together they last for more than 72 hours.
theorem overlapping_pauses_hold : ∃ ts s, Run (total (next host)) .create ts s ∧ Clocked ts ∧
    (∀ t ∈ ts, ∀ caller, callerOf host t.before t.input = some caller → caller = "alice") ∧
    (∀ time, 0 ≤ time → time ≤ 73 * hour - 1 → RestrictedAt host ts time (.asset "XLM")) ∧
    maxDurationMs < 73 * hour - 1 - 0 := by
  refine ⟨trace hour,reopened hour,trace_run,?_,alone (by decide +kernel),?_,by decide⟩
  · simp [Clocked,trace,first,second,pause,hour]
  · intro time from_start _
    by_cases early : time ≤ hour
    · exact trace_restricted ⟨from_start,early⟩ (by simp only [hour] at *; omega)
    · refine ⟨trace hour,[],reopened hour,by simp,trace_run,?_,nofun,?_⟩
      · simp only [trace,forall_mem_cons]
        simp [first,second,pause]
        omega
      · exact restricts_of 2 (73 * hour) (by decide +kernel) (by omega)

end StellarPriceOracle.EmergencyActions
