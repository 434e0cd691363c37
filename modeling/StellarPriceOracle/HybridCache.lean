import StellarPriceOracle.Library.Runs
import StellarPriceOracle.LruCache

-- price-serving/cache.ts: `HybridCache` while Redis is active. Each call is split at its awaits.
namespace StellarPriceOracle.HybridCache
open Guarded LruCache
open InsertionMap
open Runs (Run mem_snoc replay states)
open JsNumber (ceil mul orElse)
open List (mem_of_getElem? mem_set)

structure CacheConfig where
  (defaultTtl priceTtl historyTtl sourcesTtl healthTtl : Option JsNumber)

section
variable (config : CacheConfig)

def CacheConfig.defaultTtlMs : JsNumber := orElse 15000 config.defaultTtl

def CacheConfig.endpointTtls : String → Option JsNumber
  | "prices" => some (orElse 15000 config.priceTtl)
  | "price" => some (orElse 15000 config.priceTtl)
  | "history" => some (orElse 60000 config.historyTtl)
  | "sources" => some (orElse 300000 config.sourcesTtl)
  | "health" => some (orElse 30000 config.healthTtl)
  | _ => none

def CacheConfig.ttl (endpoint : Option String) : JsNumber :=
  (endpoint.bind config.endpointTtls).getD config.defaultTtlMs

end

-- What the cache relies on: JSON texts of values, and the patterns of `KEYS`.
structure Platform (V : Type) where
  stringify : V → String
  parse : String → Option V
  covers : String → String → Bool

structure Stored where
  raw : String
  seconds : JsNumber

inductive GetPhase (V : Type) where
  | sent
  | replied (raw : Option String) (ran : Nat)
  | returned (value : Option V)
  deriving DecidableEq

structure GetCall (V : Type) where
  key : String
  begun : Nat
  phase : GetPhase V

inductive SetPhase where
  | sent | replied
  | returned (ended : Nat)

structure SetCall (V : Type) where
  key : String
  value : V
  seconds : JsNumber
  phase : SetPhase

inductive InvalidatePhase where
  | keysSent
  | keysReplied (keys : List String) (ran : Nat)
  | delSent (keys : List String)
  | delReplied (ran : Nat)
  | publishSent (purged : Nat)
  | publishReplied (purged : Nat)
  | returned (purged ended : Nat)

structure InvalidateCall where
  pattern : String
  begun : Nat
  phase : InvalidatePhase

structure Cache (V : Type) where
  clock : Nat
  l1 : LRUCache V
  redis : InsertionMap String Stored
  channel : List String
  gets : List (GetCall V)
  sets : List (SetCall V)
  invalidations : List InvalidateCall

@[simp] def Cache.start {V : Type} (redis : InsertionMap String Stored) : Cache V := ⟨0,.new 1000 1000,redis,[],[],[],[]⟩

inductive Input (V : Type) where
  | get (now : Int) (key : String)
  | getRun (number : Nat)
  | getResume (now : Int) (number : Nat)
  | set (now : Int) (key : String) (value : V) (endpoint : Option String)
  | setRun (number : Nat)
  | setResume (number : Nat)
  | invalidate (pattern : String)
  | invalidateRun (number : Nat)
  | invalidateResume (number : Nat)
  | message
  | expire (key : String)

inductive Stuck where
  | noSuchCall | otherPhase | noMessage
  deriving DecidableEq

section
variable {V : Type} (platform : Platform V) (config : CacheConfig)

def Cache.get (s : Cache V) (now : Int) (key : String) : Cache V :=
  let (l1,hit) := s.l1.get now key
  let phase := match hit with
    | some value => .returned (some value)
    | none => .sent
  {s with l1 := l1,gets := s.gets ++ [⟨key,s.clock,phase⟩]}

section
variable (s : Cache V)

def Cache.moveGet (number : Nat) (call : GetCall V) (phase : GetPhase V) : Cache V :=
  {s with gets := s.gets.set number {call with phase := phase}}

def Cache.moveSet (number : Nat) (call : SetCall V) (phase : SetPhase) : Cache V :=
  {s with sets := s.sets.set number {call with phase := phase}}

def Cache.moveInvalidate (number : Nat) (call : InvalidateCall) (phase : InvalidatePhase) : Cache V :=
  {s with invalidations := s.invalidations.set number {call with phase := phase}}

def Cache.getResume (now : Int) (number : Nat) (call : GetCall V) (raw : Option String) : Cache V :=
  match (raw.filter (fun text => text ≠ "")).bind platform.parse with
  | some value => {s.moveGet number call (.returned (some value)) with l1 := s.l1.set now call.key value}
  | none => s.moveGet number call (.returned none)

end

def Cache.set (s : Cache V) (now : Int) (key : String) (value : V) (endpoint : Option String) : Cache V :=
  let seconds := ceil (mul (config.ttl endpoint) (.finite (1 / 1000)))
  {s with l1 := s.l1.set now key value,sets := s.sets ++ [⟨key,value,seconds,.sent⟩]}

section
variable (s : Cache V)

def Cache.setRun (number : Nat) (call : SetCall V) : Cache V :=
  {s.moveSet number call .replied with redis := s.redis.set call.key ⟨platform.stringify call.value,call.seconds⟩}

def Cache.invalidate (pattern : String) : Cache V :=
  {s with l1 := s.l1.clear,invalidations := s.invalidations ++ [⟨pattern,s.clock,.keysSent⟩]}

def Cache.keys (pattern : String) : List String := (s.redis.entries.map Prod.fst).filter (platform.covers pattern)

def Cache.del (keys : List String) : InsertionMap String Stored := s.redis.filter (fun key => decide (key ∉ keys))

def Cache.invalidateRun (number : Nat) (call : InvalidateCall) : Except Stuck (Cache V) :=
  match call.phase with
  | .keysSent => .ok (s.moveInvalidate number call (.keysReplied (s.keys platform call.pattern) s.clock))
  | .delSent keys => .ok {s.moveInvalidate number call (.delReplied s.clock) with redis := s.del keys}
  | .publishSent purged => .ok {s.moveInvalidate number call (.publishReplied purged) with channel := s.channel ++ [call.pattern]}
  | _ => .error .otherPhase

def Cache.invalidateResume (number : Nat) (call : InvalidateCall) : Except Stuck (Cache V) :=
  match call.phase with
  | .keysReplied [] ran => .ok (s.moveInvalidate number call (.publishSent ran))
  | .keysReplied keys _ => .ok (s.moveInvalidate number call (.delSent keys))
  | .delReplied ran => .ok (s.moveInvalidate number call (.publishSent ran))
  | .publishReplied purged => .ok (s.moveInvalidate number call (.returned purged s.clock))
  | _ => .error .otherPhase

def act (input : Input V) : Except Stuck (Cache V) :=
  match input with
  | .get now key => .ok (s.get now key)
  | .getRun number => do
    let call ← someOr s.gets[number]? .noSuchCall
    match call.phase with
    | .sent => .ok (s.moveGet number call (.replied ((s.redis.get call.key).map Stored.raw) s.clock))
    | _ => .error .otherPhase
  | .getResume now number => do
    let call ← someOr s.gets[number]? .noSuchCall
    match call.phase with
    | .replied raw _ => .ok (s.getResume platform now number call raw)
    | _ => .error .otherPhase
  | .set now key value endpoint => .ok (s.set config now key value endpoint)
  | .setRun number => do
    let call ← someOr s.sets[number]? .noSuchCall
    match call.phase with
    | .sent => .ok (s.setRun platform number call)
    | _ => .error .otherPhase
  | .setResume number => do
    let call ← someOr s.sets[number]? .noSuchCall
    match call.phase with
    | .replied => .ok (s.moveSet number call (.returned s.clock))
    | _ => .error .otherPhase
  | .invalidate pattern => .ok (s.invalidate pattern)
  | .invalidateRun number => do
    let call ← someOr s.invalidations[number]? .noSuchCall
    s.invalidateRun platform number call
  | .invalidateResume number => do
    let call ← someOr s.invalidations[number]? .noSuchCall
    s.invalidateResume number call
  -- The subscriber clears the whole in-process cache, whatever the pattern.
  | .message =>
    match s.channel with
    | _ :: channel => .ok {s with l1 := s.l1.clear,channel := channel}
    | [] => .error .noMessage
  | .expire key => .ok {s with redis := s.redis.remove key}

def Cache.tick : Cache V := {s with clock := s.clock + 1}

def step (input : Input V) : Except Stuck (Cache V) := do
  let next ← act platform config s input
  .ok next.tick

end

end

@[simp] def SetCall.endedAt {V : Type} (c : SetCall V) : Option Nat :=
  match c.phase with
  | .returned ended => some ended
  | _ => none

section
variable (i : InvalidateCall)

def InvalidateCall.purgedAt : Option Nat :=
  match i.phase with
  | .keysReplied [] ran => some ran
  | .delReplied ran => some ran
  | .publishSent purged | .publishReplied purged | .returned purged _ => some purged
  | _ => none

def InvalidateCall.listing : Option (List String) :=
  match i.phase with
  | .keysReplied keys _ | .delSent keys => some keys
  | _ => none

def InvalidateCall.endedAt : Option Nat :=
  match i.phase with
  | .returned _ ended => some ended
  | _ => none

end

section
variable {V : Type} (platform : Platform V)

def Shows (set shown : V) : Prop := shown = set ∨ platform.parse (platform.stringify set) = some shown

def SetSince (sets : List (SetCall V)) (time : Nat) (key : String) (P : V → Prop) : Prop :=
  ∃ c ∈ sets, c.key = key ∧ P c.value ∧ ∀ ended, c.endedAt = some ended → time < ended

-- A get started after an invalidate returned a value only with a set not completed before.
def Kept (s : Cache V) : Prop :=
  ∀ g ∈ s.gets, ∀ value, g.phase = .returned (some value) → ∀ i ∈ s.invalidations, platform.covers i.pattern g.key = true →
    ∀ ended, i.endedAt = some ended → ended < g.begun → SetSince s.sets i.begun g.key (Shows platform · value)

-- A get that read Redis before the deletion does not resume once the invalidate has started.
def undisturbed (invalidations : List InvalidateCall) (g : GetCall V) : Bool :=
  match g.phase with
  | .replied (some _) ran => invalidations.all (fun i => !platform.covers i.pattern g.key || i.purgedAt.any (fun purged => purged < ran))
  | _ => true

def calm (t : Runs.Transition (Cache V) (Input V)) : Bool :=
  match t.input with
  | .getResume _ number => t.before.gets[number]?.all (undisturbed platform t.before.invalidations)
  | _ => true

-- What a get shows from before the purge or the invalidate has a set of its own.
structure Answers (sets : List (SetCall V)) (i : InvalidateCall) (g : GetCall V) : Prop where
  read : ∀ raw ran, g.phase = .replied (some raw) ran → platform.covers i.pattern g.key = true →
    ∀ time, i.purgedAt = some time → time < ran → SetSince sets i.begun g.key (platform.stringify · = raw)
  kept : ∀ value, g.phase = .returned (some value) → platform.covers i.pattern g.key = true →
    ∀ ended, i.endedAt = some ended → ended < g.begun → SetSince sets i.begun g.key (Shows platform · value)

-- After its start the in-process cache has no old value; Redis has one only under listed keys.
structure Effective (s : Cache V) (i : InvalidateCall) : Prop where
  begun : i.begun < s.clock
  l1 : ∀ key value, platform.covers i.pattern key = true → s.l1.Holds key value → SetSince s.sets i.begun key (Shows platform · value)
  earlier : ∀ time, i.purgedAt = some time → time < s.clock
  purged : i.purgedAt.isSome → ∀ key stored, platform.covers i.pattern key = true →
    s.redis.get key = some stored → SetSince s.sets i.begun key (platform.stringify · = stored.raw)
  listed : ∀ keys, i.listing = some keys → ∀ key stored, platform.covers i.pattern key = true → s.redis.get key = some stored →
    key ∈ keys ∨ SetSince s.sets i.begun key (platform.stringify · = stored.raw)
  answers : ∀ g ∈ s.gets, Answers platform s.sets i g
  ended : ∀ time, i.endedAt = some time → ∃ purged, i.purgedAt = some purged ∧ purged < time

structure Invariant (s : Cache V) : Prop where
  effective : ∀ i ∈ s.invalidations, Effective platform s i
  begun : ∀ g ∈ s.gets, g.begun < s.clock
  ran : ∀ g ∈ s.gets, ∀ raw time, g.phase = .replied raw time → g.begun < time ∧ time < s.clock

end

attribute [simp] InvalidateCall.purgedAt InvalidateCall.listing InvalidateCall.endedAt

section
variable {V : Type} {platform : Platform V} {config : CacheConfig} {s next : Cache V} {i : InvalidateCall} {sets : List (SetCall V)}
  {key : String} {P Q : V → Prop} {time number : Nat}

section
variable (since : SetSince sets time key P)
include since

theorem SetSince.imp (implies : ∀ value, P value → Q value) : SetSince sets time key Q := by
  obtain ⟨c,mem,named,shown,late⟩ := since
  exact ⟨c,mem,named,implies _ shown,late⟩

theorem SetSince.append (c : SetCall V) : SetSince (sets ++ [c]) time key P := by
  obtain ⟨c,mem,named,shown,late⟩ := since
  exact ⟨c,List.mem_append_left _ mem,named,shown,late⟩

theorem SetSince.move (got : sets[number]? = some call)
    (late : ∀ ended, ({call with phase := phase} : SetCall V).endedAt = some ended → time < ended) :
    SetSince (sets.set number {call with phase := phase}) time key P := by
  obtain ⟨c,mem,named,shown,open'⟩ := since
  obtain ⟨n,inside,rfl⟩ := List.getElem_of_mem mem
  obtain ⟨bound,rfl⟩ := List.getElem?_eq_some_iff.mp got
  rcases eq_or_ne number n with rfl | here
  · exact ⟨_,mem_set bound _,named,shown,late⟩
  · refine ⟨sets[n],?_,named,shown,open'⟩
    exact List.mem_iff_getElem.mpr ⟨n,by simpa using inside,List.getElem_set_ne here _⟩

end

theorem Effective.weaken (held : Effective platform s i) (clock : s.clock ≤ next.clock)
    (sets : ∀ key P, SetSince s.sets i.begun key P → SetSince next.sets i.begun key P)
    (l1 : ∀ key value, platform.covers i.pattern key = true → next.l1.Holds key value →
      s.l1.Holds key value ∨ SetSince next.sets i.begun key (Shows platform · value))
    (redis : ∀ key stored, next.redis.get key = some stored →
      s.redis.get key = some stored ∨ SetSince next.sets i.begun key (platform.stringify · = stored.raw))
    (gets : ∀ g ∈ next.gets, g ∈ s.gets ∨ Answers platform next.sets i g) : Effective platform next i := by
  refine ⟨Nat.lt_of_lt_of_le held.begun clock,?_,?_,?_,?_,?_,held.ended⟩
  · intro key value covered there
    rcases l1 key value covered there with old | new
    · exact sets _ _ (held.l1 key value covered old)
    · exact new
  · intro time purged
    exact Nat.lt_of_lt_of_le (held.earlier time purged) clock
  · intro purged key stored covered there
    rcases redis key stored there with old | new
    · exact sets _ _ (held.purged purged key stored covered old)
    · exact new
  · intro keys listed key stored covered there
    rcases redis key stored there with old | new
    · exact (held.listed keys listed key stored covered old).imp_right (sets _ _)
    · exact .inr new
  · intro g mem
    rcases gets g mem with old | new
    · obtain ⟨read,kept⟩ := held.answers g old
      exact ⟨fun raw ran phase covered time purged before => sets _ _ (read raw ran phase covered time purged before),
        fun value phase covered ended completed after => sets _ _ (kept value phase covered ended completed after)⟩
    · exact new

structure Adds (platform : Platform V) (s next : Cache V) : Prop where
  same : next.invalidations = s.invalidations
  clock : s.clock ≤ next.clock
  sets : ∀ i ∈ s.invalidations, ∀ key P, SetSince s.sets i.begun key P → SetSince next.sets i.begun key P
  l1 : ∀ i ∈ s.invalidations, ∀ key value, platform.covers i.pattern key = true → next.l1.Holds key value →
    s.l1.Holds key value ∨ SetSince next.sets i.begun key (Shows platform · value)
  redis : ∀ i ∈ s.invalidations, ∀ key stored, next.redis.get key = some stored →
    s.redis.get key = some stored ∨ SetSince next.sets i.begun key (platform.stringify · = stored.raw)
  gets : ∀ g ∈ next.gets, g ∈ s.gets ∨ g.begun < next.clock ∧
    (∀ raw time, g.phase = .replied raw time → g.begun < time ∧ time < next.clock) ∧ ∀ i ∈ s.invalidations, Answers platform next.sets i g

theorem tick_adds : Adds platform s s.tick :=
  ⟨rfl,Nat.le_succ _,fun _ _ _ _ => id,fun _ _ _ _ _ => .inl,fun _ _ _ _ => .inl,fun _ => .inl⟩

section
variable (valid : Invariant platform s)
include valid

theorem Invariant.keep (adds : Adds platform s next) : Invariant platform next := by
  refine ⟨?_,?_,?_⟩
  · intro i mem
    have there : i ∈ s.invalidations := adds.same ▸ mem
    refine (valid.effective i there).weaken adds.clock (adds.sets i there) (adds.l1 i there) (adds.redis i there) ?_
    intro g asked
    exact (adds.gets g asked).imp_right (fun new => new.2.2 i there)
  · intro g asked
    rcases adds.gets g asked with old | ⟨begun,_⟩
    · exact Nat.lt_of_lt_of_le (valid.begun g old) adds.clock
    · exact begun
  · intro g asked raw time phase
    rcases adds.gets g asked with old | ⟨_,ran,_⟩
    · obtain ⟨after,before⟩ := valid.ran g old raw time phase
      exact ⟨after,Nat.lt_of_lt_of_le before adds.clock⟩
    · exact ran raw time phase

theorem get_invariant : Invariant platform (s.get now key).tick := by
  refine valid.keep {tick_adds with l1 := fun _ _ _ _ _ there => .inl (get_keeps there),gets := ?_}
  intro g asked
  rcases mem_snoc.mp asked with old | new
  · exact .inl old
  · rw [new]
    refine .inr ⟨Nat.lt_succ_self _,?_,?_⟩
    · intro raw _ phase
      dsimp only at phase
      split at phase <;> cases phase
    · intro i started
      refine ⟨?_,?_⟩
      · intro _ _ phase
        dsimp only at phase
        split at phase <;> cases phase
      · intro value phase covered _ _ _
        dsimp only at phase
        split at phase
        · rename_i hit
          cases phase
          exact (valid.effective i started).l1 key value covered (get_held hit)
        · cases phase

theorem getRun_invariant (got : s.gets[number]? = some call) :
    Invariant platform (s.moveGet number call (.replied ((s.redis.get call.key).map Stored.raw) s.clock)).tick := by
  have there : call ∈ s.gets := mem_of_getElem? got
  refine valid.keep {tick_adds with gets := ?_}
  intro g asked
  rcases List.mem_or_eq_of_mem_set asked with old | rfl
  · exact .inl old
  · refine .inr ⟨Nat.lt_succ_of_lt (valid.begun call there),?_,?_⟩
    · intro raw time phase
      cases phase
      exact ⟨valid.begun call there,Nat.lt_succ_self _⟩
    · intro i started
      refine ⟨?_,by simp⟩
      intro _ _ phase covered _ purged _
      obtain ⟨read,_⟩ := GetPhase.replied.inj phase
      obtain ⟨stored,held,rfl⟩ := Option.map_eq_some_iff.mp read
      exact (valid.effective i started).purged (Option.isSome_of_eq_some purged) call.key stored covered held

theorem getResume_invariant (got : s.gets[number]? = some call) (replied : call.phase = .replied raw ran)
    (quiet : undisturbed platform s.invalidations call = true) :
    Invariant platform (s.getResume platform now number call raw).tick := by
  have there : call ∈ s.gets := mem_of_getElem? got
  unfold Cache.getResume
  split
  · rename_i value parsed
    obtain ⟨text,filtered,reads⟩ := Option.bind_eq_some_iff.mp parsed
    obtain ⟨rfl,_⟩ := Option.filter_eq_some_iff.mp filtered
    have shown : ∀ set, platform.stringify set = text → Shows platform set value := fun _ same => .inr (same ▸ reads)
    refine valid.keep {tick_adds with l1 := ?_,gets := ?_}
    · intro i started _ _ covered after
      rcases set_keeps after with ⟨rfl,rfl⟩ | old
      · simp only [undisturbed,replied,List.all_eq_true,Bool.or_eq_true,Bool.not_eq_true',Option.any_eq_true] at quiet
        obtain ⟨time,purged,before⟩ := (quiet i started).resolve_left (by simp [covered])
        have since := ((valid.effective i started).answers call there).read text ran replied covered time purged (of_decide_eq_true before)
        exact .inr (since.imp shown)
      · exact .inl old
    · intro g asked
      rcases List.mem_or_eq_of_mem_set asked with old | rfl
      · exact .inl old
      · refine .inr ⟨Nat.lt_succ_of_lt (valid.begun call there),by simp,?_⟩
        intro i started
        refine ⟨by simp,?_⟩
        intro _ phase covered ended completed after
        cases phase
        obtain ⟨time,purged,before⟩ := (valid.effective i started).ended ended completed
        have order := (valid.ran call there _ _ replied).1
        have since := ((valid.effective i started).answers call there).read text ran replied covered time purged (by dsimp only at after; omega)
        exact since.imp shown
  · refine valid.keep {tick_adds with gets := ?_}
    intro g asked
    rcases List.mem_or_eq_of_mem_set asked with old | rfl
    · exact .inl old
    · exact .inr ⟨Nat.lt_succ_of_lt (valid.begun call there),by simp,fun i _ => ⟨by simp,by simp⟩⟩

theorem set_invariant : Invariant platform (s.set config now key value endpoint).tick := by
  refine valid.keep ⟨rfl,Nat.le_succ _,fun _ _ _ _ since => since.append _,?_,fun _ _ _ _ => .inl,fun _ => .inl⟩
  intro i _ _ _ _ after
  rcases set_keeps after with ⟨rfl,rfl⟩ | old
  · exact .inr ⟨_,List.mem_append_right _ (List.mem_singleton_self _),rfl,.inl rfl,by simp⟩
  · exact .inl old

theorem setRun_invariant (got : s.sets[number]? = some call) : Invariant platform (s.setRun platform number call).tick := by
  have unended : ∀ time ended, ({call with phase := .replied} : SetCall V).endedAt = some ended → time < ended := by simp
  obtain ⟨bound,_⟩ := List.getElem?_eq_some_iff.mp got
  refine valid.keep ⟨rfl,Nat.le_succ _,fun _ _ _ _ since => since.move got (unended _),fun _ _ _ _ _ => .inl,?_,fun _ => .inl⟩
  intro i _ other stored after
  have after : (s.redis.set call.key ⟨platform.stringify call.value,call.seconds⟩).get other = some stored := after
  rcases eq_or_ne other call.key with rfl | here
  · rw [get_set] at after
    cases after
    exact .inr ⟨_,mem_set bound _,rfl,rfl,unended _⟩
  · rw [get_set_ne here] at after
    exact .inl after

theorem setResume_invariant (got : s.sets[number]? = some call) :
    Invariant platform (s.moveSet number call (.returned s.clock)).tick := by
  refine valid.keep ⟨rfl,Nat.le_succ _,?_,fun _ _ _ _ _ => .inl,fun _ _ _ _ => .inl,fun _ => .inl⟩
  intro i started _ P since
  refine since.move got ?_
  intro _ completed
  cases completed
  exact (valid.effective i started).begun

theorem message_invariant : Invariant platform {s with l1 := s.l1.clear,channel := channel}.tick :=
  valid.keep {tick_adds with l1 := fun _ _ _ _ _ there => absurd there clear_empty}

theorem expire_invariant : Invariant platform {s with redis := s.redis.remove key}.tick := by
  refine valid.keep {tick_adds with redis := ?_}
  intro i _ other stored after
  have after : (s.redis.remove key).get other = some stored := after
  exact .inl (get_of_remove after)

theorem invalidate_invariant : Invariant platform (s.invalidate pattern).tick := by
  refine ⟨?_,fun g asked => Nat.lt_succ_of_lt (valid.begun g asked),?_⟩
  · intro i mem
    rcases mem_snoc.mp mem with old | new
    · exact (valid.effective i old).weaken (Nat.le_succ _) (fun _ _ => id) (fun _ _ _ there => absurd there clear_empty)
        (fun _ _ => .inl) (fun _ => .inl)
    · rw [new]
      exact ⟨Nat.lt_succ_self _,fun _ _ _ there => absurd there clear_empty,by simp,by simp,
        by simp,fun g _ => ⟨by simp,by simp⟩,by simp⟩
  · intro g asked raw time phase
    obtain ⟨after,before⟩ := valid.ran g asked raw time phase
    exact ⟨after,Nat.lt_succ_of_lt before⟩

theorem Invariant.advance (got : s.invalidations[number]? = some call) (phase : InvalidatePhase)
    (purged : ∀ time, ({call with phase := phase} : InvalidateCall).purgedAt = some time → call.purgedAt = some time ∨ time = s.clock ∧
      ∀ key stored, platform.covers call.pattern key = true → s.redis.get key = some stored →
        SetSince s.sets call.begun key (platform.stringify · = stored.raw))
    (listed : ∀ keys, ({call with phase := phase} : InvalidateCall).listing = some keys → call.listing = some keys ∨
      ∀ key stored, platform.covers call.pattern key = true → s.redis.get key = some stored → key ∈ keys)
    (ended : ∀ time, ({call with phase := phase} : InvalidateCall).endedAt = some time → time = s.clock ∧
      ∃ purged, ({call with phase := phase} : InvalidateCall).purgedAt = some purged ∧ call.purgedAt = some purged) :
    Invariant platform (s.moveInvalidate number call phase).tick := by
  have held := valid.effective call (mem_of_getElem? got)
  refine ⟨?_,fun g asked => Nat.lt_succ_of_lt (valid.begun g asked),?_⟩
  · intro i mem
    rcases List.mem_or_eq_of_mem_set mem with old | rfl
    · exact (valid.effective i old).weaken (Nat.le_succ _) (fun _ _ => id) (fun _ _ _ => .inl)
        (fun _ _ => .inl) (fun _ => .inl)
    · refine ⟨Nat.lt_succ_of_lt held.begun,held.l1,?_,?_,?_,?_,?_⟩
      · intro time now
        rcases purged time now with old | ⟨rfl,_⟩
        · exact Nat.lt_succ_of_lt (held.earlier time old)
        · exact Nat.lt_succ_self _
      · intro some key stored covered there
        obtain ⟨time,now⟩ := Option.isSome_iff_exists.mp some
        rcases purged time now with old | ⟨_,clean⟩
        · exact held.purged (Option.isSome_of_eq_some old) key stored covered there
        · exact clean key stored covered there
      · intro keys now key stored covered there
        rcases listed keys now with old | all
        · exact held.listed keys old key stored covered there
        · exact .inl (all key stored covered there)
      · intro g asked
        refine ⟨?_,?_⟩
        · intro raw ran replied covered time now before
          rcases purged time now with old | ⟨rfl,_⟩
          · exact (held.answers g asked).read raw ran replied covered time old before
          · exact absurd before (Nat.lt_asymm (valid.ran g asked _ ran replied).2)
        · intro _ _ _ time now after
          obtain ⟨rfl,_⟩ := ended time now
          exact absurd after (Nat.lt_asymm (valid.begun g asked))
      · intro time now
        obtain ⟨rfl,purge,new,old⟩ := ended time now
        exact ⟨purge,new,held.earlier purge old⟩
  · intro g asked raw time phase
    obtain ⟨after,before⟩ := valid.ran g asked raw time phase
    exact ⟨after,Nat.lt_succ_of_lt before⟩

end

theorem keys_mem (covered : platform.covers pattern key = true) (held : s.redis.get key = some stored) :
    key ∈ s.keys platform pattern := by
  refine List.mem_filter.mpr ⟨?_,covered⟩
  exact List.mem_map.mpr ⟨(key,stored),get_exact.mp held,rfl⟩

theorem del_get (after : (s.del keys).get key = some stored) : key ∉ keys ∧ s.redis.get key = some stored := by
  rw [Cache.del,get_filter] at after
  split at after
  · rename_i unlisted
    exact ⟨of_decide_eq_true unlisted,after⟩
  · cases after

theorem channel_invariant (channel : List String) (valid : Invariant platform s) : Invariant platform {s with channel := channel} :=
  valid.keep {tick_adds with clock := Nat.le_refl _,gets := fun _ => .inl}

theorem del_invariant (valid : Invariant platform s) : Invariant platform {s with redis := s.del keys} :=
  valid.keep {tick_adds with clock := Nat.le_refl _,gets := fun _ => .inl,redis := fun _ _ _ _ after => .inl (del_get after).2}

theorem invalidateRun_invariant (got : s.invalidations[number]? = some call)
    (ran : s.invalidateRun platform number call = .ok next) (valid : Invariant platform s) : Invariant platform next.tick := by
  unfold Cache.invalidateRun at ran
  split at ran
  · cases ran
    refine valid.advance got _ ?_ ?_ (by simp)
    · intro time purged
      cases listed : s.keys platform call.pattern with
      | nil =>
        have now : s.clock = time := by simpa [listed] using purged
        refine .inr ⟨now.symm,?_⟩
        intro key stored covered held
        have mem := keys_mem covered held
        rw [listed] at mem
        cases mem
      | cons => simp [listed] at purged
    · intro keys listed
      cases listed
      exact .inr (fun _ _ covered => keys_mem covered)
  · rename_i keys sent
    cases ran
    refine (del_invariant valid).advance got (.delReplied s.clock) ?_ (by simp) (by simp)
    intro time purged
    refine .inr ⟨(Option.some.inj purged).symm,?_⟩
    intro key stored covered after
    obtain ⟨unlisted,held⟩ := del_get after
    have listed : call.listing = some keys := by simp [sent]
    have either := (valid.effective call (mem_of_getElem? got)).listed keys listed key stored covered held
    exact either.resolve_left unlisted
  · rename_i purged sent
    cases ran
    refine (channel_invariant (s.channel ++ [call.pattern]) valid).advance got (.publishReplied purged) ?_ (by simp)
      (by simp)
    intro _ same
    cases same
    exact .inl (by simp [sent])
  · cases ran

theorem invalidateResume_invariant (got : s.invalidations[number]? = some call)
    (resumed : s.invalidateResume number call = .ok next) (valid : Invariant platform s) : Invariant platform next.tick := by
  unfold Cache.invalidateResume at resumed
  split at resumed
  case h_1 ran replied | h_3 ran replied =>
    cases resumed
    refine valid.advance got (.publishSent ran) ?_ (by simp) (by simp)
    intro time same
    cases same
    exact .inl (by simp [replied])
  · rename_i keys ran some replied
    cases resumed
    refine valid.advance got (.delSent keys) (by simp) ?_ (by simp)
    intro _ same
    cases same
    exact .inl (by simp [replied])
  · rename_i purged replied
    have before : call.purgedAt = some purged := by simp [replied]
    cases resumed
    refine valid.advance got (.returned purged s.clock) ?_ (by simp) ?_
    · intro time same
      cases same
      exact .inl before
    · intro _ same
      exact ⟨(Option.some.inj same).symm,purged,rfl,before⟩
  · cases resumed

theorem step_invariant (undisturbed : calm platform t = true) (accepted : step platform config t.before t.input = .ok t.after)
    (valid : Invariant platform t.before) : Invariant platform t.after := by
  obtain ⟨s,input,_⟩ := t
  obtain ⟨_,done,⟨⟩⟩ := bind_ok.mp accepted
  cases input <;> simp only [act,bind_ok,someOr_ok] at done
  case get now key =>
    cases done
    exact get_invariant valid
  case getRun number =>
    obtain ⟨call,got,done⟩ := done
    split at done
    · cases done
      exact getRun_invariant valid got
    · cases done
  case getResume now number =>
    obtain ⟨call,got,done⟩ := done
    split at done
    · rename_i _ _ replied
      cases done
      have quiet : HybridCache.undisturbed platform s.invalidations call = true := by simpa [calm,got] using undisturbed
      exact getResume_invariant valid got replied quiet
    · cases done
  case set now key value endpoint =>
    cases done
    exact set_invariant valid
  case setRun number =>
    obtain ⟨call,got,done⟩ := done
    split at done
    · cases done
      exact setRun_invariant valid got
    · cases done
  case setResume number =>
    obtain ⟨call,got,done⟩ := done
    split at done
    · cases done
      exact setResume_invariant valid got
    · cases done
  case invalidate pattern =>
    cases done
    exact invalidate_invariant valid
  case invalidateRun number =>
    obtain ⟨call,got,done⟩ := done
    exact invalidateRun_invariant got done valid
  case invalidateResume number =>
    obtain ⟨call,got,done⟩ := done
    exact invalidateResume_invariant got done valid
  case message =>
    split at done
    · cases done
      exact message_invariant valid
    · cases done
  case expire key =>
    cases done
    exact expire_invariant valid

theorem Invariant.kept (valid : Invariant platform s) : Kept platform s := by
  intro g asked value returned i started covered ended completed after
  exact ((valid.effective i started).answers g asked).kept value returned covered ended completed after

-- Where no such get resumes, invalidation is not undone, in any state of the run.
theorem invalidation_kept {redis : InsertionMap String Stored} (path : Run (step platform config) (.start redis) ts s)
    (undisturbed : ∀ t ∈ ts, calm platform t = true) : ∀ r ∈ states (.start redis) ts, Kept platform r := by
  have base : Invariant platform (.start redis : Cache V) := ⟨by simp,by simp,by simp⟩
  intro r visited
  exact (path.always undisturbed base (fun _ => step_invariant) r visited).kept

end

namespace Sample
def platform : Platform Nat where
  stringify := toString
  parse := fun text => if text = "1" then some 1 else if text = "2" then some 2 else none
  covers := fun pattern key => decide (pattern = "price:*") && "price:".toList.isPrefixOf key.toList

def config : CacheConfig := ⟨none,none,none,none,none⟩

def set (now : Int) (number value : Nat) : List (Input Nat) :=
  [.set now "price:XLM" value (some "price"),.setRun number,.setResume number]

def returned (s : Cache Nat) : List (Option Nat) :=
  s.gets.map (fun g => match g.phase with
    | .returned value => value
    | _ => none)

def orderly : List (Input Nat) :=
  set 0 0 1 ++ [.invalidate "price:*",.invalidateRun 0,.invalidateResume 0,.invalidateRun 0,.get 5000 "price:XLM",.getRun 0,.getResume 5000 0,
    .invalidateResume 0,.invalidateRun 0,.invalidateResume 0] ++ set 6000 1 2 ++ [.get 9000 "price:XLM",.getRun 1,.getResume 9000 1]

-- A get misses the cleared cache and reads Redis before `DEL` runs, then resumes.
def race : List (Input Nat) :=
  set 0 0 1 ++ [.invalidate "price:*",.get 5000 "price:XLM",.invalidateRun 0,.getRun 0,.invalidateResume 0,.getResume 5000 0,
    .invalidateRun 0,.invalidateResume 0,.invalidateRun 0,.invalidateResume 0,.get 5100 "price:XLM"]

def stale (s : Cache Nat) : Bool :=
  s.gets.any (fun g => decide (g.phase = .returned (some 1)) && s.invalidations.any (fun i =>
    platform.covers i.pattern g.key && i.endedAt.any (fun ended => ended < g.begun) && s.sets.all (fun c => c.endedAt.any (fun ended => ended ≤ i.begun))))

theorem stale_undone (got : stale s = true) : ¬ Kept platform s := by
  intro kept
  simp only [stale,List.any_eq_true,Bool.and_eq_true,decide_eq_true_eq,Option.any_eq_true,List.all_eq_true] at got
  obtain ⟨g,asked,returned,i,started,⟨covered,ended,completed,before⟩,earlier⟩ := got
  obtain ⟨c,mem,_,_,late⟩ := kept g asked 1 returned i started covered ended completed before
  obtain ⟨time,done,less⟩ := earlier c mem
  exact absurd (late time done) (Nat.not_lt.mpr less)
end Sample

open Sample

theorem invalidated_price_reread : ∃ ts s, Run (step platform config) (.start .empty) ts s ∧ returned s = [none,some 2] ∧
    ∀ r ∈ states (.start .empty) ts, Kept platform r := by
  have observed : (replay (step platform config) (.start .empty) orderly).map (fun result =>
      (returned result.2,decide (∀ t ∈ result.1, calm platform t = true))) = .ok ([none,some 2],true) := by
    decide +kernel
  obtain ⟨ts,s,path,read,undisturbed⟩ := Runs.replay_pair observed
  exact ⟨ts,s,path,read,invalidation_kept path (of_decide_eq_true undisturbed)⟩

-- The set completed before the invalidate started, and a later get returns its value.
theorem inflight_read_restores_price : ∃ ts s, Run (step platform config) (.start .empty) ts s ∧
    s.sets.map SetCall.endedAt = [some 2] ∧ s.invalidations.map (fun i => (i.begun,i.endedAt)) = [(3,some 12)] ∧
    s.gets.map GetCall.begun = [4,13] ∧ returned s = [some 1,some 1] ∧ ¬ Kept platform s := by
  have observed : (replay (step platform config) (.start .empty) race).map (fun result =>
      (decide (result.2.sets.map SetCall.endedAt = [some 2] ∧ result.2.invalidations.map (fun i => (i.begun,i.endedAt)) = [(3,some 12)] ∧
        result.2.gets.map GetCall.begun = [4,13] ∧ returned result.2 = [some 1,some 1]),stale result.2)) = .ok (true,true) := by
    decide +kernel
  obtain ⟨ts,s,path,seen,stale⟩ := Runs.replay_pair observed
  obtain ⟨set,invalidated,begun,returned⟩ := of_decide_eq_true seen
  exact ⟨ts,s,path,set,invalidated,begun,returned,stale_undone stale⟩

end StellarPriceOracle.HybridCache
