import StellarPriceOracle.Library.InsertionMap
import StellarPriceOracle.Library.Runs

namespace StellarPriceOracle.EventProjections
open Guarded
open List
open Runs (Run Transition replay)

-- api/src/services/eventStore.ts.
inductive EventType where
  | priceUpdated
  | sourceAdded
  | sourceRemoved
  | aggregationCompleted
  | alertTriggered
  | circuitBreakerOpened
  | circuitBreakerClosed
  deriving DecidableEq

structure DomainEvent (P : Type) where
  (id streamId : String)
  type : EventType
  payload : P
  correlationId : Option String
  (occurredAt version : Nat)

structure Snapshot (S : Type) where
  streamId : String
  state : S
  (atVersion createdAt : Nat)

structure InMemoryEventStorage (P : Type) where
  events : List (DomainEvent P)
  seenIds : List String
  streamVersions : InsertionMap String Nat

structure EventStore (P S : Type) where
  storage : InMemoryEventStorage P
  snapshots : InsertionMap String (Snapshot S)

structure Projection (P S : Type) where
  name : String
  initialState : S
  handlers : EventType → Option (S → DomainEvent P → S)

section
variable {P S : Type}

def InMemoryEventStorage.empty : InMemoryEventStorage P := ⟨[],[],.empty⟩

section
variable (storage : InMemoryEventStorage P)

def InMemoryEventStorage.append (event : DomainEvent P) : InMemoryEventStorage P :=
  if event.id ∈ storage.seenIds then storage
  else ⟨storage.events ++ [event],storage.seenIds ++ [event.id],storage.streamVersions.set event.streamId event.version⟩

def InMemoryEventStorage.readAll (fromOffset : Nat) : List (DomainEvent P) :=
  storage.events.drop fromOffset

def InMemoryEventStorage.totalCount : Nat := storage.events.length

def InMemoryEventStorage.nextVersion (streamId : String) : Nat :=
  (storage.streamVersions.get streamId).getD 0 + 1

end

structure Appending (P : Type) where
  (id streamId : String)
  type : EventType
  payload : P
  correlationId : Option String
  occurredAt : Nat

def EventStore.append (store : EventStore P S) (input : Appending P) : DomainEvent P × EventStore P S :=
  let event : DomainEvent P := ⟨input.id,input.streamId,input.type,input.payload,input.correlationId,input.occurredAt,
    store.storage.nextVersion input.streamId⟩
  (event,{store with storage := store.storage.append event})

def EventStore.saveSnapshot (store : EventStore P S) (now : Nat) (streamId : String) (state : S) (atVersion : Nat) : EventStore P S :=
  {store with snapshots := store.snapshots.set streamId ⟨streamId,state,atVersion,now⟩}

def Projection.apply (projection : Projection P S) (state : S) (event : DomainEvent P) : S :=
  match projection.handlers event.type with
  | none => state
  | some handler => handler state event

def Projection.fold (projection : Projection P S) (state : S) (events : List (DomainEvent P)) : S :=
  events.foldl projection.apply state

-- A `rebuild` at one of its two awaits, and how many events there were when it began.
inductive Rebuild (P S : Type) where
  | reading (projection : Projection P S) (began : Nat) (state : S) (events : List (DomainEvent P))
  | counting (projection : Projection P S) (began : Nat) (state : S) (total : Nat)

def EventStore.rebuild (store : EventStore P S) (projection : Projection P S) : Rebuild P S :=
  match store.snapshots.get projection.name with
  | none => .reading projection store.storage.totalCount projection.initialState (store.storage.readAll 0)
  | some snapshot => .reading projection store.storage.totalCount snapshot.state (store.storage.readAll snapshot.atVersion)

structure Return (P S : Type) where
  projection : Projection P S
  state : S
  (began ended : Nat)

structure System (P S : Type) where
  store : EventStore P S
  rebuilding : Option (Rebuild P S)
  returned : List (Return P S)

def System.start : System P S := ⟨⟨.empty,.empty⟩,none,[]⟩

def System.reading (s : System P S) : Bool :=
  match s.rebuilding with
  | some (.reading ..) => true
  | _ => false

-- Rebuilds come one after the other; appends come at any time.
inductive Step (P S : Type) where
  | append (input : Appending P)
  | rebuild (projection : Projection P S)
  | readDone
  | countDone (now : Nat)

inductive Invalid where
  | notSequential
  | notReading
  | notCounting
  deriving DecidableEq

def step (s : System P S) : Step P S → Except Invalid (System P S)
  | .append input => .ok {s with store := (s.store.append input).2}
  | .rebuild projection => do
    require (s.rebuilding.isNone) .notSequential
    .ok {s with rebuilding := some (s.store.rebuild projection)}
  | .readDone =>
    match s.rebuilding with
    | some (.reading projection began state events) =>
      .ok {s with rebuilding := some (.counting projection began (projection.fold state events) s.store.storage.totalCount)}
    | _ => .error .notReading
  | .countDone now =>
    match s.rebuilding with
    | some (.counting projection began state total) =>
      .ok ⟨s.store.saveSnapshot now projection.name state total,none,
        s.returned ++ [⟨projection,state,began,s.store.storage.totalCount⟩]⟩
    | _ => .error .notCounting

end

section
variable {P S : Type}

def Projection.upTo (projection : Projection P S) (events : List (DomainEvent P)) (n : Nat) : S :=
  projection.fold projection.initialState (events.take n)

structure Faithful (events : List (DomainEvent P)) (result : Return P S) : Prop where
  ended : result.ended ≤ events.length
  folded : ∃ n ≤ result.ended, result.state = result.projection.upTo events n
  complete : result.began = result.ended → result.state = result.projection.upTo events result.ended

-- Nothing is appended while a rebuild waits, and a name stands for one projection.
@[simp] def Orderly (registry : String → Projection P S) (s : System P S) : Step P S → Prop
  | .append _ => s.reading = false
  | .rebuild projection => projection = registry projection.name
  | _ => True

def Underway (registry : String → Projection P S) (events : List (DomainEvent P)) : Rebuild P S → Prop
  | .reading projection began state rest => projection = registry projection.name ∧ began = events.length ∧
      projection.fold state rest = projection.upTo events events.length
  | .counting projection began state total => projection = registry projection.name ∧ began ≤ total ∧ total ≤ events.length ∧
      state = projection.upTo events total

structure Sound (registry : String → Projection P S) (s : System P S) : Prop where
  snapshots : ∀ name snapshot, s.store.snapshots.get name = some snapshot →
    snapshot.atVersion ≤ s.store.storage.events.length ∧
      snapshot.state = (registry name).upTo s.store.storage.events snapshot.atVersion
  underway : ∀ rebuild, s.rebuilding = some rebuild → Underway registry s.store.storage.events rebuild
  returned : ∀ result ∈ s.returned, Faithful s.store.storage.events result

variable {registry : String → Projection P S} {s next : System P S} {projection : Projection P S} {events more : List (DomainEvent P)}

theorem sound_start : Sound registry System.start := ⟨nofun,nofun,nofun⟩

theorem upTo_rest : projection.fold (projection.upTo events n) (events.drop n) = projection.upTo events events.length := by
  rw [Projection.upTo,Projection.upTo,Projection.fold,Projection.fold,← foldl_append,take_append_drop,take_length]
  rfl

theorem upTo_append (within : n ≤ events.length) : projection.upTo (events ++ more) n = projection.upTo events n := by
  rw [Projection.upTo,Projection.upTo,take_append_of_le_length within]

theorem Faithful.append (faithful : Faithful events result) : Faithful (events ++ more) result := by
  obtain ⟨n,within,folded⟩ := faithful.folded
  refine ⟨by have := faithful.ended; simp; omega,⟨n,within,?_⟩,?_⟩
  · rw [upTo_append (Nat.le_trans within faithful.ended)]
    exact folded
  · rw [upTo_append faithful.ended]
    exact faithful.complete

theorem append_events (store : EventStore P S) (input : Appending P) :
    ∃ more, (store.append input).2.storage.events = store.storage.events ++ more ∧
      (store.append input).2.snapshots = store.snapshots := by
  refine ⟨(store.append input).2.storage.events.drop store.storage.events.length,?_,rfl⟩
  simp only [EventStore.append,InMemoryEventStorage.append]
  split <;> simp

theorem append_sound (sound : Sound registry s) (orderly : Orderly registry s (.append input)) :
    Sound registry {s with store := (s.store.append input).2} := by
  obtain ⟨_,grown,same⟩ := append_events s.store input
  constructor
  · intro name snapshot got
    obtain ⟨within,folded⟩ := sound.snapshots name snapshot (same ▸ got)
    rw [grown]
    refine ⟨by simp; omega,?_⟩
    rw [upTo_append within]
    exact folded
  · intro rebuild got
    have before := sound.underway rebuild got
    rw [grown]
    cases rebuild with
    | reading =>
      have waiting : s.rebuilding = some (.reading ..) := got
      simp [System.reading,waiting] at orderly
    | counting =>
      obtain ⟨named,later,within,folded⟩ := before
      refine ⟨named,later,by simp; omega,?_⟩
      rw [upTo_append within]
      exact folded
  · intro result given
    rw [grown]
    exact (sound.returned result given).append

theorem rebuild_sound (sound : Sound registry s) (named : projection = registry projection.name) :
    Sound registry {s with rebuilding := some (s.store.rebuild projection)} := by
  refine ⟨sound.snapshots,?_,sound.returned⟩
  intro _ started
  cases started
  unfold EventStore.rebuild
  split
  · exact ⟨named,rfl,upTo_rest (n := 0)⟩
  · rename_i _ got
    refine ⟨named,rfl,?_⟩
    rw [(sound.snapshots _ _ got).2,← named]
    exact upTo_rest

theorem readDone_sound (sound : Sound registry s) (waiting : s.rebuilding = some (.reading projection began state rest)) :
    Sound registry {s with rebuilding := some (.counting projection began (projection.fold state rest) s.store.storage.totalCount)} := by
  obtain ⟨named,same,folded⟩ := sound.underway _ waiting
  refine ⟨sound.snapshots,?_,sound.returned⟩
  intro _ started
  cases started
  exact ⟨named,Nat.le_of_eq same,Nat.le_refl _,folded⟩

theorem countDone_faithful (underway : Underway registry events (.counting projection began state total)) :
    Faithful events ⟨projection,state,began,events.length⟩ := by
  obtain ⟨_,later,within,folded⟩ := underway
  refine ⟨Nat.le_refl _,⟨total,within,folded⟩,?_⟩
  intro unchanged
  have same : began = events.length := unchanged
  have all : total = events.length := Nat.le_antisymm within (same ▸ later)
  rw [← all]
  exact folded

theorem countDone_sound (sound : Sound registry s) (waiting : s.rebuilding = some (.counting projection began state total)) :
    Sound registry ⟨s.store.saveSnapshot now projection.name state total,none,
      s.returned ++ [⟨projection,state,began,s.store.storage.totalCount⟩]⟩ := by
  obtain ⟨named,later,within,folded⟩ := sound.underway _ waiting
  constructor
  · intro name snapshot got
    rcases eq_or_ne name projection.name with rfl | here
    · simp only [EventStore.saveSnapshot,InsertionMap.get_set,Option.some.injEq] at got
      subst got
      exact ⟨within,named ▸ folded⟩
    · simp only [EventStore.saveSnapshot,InsertionMap.get_set_ne here] at got
      exact sound.snapshots name snapshot got
  · intro _ got
    cases got
  · intro result given
    rcases Runs.mem_snoc.mp given with old | new
    · exact sound.returned result old
    · obtain rfl := new
      exact countDone_faithful ⟨named,later,within,folded⟩

theorem step_sound (sound : Sound registry s) (orderly : Orderly registry s e) (taken : step s e = .ok next) : Sound registry next := by
  cases e with
  | append =>
    cases taken
    exact append_sound sound orderly
  | rebuild =>
    obtain ⟨_,⟨⟩⟩ := guard_ok.mp taken
    exact rebuild_sound sound orderly
  | readDone =>
    simp only [step] at taken
    split at taken
    · rename_i waiting
      cases taken
      exact readDone_sound sound waiting
    · cases taken
  | countDone =>
    simp only [step] at taken
    split at taken
    · rename_i waiting
      cases taken
      exact countDone_sound sound waiting
    · cases taken

-- A rebuild returns the fold over a prefix, and over everything if nothing was appended.
theorem rebuilds_faithful (registry : String → Projection P S) (path : Run step System.start ts s) (orderly : ∀ t ∈ ts, Orderly registry t.before t.input) :
    ∀ result ∈ s.returned, Faithful s.store.storage.events result := by
  have sound : Sound registry s :=
    path.invariant_of orderly sound_start (fun t good taken sound => step_sound sound good taken)
  exact sound.returned

end

namespace Sample

def ids : Projection Unit (List String) := ⟨"ids",[],fun _ => some (fun state event => state ++ [event.id])⟩

def append (id : String) : Step Unit (List String) := .append ⟨id,"price:XLM",.priceUpdated,(),none,0⟩

def rebuild : List (Step Unit (List String)) := [.rebuild ids,.readDone,.countDone 0]

-- "b" comes while the first rebuild waits for its events.
def overtaken : List (Step Unit (List String)) := [append "a",.rebuild ids,append "b",.readDone,.countDone 0,append "c"] ++ rebuild

end Sample

open Sample

theorem quiet_rebuilds_faithful : ∃ (ts : List (Transition (System Unit (List String)) _)) (s : System Unit (List String)),
    Run step System.start ts s ∧ s.returned.map Return.state = [["a"],["a","b"]] ∧
    ∀ result ∈ s.returned, Faithful s.store.storage.events result := by
  have observed : (replay step System.start ([append "a"] ++ rebuild ++ [append "b"] ++ rebuild)).map
      (fun r => (r.2.returned.map Return.state,r.1.all (fun t => !t.before.reading || t.input matches .readDone))) =
        .ok ([["a"],["a","b"]],true) := by rfl
  obtain ⟨ts,s,path,inputs,shown⟩ := Runs.replay_steps observed
  simp only [Prod.mk.injEq] at shown
  refine ⟨ts,s,path,shown.1,rebuilds_faithful (fun _ => ids) path ?_⟩
  intro t present
  have among := mem_map_of_mem (f := Transition.input) present
  have quiet := all_eq_true.mp shown.2 t present
  rw [inputs] at among
  cases given : t.input with
  | append => simpa [given] using quiet
  | rebuild =>
    rw [given] at among
    simpa [rebuild,append] using among
  | readDone | countDone => trivial

theorem overtaken_rebuild_skips : ∃ (ts : List (Transition (System Unit (List String)) _)) (s : System Unit (List String)),
    Run step System.start ts s ∧ ∃ result ∈ s.returned, ¬ Faithful s.store.storage.events result := by
  have observed : (replay step System.start overtaken).map
      (fun r => r.2.returned.map (fun result =>
        (range (result.ended + 1)).all (fun n => result.state ≠ result.projection.upTo r.2.store.storage.events n))) =
          .ok [false,true] := by rfl
  obtain ⟨ts,s,path,shown⟩ := Runs.replay_observed observed
  obtain ⟨result,given,differs⟩ := mem_map.mp (shown ▸ mem_cons_of_mem false mem_cons_self : true ∈ _)
  refine ⟨ts,s,path,result,given,?_⟩
  intro faithful
  obtain ⟨n,within,folded⟩ := faithful.folded
  have apart := all_eq_true.mp differs n (mem_range.mpr (Nat.lt_succ_of_le within))
  exact of_decide_eq_true apart folded

end StellarPriceOracle.EventProjections
