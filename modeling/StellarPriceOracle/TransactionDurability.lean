import StellarPriceOracle.KeyTransactions

namespace StellarPriceOracle.TransactionDurability
open KeyTransactions Guarded
open ApiKeys hiding step
open KeyedStore (get_set get_set_ne get_set_some)
open Runs (Run replay)
open Option (map some)

-- Memory shows `X`, which is what the store offers if it offers anything.
structure Held (text : JsText) (X : View) (store : Option Entries) (memory : Memory) : Prop where
  shows : view memory.keys = X
  sound : SoundKeys text memory.keys
  synced : ∀ keys, memory.lastSyncedJson = some (canonicalKeyJson (exportKeysForVault keys)) → view keys = stored text store
  current : ∀ keyHash, stored text store keyHash ≠ none → stored text store = X
  durable : ∀ entries ∈ store, SoundKeys text (refreshedKeys text .empty entries)

theorem refresh_cases (text : JsText) (memory : Memory) (store : Option Entries) :
    (refreshFromStore text memory store = memory ∧ ∀ keyHash, stored text store keyHash = none) ∨
    ∃ entries, store = some entries ∧ (∃ keyHash, stored text store keyHash ≠ none) ∧
      refreshFromStore text memory store = ⟨refreshedKeys text memory.keys entries,
        some (canonicalKeyJson (exportKeysForVault (refreshedKeys text memory.keys entries)))⟩ := by
  cases store with
  | none => exact .inl ⟨rfl,fun _ => rfl⟩
  | some entries =>
    rw [← refreshedKeys_view memory.keys]
    by_cases empty : (refreshedKeys text memory.keys entries).entries = []
    · refine .inl ⟨by simp [refreshFromStore,empty],fun keyHash => ?_⟩
      simp [view,InsertionMap.entries_nil.mp empty keyHash]
    · refine .inr ⟨entries,rfl,?_,by simp [refreshFromStore,empty]⟩
      rw [InsertionMap.entries_nil] at empty
      simpa [view] using empty

theorem Held.refresh (held : Held text X store memory) : Held text X store (refreshFromStore text memory store) := by
  rcases refresh_cases text memory store with ⟨same,_⟩ | ⟨entries,rfl,⟨keyHash,offered⟩,next⟩
  · rw [same]
    exact held
  · have shows : view (refreshedKeys text memory.keys entries) = stored text (some entries) := refreshedKeys_view _ entries
    rw [next]
    refine ⟨shows.trans (held.current keyHash offered),refreshedKeys_sound entries (held.durable entries rfl),?_,held.current,held.durable⟩
    intro _ same
    rw [← shows]
    exact (canonical_view (some.inj same)).symm

def Resolved (w : World) (mutation : Mutation) : Prop :=
  ∃ number call, w.calls.get number = some call ∧ call.phase = .resolved ∧ call.mutation = mutation

-- `X` is the initial view with the effects of the calls that resolved, and no others.
structure Recorded (initial : View) (w : World) (X : View) : Prop where
  kept : ∀ mutation, Resolved w mutation → ∀ keyHash ∈ mutation.touched, X keyHash = mutation.effect initial keyHash
  rest : ∀ keyHash, (∀ mutation, Resolved w mutation → keyHash ∉ mutation.touched) → X keyHash = initial keyHash

-- Either nothing has been stored, or the store shows `X`.
def Based (text : JsText) (start w : World) (X : View) : Prop :=
  (w.store = start.store ∧ ∀ mutation, ¬ Resolved w mutation) ∨ stored text w.store = X

def Progress (text : JsText) (start w : World) (X : View) (mutation : Mutation) : Phase → Prop
  | .loaded read => read = w.store ∧ Held text X w.store (refreshFromStore text w.memory w.store) ∧ Based text start w X
  | .refreshed => Held text X w.store w.memory ∧ Based text start w X
  | .saving before entries serialized => (Held text X w.store {w.memory with keys := before} ∧ Based text start w X) ∧
      ∃ next, mutation.run before = some next ∧ w.memory.keys = next ∧ entries = exportKeysForVault next ∧
        serialized = canonicalKeyJson entries
  | .saved serialized => ∃ before next, mutation.run before = some next ∧ view before = X ∧ SoundKeys text next ∧
      w.memory.keys = next ∧ w.store = some (exportKeysForVault next) ∧ serialized = canonicalKeyJson (exportKeysForVault next)
  | .saveFailed before => Held text X w.store {w.memory with keys := before} ∧ Based text start w X
  | _ => False

structure Admitted (text : JsText) (w : World) : Prop where
  numbered : ∀ number call, w.calls.get number = some call → number < w.started
  durable : ∀ number call, w.calls.get number = some call → call.mutation.Durable text
  apart : ∀ number call other mutation, w.calls.get number = some call → w.calls.get other = some mutation → number ≠ other →
    ∀ keyHash ∈ call.mutation.touched, keyHash ∉ mutation.mutation.touched

def QuietBut (w : World) (number : Nat) : Prop :=
  ∀ other call, w.calls.get other = some call → other ≠ number → call.phase.active = false

def Idle (w : World) : Prop := ∀ number call, w.calls.get number = some call → call.phase.active = false

def Standing (text : JsText) (start w : World) : Prop :=
  ∃ X, Recorded (view (refreshFromStore text start.memory start.store).keys) w X ∧
    (Idle w ∧ Held text X w.store (refreshFromStore text w.memory w.store) ∧ Based text start w X ∨
      ∃ number call, w.calls.get number = some call ∧ QuietBut w number ∧ Progress text start w X call.mutation call.phase)

inductive Move (text : JsText) (w : World) : Event → World → Prop where
  | transact (apart : ∀ number < w.started, ∀ other ∈ w.calls.get number, ∀ keyHash ∈ mutation.touched, keyHash ∉ other.mutation.touched) :
      Move text w (.transact mutation) {w with started := w.started + 1, calls := w.calls.set w.started ⟨mutation,.loading⟩}
  | load (found : w.calls.get number = some call) (phased : call.phase = .loading) :
      Move text w (.load number) (w.advance number call (.loaded w.store))
  | loadFails (found : w.calls.get number = some call) (phased : call.phase = .loading) :
      Move text w (.loadFails number) (w.advance number call .loadFailed)
  | refresh {read : Option Entries} (found : w.calls.get number = some call) (phased : call.phase = .loaded read) :
      Move text w (.refresh number) ({w with memory := refreshFromStore text w.memory read}.advance number call .refreshed)
  | unread (found : w.calls.get number = some call) (phased : call.phase = .loadFailed) :
      Move text w (.refresh number) (w.advance number call .threw)
  | mutate (found : w.calls.get number = some call) (phased : call.phase = .refreshed) :
      Move text w (.mutate number) (KeyTransactions.mutate w number call)
  | save (found : w.calls.get number = some call) (phased : call.phase = .saving before entries serialized) :
      Move text w (.save number) ({w with store := some entries}.advance number call (.saved serialized))
  | saveFails (found : w.calls.get number = some call) (phased : call.phase = .saving before entries serialized) :
      Move text w (.saveFails number) (w.advance number call (.saveFailed before))
  | settle (found : w.calls.get number = some call) (phased : call.phase = .saved serialized) :
      Move text w (.settle number) ({w with memory := {w.memory with lastSyncedJson := some serialized}}.advance number call .resolved)
  | restore (found : w.calls.get number = some call) (phased : call.phase = .saveFailed before) :
      Move text w (.settle number) ({w with memory := {w.memory with keys := before}}.advance number call .threw)

section
variable {text : JsText} {start w w' : World} {number : Nat} {call : Call} {phase : Phase} {X : View} {initial : View}

theorem advance_get : (w.advance number call phase).calls.get other = some d ↔
    other = number ∧ {call with phase := phase} = d ∨ other ≠ number ∧ w.calls.get other = some d := get_set_some

theorem advanced_get : (w.advance number call phase).calls.get number = some {call with phase := phase} := get_set

theorem Admitted.advance (admitted : Admitted text w) (found : w.calls.get number = some call) (calls : w'.calls = w.calls)
    (started : w'.started = w.started) : Admitted text (w'.advance number call phase) := by
  have same : ∀ other d, (w'.advance number call phase).calls.get other = some d →
      ∃ before, w.calls.get other = some before ∧ before.mutation = d.mutation := by
    intro other d held
    rcases advance_get.mp held with ⟨rfl,rfl⟩ | ⟨_,held⟩
    · exact ⟨call,found,rfl⟩
    · exact ⟨d,calls ▸ held,rfl⟩
  refine ⟨?_,?_,?_⟩
  · intro other d held
    obtain ⟨before,old,_⟩ := same other d held
    exact started ▸ admitted.numbered other before old
  · intro other d held
    obtain ⟨before,old,mutation⟩ := same other d held
    exact mutation ▸ admitted.durable other before old
  · intro a c b d first second ne
    obtain ⟨e,old,mine⟩ := same a c first
    obtain ⟨f,older,yours⟩ := same b d second
    rw [← mine,← yours]
    exact admitted.apart a e b f old older ne

theorem resolved_advance (found : w.calls.get number = some call) (unresolved : call.phase ≠ .resolved)
    (calls : w'.calls = w.calls) : Resolved (w'.advance number call phase) mutation ↔
      Resolved w mutation ∨ (phase = .resolved ∧ call.mutation = mutation) := by
  constructor
  · rintro ⟨other,d,held,resolved,rfl⟩
    rcases advance_get.mp held with ⟨_,rfl⟩ | ⟨_,held⟩
    · exact .inr ⟨resolved,rfl⟩
    · exact .inl ⟨other,d,calls ▸ held,resolved,rfl⟩
  · rintro (⟨other,d,held,resolved,rfl⟩ | ⟨resolved,rfl⟩)
    · have elsewhere : other ≠ number := by
        rintro rfl
        cases found.symm.trans held
        exact unresolved resolved
      exact ⟨other,d,advance_get.mpr (.inr ⟨elsewhere,calls ▸ held⟩),resolved,rfl⟩
    · exact ⟨number,_,advanced_get,resolved,rfl⟩

theorem pending_advance (w' : World) (phase : Phase) (pending : phase ≠ .resolved) (found : w.calls.get number = some call)
    (unresolved : call.phase ≠ .resolved) (calls : w'.calls = w.calls) (mutation : Mutation) :
    Resolved (w'.advance number call phase) mutation ↔ Resolved w mutation := by
  rw [resolved_advance found unresolved calls]
  simp [pending]

theorem QuietBut.advance (quiet : QuietBut w number) (calls : w'.calls = w.calls) : QuietBut (w'.advance number call phase) number := by
  intro other d held elsewhere
  rcases advance_get.mp held with ⟨here,_⟩ | ⟨_,held⟩
  · exact absurd here elsewhere
  · exact quiet other d (calls ▸ held) elsewhere

theorem QuietBut.idle (quiet : QuietBut w number) (calls : w'.calls = w.calls) (inactive : phase.active = false) :
    Idle (w'.advance number call phase) := by
  intro other d held
  rcases advance_get.mp held with ⟨_,rfl⟩ | ⟨elsewhere,held⟩
  · exact inactive
  · exact quiet other d (calls ▸ held) elsewhere

theorem Recorded.same (recorded : Recorded initial w X) (resolved : ∀ mutation, Resolved w' mutation ↔ Resolved w mutation) :
    Recorded initial w' X := by
  constructor
  · intro mutation done
    exact recorded.kept mutation ((resolved mutation).mp done)
  · intro keyHash untouched
    exact recorded.rest keyHash (fun mutation done => untouched mutation ((resolved mutation).mpr done))

theorem Recorded.extend (recorded : Recorded initial w X)
    (resolved : ∀ other, Resolved w' other ↔ Resolved w other ∨ mutation = other)
    (apart : ∀ other, Resolved w other → ∀ keyHash ∈ mutation.touched, keyHash ∉ other.touched)
    (ran : mutation.run before = some next) (shows : view before = X) : Recorded initial w' (view next) := by
  have frame : ∀ keyHash, keyHash ∉ mutation.touched → view next keyHash = X keyHash := by
    intro keyHash untouched
    rw [← shows]
    exact congrArg (map exportEntry) (mutation.frame ran untouched)
  constructor
  · intro other done keyHash touched
    rcases (resolved other).mp done with old | rfl
    · rw [frame keyHash (fun mine => apart other old keyHash mine touched)]
      exact recorded.kept other old keyHash touched
    · rw [mutation.exact ran touched,shows]
      apply mutation.within _ keyHash touched
      intro k mine
      exact recorded.rest k (fun other old => apart other old k mine)
  · intro keyHash untouched
    rw [frame keyHash (untouched mutation ((resolved mutation).mpr (.inr rfl)))]
    exact recorded.rest keyHash (fun other old => untouched other ((resolved other).mpr (.inl old)))

theorem Based.same (based : Based text start w X) (store : w'.store = w.store)
    (resolved : ∀ mutation, Resolved w' mutation ↔ Resolved w mutation) : Based text start w' X := by
  rcases based with ⟨unstored,none⟩ | shows
  · exact .inl ⟨store.trans unstored,fun mutation done => none mutation ((resolved mutation).mp done)⟩
  · exact .inr (store ▸ shows)

section
variable (recorded : Recorded (view (refreshFromStore text start.memory start.store).keys) w X) (quiet : QuietBut w number)
  (calls : w'.calls = w.calls) (found : w.calls.get number = some call) (unresolved : call.phase ≠ .resolved)
include recorded quiet calls found unresolved

theorem Recorded.goes_on (pending : phase ≠ .resolved)
    (progress : (∀ mutation, Resolved (w'.advance number call phase) mutation ↔ Resolved w mutation) →
      Progress text start (w'.advance number call phase) X call.mutation phase) : Standing text start (w'.advance number call phase) := by
  have same := pending_advance w' phase pending found unresolved calls
  exact ⟨X,recorded.same same,.inr ⟨number,_,advanced_get,quiet.advance calls,progress same⟩⟩

theorem Recorded.ends (store : w'.store = w.store) (ended : phase.active = false ∧ phase ≠ .resolved) (held : Held text X w.store w'.memory)
    (based : Based text start w X) : Standing text start (w'.advance number call phase) := by
  have same := pending_advance w' phase ended.2 found unresolved calls
  exact ⟨X,recorded.same same,.inl ⟨quiet.idle calls ended.1,(store ▸ held).refresh,based.same store same⟩⟩

end

theorem Admitted.others (admitted : Admitted text w) (found : w.calls.get number = some call) (unresolved : call.phase ≠ .resolved) :
    ∀ other, Resolved w other → ∀ keyHash ∈ call.mutation.touched, keyHash ∉ other.touched := by
  rintro other ⟨n,c,held,resolved,rfl⟩
  apply admitted.apart number call n c found held
  rintro rfl
  cases found.symm.trans held
  exact unresolved resolved

theorem transact_admitted (admitted : Admitted text w) (durable : mutation.Durable text)
    (apart : ∀ number < w.started, ∀ other ∈ w.calls.get number, ∀ keyHash ∈ mutation.touched, keyHash ∉ other.mutation.touched) :
    Admitted text {w with started := w.started + 1, calls := w.calls.set w.started ⟨mutation,.loading⟩} := by
  refine ⟨?_,?_,?_⟩
  · intro number call held
    rcases get_set_some.mp held with ⟨rfl,_⟩ | ⟨_,old⟩
    · exact Nat.lt_succ_self _
    · exact Nat.lt_succ_of_lt (admitted.numbered number call old)
  · intro number call held
    rcases get_set_some.mp held with ⟨_,rfl⟩ | ⟨_,old⟩
    · exact durable
    · exact admitted.durable number call old
  · intro a c b d first second ne
    rcases get_set_some.mp first with ⟨rfl,rfl⟩ | ⟨_,old⟩
    · rcases get_set_some.mp second with ⟨rfl,_⟩ | ⟨_,older⟩
      · exact absurd rfl ne
      · exact apart b (admitted.numbered b d older) d older
    · rcases get_set_some.mp second with ⟨rfl,rfl⟩ | ⟨_,older⟩
      · intro keyHash mine yours
        exact apart a (admitted.numbered a c old) c old keyHash yours mine
      · exact admitted.apart a c b d old older ne

section
variable (standing : Standing text start w)
include standing

theorem Standing.inert (number : Nat) (store : w'.store = w.store) (memory : w'.memory = w.memory)
    (resolved : ∀ mutation, Resolved w' mutation ↔ Resolved w mutation)
    (inactive : ∀ d, w.calls.get number = some d → d.phase.active = false)
    (elsewhere : ∀ other, other ≠ number → w'.calls.get other = w.calls.get other)
    (here : ∀ d, w'.calls.get number = some d → d.phase.active = false) : Standing text start w' := by
  obtain ⟨X,recorded,idle | ⟨n,c,found,quiet,progress⟩⟩ := standing
  · refine ⟨X,recorded.same resolved,.inl ⟨?_,?_,idle.2.2.same store resolved⟩⟩
    · intro other d held
      rcases eq_or_ne other number with rfl | same
      · exact here d held
      · rw [elsewhere other same] at held
        exact idle.1 other d held
    · rw [store,memory]
      exact idle.2.1
  · have apart : n ≠ number := by
      rintro rfl
      have quietly := inactive c found
      cases phased : c.phase <;> simp_all [Phase.active,Progress]
    refine ⟨X,recorded.same resolved,.inr ⟨n,c,by rw [elsewhere n apart,found],?_,?_⟩⟩
    · intro other d held ne
      rcases eq_or_ne other number with rfl | same
      · exact here d held
      · rw [elsewhere other same] at held
        exact quiet other d held ne
    · cases phased : c.phase <;> rw [phased] at progress <;> simp only [Progress,store,memory] at progress ⊢
      case loaded => exact ⟨progress.1,progress.2.1,progress.2.2.same store resolved⟩
      case refreshed => exact ⟨progress.1,progress.2.same store resolved⟩
      case saving => exact ⟨⟨progress.1.1,progress.1.2.same store resolved⟩,progress.2⟩
      case saved => exact progress
      case saveFailed => exact ⟨progress.1,progress.2.same store resolved⟩

theorem Standing.active (found : w.calls.get number = some call) (phased : call.phase = phase)
    (active : phase.active = true) : ∃ X, Recorded (view (refreshFromStore text start.memory start.store).keys) w X ∧ QuietBut w number ∧
      call.phase ≠ .resolved ∧ Progress text start w X call.mutation phase := by
  subst phased
  obtain ⟨X,recorded,idle | ⟨n,c,held,quiet,progress⟩⟩ := standing
  · cases (idle.1 number call found).symm.trans active
  · rcases eq_or_ne number n with rfl | here
    · cases found.symm.trans held
      refine ⟨X,recorded,quiet,?_,progress⟩
      intro resolved
      rw [resolved] at active
      cases active
    · cases (quiet number call found here).symm.trans active

theorem Standing.idle (idle : Idle w) : ∃ X, Recorded (view (refreshFromStore text start.memory start.store).keys) w X ∧
      Held text X w.store (refreshFromStore text w.memory w.store) ∧ Based text start w X := by
  obtain ⟨X,recorded,⟨_,held,based⟩ | ⟨n,c,found,_⟩⟩ := standing
  · exact ⟨X,recorded,held,based⟩
  · have inactive := idle n c found
    cases phased : c.phase <;> simp_all [Phase.active,Progress]

theorem transact_standing (admitted : Admitted text w) :
    Standing text start {w with started := w.started + 1, calls := w.calls.set w.started ⟨mutation,.loading⟩} := by
  have unused : w.calls.get w.started = none := by
    cases held : w.calls.get w.started with
    | none => rfl
    | some call => exact absurd (admitted.numbered _ call held) (Nat.lt_irrefl _)
  refine standing.inert w.started rfl rfl ?_ ?_ ?_ ?_
  · intro other
    constructor
    · rintro ⟨n,c,held,resolved,rfl⟩
      rcases get_set_some.mp held with ⟨_,rfl⟩ | ⟨_,held⟩
      · cases resolved
      · exact ⟨n,c,held,resolved,rfl⟩
    · rintro ⟨n,c,held,resolved,rfl⟩
      have here : n ≠ w.started := by
        rintro rfl
        cases unused.symm.trans held
      exact ⟨n,c,by rw [get_set_ne here,held],resolved,rfl⟩
  · intro d held
    cases unused.symm.trans held
  · intro _ here
    exact get_set_ne here
  · intro d held
    cases get_set.symm.trans held
    rfl

theorem fails_standing (found : w.calls.get number = some call)
    (before : call.phase.active = false ∧ call.phase ≠ .resolved) (after : phase.active = false ∧ phase ≠ .resolved) :
    Standing text start (w.advance number call phase) := by
  refine standing.inert number rfl rfl ?_ ?_ ?_ ?_
  · exact pending_advance w phase after.2 found before.2 rfl
  · intro d held
    cases found.symm.trans held
    exact before.1
  · intro _ elsewhere
    exact get_set_ne elsewhere
  · intro d held
    cases advanced_get.symm.trans held
    exact after.1

theorem mutate_standing (admitted : Admitted text w) (found : w.calls.get number = some call)
    (phased : call.phase = .refreshed) : Standing text start (mutate w number call) := by
  obtain ⟨X,recorded,quiet,unresolved,held,based⟩ := standing.active found phased rfl
  unfold mutate
  split
  · exact recorded.ends quiet rfl found unresolved rfl (by simp [Phase.active]) held based
  · rename_i next ran
    have sound := admitted.durable number call found w.memory.keys next ran held.sound
    dsimp only
    split
    · -- the store has the result already
      rename_i synced
      have shows := held.synced next synced
      have after : Held text (view next) w.store {w.memory with keys := next} :=
        ⟨rfl,sound,held.synced,fun _ _ => shows.symm,held.durable⟩
      refine ⟨view next,recorded.extend ?_ (admitted.others found unresolved) ran held.shows,
        .inl ⟨quiet.idle rfl rfl,after.refresh,.inr shows.symm⟩⟩
      intro _
      rw [resolved_advance found unresolved (by rfl)]
      simp
    · exact recorded.goes_on quiet rfl found unresolved (by simp) (fun same => ⟨⟨held,based.same rfl same⟩,next,ran,rfl,rfl,rfl⟩)

theorem settle_saved (admitted : Admitted text w) (found : w.calls.get number = some call) (phased : call.phase = .saved serialized) :
    Standing text start (World.advance {w with memory := {w.memory with lastSyncedJson := some serialized}} number call .resolved) := by
  obtain ⟨X,recorded,quiet,unresolved,_,next,ran,shows,sound,memory,store,rfl⟩ := standing.active found phased rfl
  have holds : stored text w.store = view next := by rw [store,exported_stored sound]
  have after : Held text (view next) w.store {w.memory with lastSyncedJson := some (canonicalKeyJson (exportKeysForVault next))} := by
    refine ⟨by rw [memory],by rw [memory]; exact sound,?_,fun _ _ => holds,?_⟩
    · intro _ same
      rw [holds]
      exact (canonical_view (some.inj same)).symm
    · intro _ held
      cases store.symm.trans held
      exact exported_sound sound
  refine ⟨view next,recorded.extend ?_ (admitted.others found unresolved) ran shows,.inl ⟨quiet.idle rfl rfl,after.refresh,.inr holds⟩⟩
  intro _
  rw [resolved_advance found unresolved (by rfl)]
  simp

end

theorem step_move (ran : step text w event = .ok w') : Move text w event w' := by
  cases event with
  | transact =>
    obtain ⟨apart,⟨⟩⟩ := guard_ok.mp ran
    exact .transact apart
  | load number | loadFails number | refresh number | mutate number | save number | saveFails number | settle number =>
    obtain ⟨_,found,ran⟩ := lookup_ok.mp ran
    split at ran <;> cases ran
    all_goals
      rename_i phased
      first
      | exact .load found phased
      | exact .loadFails found phased
      | exact .refresh found phased
      | exact .unread found phased
      | exact .mutate found phased
      | exact .save found phased
      | exact .saveFails found phased
      | exact .settle found phased
      | exact .restore found phased

theorem step_admitted (ran : step text w event = .ok w') (durable : Durable text ⟨w,event,w'⟩) (admitted : Admitted text w) :
    Admitted text w' := by
  cases step_move ran with
  | @transact mutation apart => exact transact_admitted admitted (durable mutation rfl) apart
  | mutate found =>
    unfold mutate
    split
    · exact admitted.advance found rfl rfl
    · dsimp only
      split <;> exact admitted.advance found rfl rfl
  | load found _ | loadFails found _ | refresh found _ | unread found _ | save found _ | saveFails found _ | settle found _ | restore found _ =>
    exact admitted.advance found rfl rfl

theorem step_standing (accepted : step text w event = .ok w') (exclusive : Exclusive ⟨w,event,w'⟩) (admitted : Admitted text w)
    (standing : Standing text start w) : Standing text start w' := by
  cases step_move accepted with
  | transact => exact transact_standing standing admitted
  | load found phased =>
    have idle : Idle w := fun other d held => exclusive other (admitted.numbered other d held) d held
    obtain ⟨X,recorded,held,based⟩ := standing.idle idle
    exact recorded.goes_on (fun other d held _ => idle other d held) rfl found (by simp [phased]) (by simp) (fun same => ⟨rfl,held,based.same rfl same⟩)
  | loadFails found phased | unread found phased => exact fails_standing standing found (by simp [phased,Phase.active]) (by simp [Phase.active])
  | refresh found phased =>
    obtain ⟨X,recorded,quiet,unresolved,rfl,held,based⟩ := standing.active found phased rfl
    exact recorded.goes_on quiet rfl found unresolved (by simp) (fun same => ⟨held,based.same rfl same⟩)
  | mutate found phased => exact mutate_standing standing admitted found phased
  | @save number call before _ _ found phased =>
    obtain ⟨X,recorded,quiet,unresolved,⟨held,_⟩,next,ran,memory,rfl,rfl⟩ := standing.active found phased rfl
    have sound := admitted.durable number call found before next ran held.sound
    exact recorded.goes_on quiet rfl found unresolved (by simp) (fun _ => ⟨before,next,ran,held.shows,sound,memory,rfl,rfl⟩)
  | saveFails found phased =>
    obtain ⟨X,recorded,quiet,unresolved,⟨held,based⟩,_⟩ := standing.active found phased rfl
    exact recorded.goes_on quiet rfl found unresolved (by simp) (fun same => ⟨held,based.same rfl same⟩)
  | settle found phased => exact settle_saved standing admitted found phased
  | restore found phased =>
    obtain ⟨X,recorded,quiet,unresolved,held,based⟩ := standing.active found phased rfl
    exact recorded.ends quiet rfl found unresolved rfl (by simp [Phase.active]) held based

theorem start_standing (sound : SoundKeys text keys)
    (durable : ∀ entries ∈ store, SoundKeys text (refreshedKeys text .empty entries)) :
    Admitted text (.start store keys) ∧ Standing text (.start store keys) (.start store keys) := by
  have none : ∀ mutation, ¬ Resolved (.start store keys) mutation := by
    rintro mutation ⟨number,call,held,_⟩
    cases held
  refine ⟨⟨?_,?_,?_⟩,view (refreshFromStore text ⟨keys,Option.none⟩ store).keys,⟨?_,fun _ _ => rfl⟩,.inl ⟨?_,?_,.inl ⟨rfl,none⟩⟩⟩
  · intro number call held
    cases held
  · intro number call held
    cases held
  · intro number call other mutation held
    cases held
  · intro mutation resolved
    exact absurd resolved (none mutation)
  · intro _ _ held
    cases held
  · rcases refresh_cases text ⟨keys,Option.none⟩ store with ⟨same,empty⟩ | ⟨entries,rfl,_,next⟩
    · simp only [World.start,same]
      refine ⟨rfl,sound,?_,fun keyHash offered => absurd (empty keyHash) offered,durable⟩
      intro other synced
      cases synced
    · have shows : view (refreshedKeys text keys entries) = stored text (some entries) := refreshedKeys_view _ entries
      simp only [World.start,next]
      refine ⟨rfl,refreshedKeys_sound entries (durable entries rfl),?_,fun _ _ => shows.symm,durable⟩
      intro _ same
      rw [← shows]
      exact (canonical_view (some.inj same)).symm

theorem runs_standing (path : Run (step text) (.start store keys) ts w)
    (exclusive : ∀ t ∈ ts, Exclusive t) (durable : ∀ t ∈ ts, Durable text t) (sound : SoundKeys text keys)
    (settled : ∀ entries ∈ store, SoundKeys text (refreshedKeys text .empty entries)) :
    Admitted text w ∧ Standing text (.start store keys) w := by
  refine path.invariant_of (P := fun w => Admitted text w ∧ Standing text (.start store keys) w)
    (G := fun t => Exclusive t ∧ Durable text t) ?_ (start_standing sound settled) ?_
  · intro t mem
    exact ⟨exclusive t mem,durable t mem⟩
  · rintro ⟨_,_⟩ ⟨alone,lasting⟩ ran ⟨admitted,standing⟩
    exact ⟨step_admitted ran lasting admitted,step_standing ran alone admitted standing⟩

-- Once all calls have settled, the store shows those that resolved and none that threw.
theorem transactions_kept {store : Option Entries} {keys : Keys} (path : Run (step text) (.start store keys) ts w)
    (exclusive : ∀ t ∈ ts, Exclusive t) (durable : ∀ t ∈ ts, Durable text t) (sound : SoundKeys text keys)
    (readable : ∀ entries ∈ store, SoundKeys text (refreshedKeys text .empty entries))
    (settled : ∀ number < w.started, ∀ call ∈ w.calls.get number, call.phase.settled = true) :
    ∀ number call, w.calls.get number = some call → ∀ keyHash ∈ call.mutation.touched,
      (call.phase = .resolved → stored text w.store keyHash =
        call.mutation.effect (view (refreshFromStore text ⟨keys,none⟩ store).keys) keyHash) ∧
      (call.phase = .threw → stored text w.store keyHash = stored text store keyHash ∨
        stored text w.store keyHash = view (refreshFromStore text ⟨keys,none⟩ store).keys keyHash) := by
  obtain ⟨admitted,standing⟩ := runs_standing path exclusive durable sound readable
  have idle : Idle w := by
    intro number call found
    have ended := settled number (admitted.numbered number call found) call found
    cases phased : call.phase <;> simp_all [Phase.settled,Phase.active]
  obtain ⟨X,recorded,_,based⟩ := standing.idle idle
  intro number call found keyHash touched
  constructor
  · intro resolved
    have done : Resolved w call.mutation := ⟨number,call,found,resolved,rfl⟩
    rcases based with ⟨_,none⟩ | shows
    · exact absurd done (none _)
    · rw [shows]
      exact recorded.kept _ done keyHash touched
  · intro threw
    rcases based with ⟨unstored,_⟩ | shows
    · exact .inl (congrArg (fun store => stored text store keyHash) unstored)
    · rw [shows]
      refine .inr (recorded.rest keyHash ?_)
      intro other done
      exact admitted.others found (by simp [threw]) other done keyHash touched
end

namespace Sample
def adding (key : String) : Mutation := .ofOperation JsText.plain id 0 (.generateKey key none none .free .viewer none none)

def added (keys : Keys) (key : String) : Keys := ((adding key).run keys).getD .empty

def start : World := .start (some (exportKeysForVault (added (added .empty "a") "b"))) .empty

def revoking (keyHash : String) : Mutation := .ofOperation JsText.plain id 1 (.revokeKey keyHash)

def oneByOne : List Event := [.transact (revoking "a"),.transact (revoking "b"),
  .load 0,.refresh 0,.mutate 0,.save 0,.settle 0,.load 1,.refresh 1,.mutate 1,.saveFails 1,.settle 1]

-- Both calls read the store before either writes it.
def interleaved : List Event := [.transact (revoking "a"),.transact (revoking "b"),.load 0,.load 1,
  .refresh 0,.mutate 0,.save 0,.settle 0,.refresh 1,.mutate 1,.save 1,.settle 1]

def outcome (w : World) (number : Nat) : Option Bool := (w.calls.get number).bind (fun call =>
  match call.phase with
  | .resolved => some true
  | .threw => some false
  | _ => none)

def active (w : World) (keyHash : String) : Option Bool := (stored JsText.plain w.store keyHash).map ApiKeyEntry.isActive

theorem empty_sound : SoundKeys text .empty := by
  intro _ _ found
  cases found

theorem added_sound (sound : SoundKeys JsText.plain keys) (named : key ≠ "") : SoundKeys JsText.plain (added keys key) := by
  have lasting : (adding key).Durable JsText.plain := by
    apply ofOperation_durable
    exact ⟨⟨named,named⟩,fun _ normal => by cases normal⟩
  unfold added
  cases ran : (adding key).run keys with
  | none => exact empty_sound
  | some next => exact lasting keys next ran sound
end Sample

open Sample

theorem revocations_one_by_one : ∃ ts w, Run (step JsText.plain) start ts w ∧
    (∀ t ∈ ts, Exclusive t) ∧ outcome w 0 = some true ∧ outcome w 1 = some false ∧
    ∃ call, w.calls.get 0 = some call ∧ ∀ keyHash ∈ call.mutation.touched, stored JsText.plain w.store keyHash =
      call.mutation.effect (view (refreshFromStore JsText.plain start.memory start.store).keys) keyHash := by
  have observed : (replay (step JsText.plain) start oneByOne).map (fun result =>
      ((result.1.all (fun t => decide (Exclusive t)),decide (∀ number < result.2.started, ∀ call ∈ result.2.calls.get number,
        call.phase.settled = true)),outcome result.2 0,outcome result.2 1)) = .ok ((true,true),some true,some false) := by
    decide +kernel
  obtain ⟨ts,w,path,inputs,shown⟩ := Runs.replay_steps observed
  simp only [Prod.mk.injEq,List.all_eq_true,decide_eq_true_eq] at shown
  obtain ⟨⟨exclusive,settled⟩,first,second⟩ := shown
  have durable : ∀ t ∈ ts, Durable JsText.plain t := by
    intro t present mutation transacts
    have listed : Event.transact mutation ∈ oneByOne := by
      rw [← inputs,← transacts]
      exact List.mem_map_of_mem present
    simp only [oneByOne,List.mem_cons,Event.transact.injEq,reduceCtorEq,List.not_mem_nil,or_false] at listed
    rcases listed with rfl | rfl <;> exact ofOperation_durable trivial
  have readable : ∀ entries ∈ start.store, SoundKeys JsText.plain (refreshedKeys JsText.plain .empty entries) := by
    rintro entries ⟨⟩
    exact exported_sound (added_sound (added_sound empty_sound (by decide)) (by decide))
  refine ⟨ts,w,path,exclusive,first,second,?_⟩
  have kept := transactions_kept path exclusive durable empty_sound readable settled
  obtain ⟨call,found,_⟩ := Option.bind_eq_some_iff.mp first
  refine ⟨call,found,fun keyHash touched => (kept 0 call found keyHash touched).1 ?_⟩
  cases phased : call.phase <;> simp_all

theorem stale_load_loses_revocation : ∃ ts w, Run (step JsText.plain) start ts w ∧
    outcome w 0 = some true ∧ outcome w 1 = some true ∧ active w "a" = some true ∧
    ∃ call, w.calls.get 0 = some call ∧ "a" ∈ call.mutation.touched ∧ stored JsText.plain w.store "a" ≠
      call.mutation.effect (view (refreshFromStore JsText.plain start.memory start.store).keys) "a" := by
  have observed : (replay (step JsText.plain) start interleaved).map (fun result =>
      (outcome result.2 0,outcome result.2 1,active result.2 "a",(result.2.calls.get 0).map (fun call =>
        decide ("a" ∈ call.mutation.touched ∧ stored JsText.plain result.2.store "a" ≠
          call.mutation.effect (view (refreshFromStore JsText.plain start.memory start.store).keys) "a")))) =
      .ok (some true,some true,some true,some true) := by decide +kernel
  obtain ⟨ts,w,path,shown⟩ := Runs.replay_observed observed
  simp only [Prod.mk.injEq,Option.map_eq_some_iff,decide_eq_true_eq] at shown
  exact ⟨ts,w,path,shown⟩

end StellarPriceOracle.TransactionDurability
