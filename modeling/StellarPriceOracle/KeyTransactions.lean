import Mathlib.Data.List.Sort
import StellarPriceOracle.ApiKeys

namespace StellarPriceOracle.KeyTransactions
open ApiKeys Guarded
open InsertionMap (get_collect get_map mem_values get_exact get_set get_set_some get_set_ne get_remove get_of_remove)
open Option (map_map bind_some map_eq_some_iff ext some)

-- api/src/governance/api-key-manager.ts: the transactions on the key store.
structure ApiKeyEntry where
  (keyHash keyPrefix key : String)
  tier : Option KeyTier
  role : Option Role
  scopes : Option (List String)
  rateLimitPerMin : Nat
  description : Option String
  createdAt : Nat
  isActive : Bool
  policy : Option RawPolicy
  deriving DecidableEq

abbrev Entries := InsertionMap String ApiKeyEntry

def rawPolicy (scope : KeyPolicyScope) : RawPolicy :=
  let names (values : Option (List String)) : Option (Json JsNumber) := values.map (fun names => .arr (names.map .str))
  let time (value : Option Nat) : Option (Json JsNumber) := value.map (fun (ms : Nat) => .num (.finite ms))
  ⟨names scope.feeds,names scope.operations,names scope.environments,time scope.effectiveAt,time scope.expiresAt⟩

def exportEntry (metadata : ApiKeyMetadata) : ApiKeyEntry where
  keyHash := metadata.keyHash
  keyPrefix := metadata.keyPrefix
  key := ""
  tier := some metadata.tier
  role := some metadata.role
  scopes := metadata.scopes
  rateLimitPerMin := metadata.rateLimitPerMin
  description := metadata.description
  createdAt := metadata.createdAt
  isActive := metadata.isActive
  policy := metadata.policy.map rawPolicy

def exportKeysForVault (keys : Keys) : Entries := keys.map exportEntry

abbrev Serialized := List (String × ApiKeyEntry)

def canonicalKeyJson (entries : Entries) : Serialized := entries.entries.insertionSort (fun a b => a.1 ≤ b.1)

section
variable (text : JsText)

def policyFromEntry (entry : ApiKeyEntry) : Option KeyPolicyScope :=
  match normalizePolicyScope text entry.policy with
  | .ok policy => policy
  | .error _ => none

def metadataFromEntry (entry : ApiKeyEntry) : ApiKeyMetadata where
  keyHash := entry.keyHash
  keyPrefix := if entry.keyPrefix ≠ "" then entry.keyPrefix
    else if entry.key.length ≥ 12 then keyPrefix entry.key else keyPrefix entry.keyHash
  createdAt := entry.createdAt
  lastUsed := none
  requestCount := 0
  isActive := entry.isActive
  rateLimitPerMin := entry.rateLimitPerMin
  tier := entry.tier.getD .free
  role := entry.role.getD .viewer
  scopes := entry.scopes
  description := entry.description
  policy := policyFromEntry text entry

structure Memory where
  keys : Keys
  lastSyncedJson : Option Serialized

def withUsage (previous : Keys) (metadata : ApiKeyMetadata) : ApiKeyMetadata :=
  match previous.get metadata.keyHash with
  | none => metadata
  | some prior => {metadata with lastUsed := prior.lastUsed, requestCount := prior.requestCount}

def refreshedKeys (previous : Keys) (storeKeys : Entries) : Keys :=
  .collect ApiKeyEntry.keyHash (fun entry => withUsage previous (metadataFromEntry text entry))
    (storeKeys.values.filter (fun entry => entry.keyHash ≠ ""))

def refreshFromStore (memory : Memory) (read : Option Entries) : Memory :=
  match read with
  | none => memory
  | some storeKeys =>
    let next := refreshedKeys text memory.keys storeKeys
    if next.entries = [] then memory else ⟨next,some (canonicalKeyJson (exportKeysForVault next))⟩

abbrev View := String → Option ApiKeyEntry

def view (keys : Keys) : View := fun keyHash => (keys.get keyHash).map exportEntry

def stored (store : Option Entries) : View := fun keyHash =>
  store.bind (fun entries => view (refreshedKeys text .empty entries) keyHash)

-- A mutation with the hashes it touches and what it makes of them; `none` if it throws.
structure Mutation where
  touched : List String
  run : Keys → Option Keys
  effect : View → View
  frame : ∀ {keys next keyHash}, run keys = some next → keyHash ∉ touched → next.get keyHash = keys.get keyHash
  exact : ∀ {keys next keyHash}, run keys = some next → keyHash ∈ touched → view next keyHash = effect (view keys) keyHash
  within : ∀ {v w : View}, (∀ keyHash ∈ touched, v keyHash = w keyHash) → ∀ keyHash ∈ touched, effect v keyHash = effect w keyHash

structure Sound (keyHash : String) (metadata : ApiKeyMetadata) : Prop where
  hashed : metadata.keyHash = keyHash
  named : keyHash ≠ ""
  prefixed : metadata.keyPrefix ≠ ""
  settled : ∀ policy ∈ metadata.policy, normalizePolicyScope text (some (rawPolicy policy)) = .ok (some policy)

def SoundKeys (keys : Keys) : Prop := ∀ keyHash metadata, keys.get keyHash = some metadata → Sound text keyHash metadata

def Mutation.Durable (mutation : Mutation) : Prop :=
  ∀ keys next, mutation.run keys = some next → SoundKeys text keys → SoundKeys text next
end

-- `loaded` and `saved` when the store has acted and the call has not resumed.
inductive Phase where
  | loading
  | loaded (read : Option Entries)
  | loadFailed
  | refreshed
  | saving (before : Keys) (entries : Entries) (serialized : Serialized)
  | saved (serialized : Serialized)
  | saveFailed (before : Keys)
  | resolved
  | threw
  | mutationThrew

structure Call where
  mutation : Mutation
  phase : Phase

-- One manager, the store and the calls of `transact`, which go by their number.
structure World where
  store : Option Entries
  memory : Memory
  started : Nat
  calls : KeyedStore Nat (fun _ => Call)

def World.start (store : Option Entries) (keys : Keys) : World := ⟨store,⟨keys,none⟩,0,KeyedStore.empty⟩

inductive Event where
  | transact (mutation : Mutation)
  | load (call : Nat)
  | loadFails (call : Nat)
  | refresh (call : Nat)
  | mutate (call : Nat)
  | save (call : Nat)
  | saveFails (call : Nat)
  | settle (call : Nat)

inductive Impossible where
  | overlapping | notThere
  deriving DecidableEq

def World.advance (w : World) (number : Nat) (call : Call) (phase : Phase) : World :=
  {w with calls := w.calls.set number {call with phase := phase}}

def mutate (w : World) (number : Nat) (call : Call) : World :=
  match call.mutation.run w.memory.keys with
  | none => w.advance number call .mutationThrew
  | some next =>
    let entries := exportKeysForVault next
    let serialized := canonicalKeyJson entries
    let after := {w with memory := {w.memory with keys := next}}
    if w.memory.lastSyncedJson = some serialized then after.advance number call .resolved
    else after.advance number call (.saving w.memory.keys entries serialized)

-- Mutations touch hashes that no other call touches.
def step (text : JsText) (w : World) : Event → Except Impossible World
  | .transact mutation => do
    require (∀ number < w.started, ∀ other ∈ w.calls.get number, ∀ keyHash ∈ mutation.touched, keyHash ∉ other.mutation.touched) .overlapping
    .ok {w with started := w.started + 1, calls := w.calls.set w.started ⟨mutation,.loading⟩}
  | .load number => do
    let call ← someOr (w.calls.get number) .notThere
    match call.phase with
    | .loading => .ok (w.advance number call (.loaded w.store))
    | _ => .error .notThere
  | .loadFails number => do
    let call ← someOr (w.calls.get number) .notThere
    match call.phase with
    | .loading => .ok (w.advance number call .loadFailed)
    | _ => .error .notThere
  | .refresh number => do
    let call ← someOr (w.calls.get number) .notThere
    match call.phase with
    | .loaded read => .ok ({w with memory := refreshFromStore text w.memory read}.advance number call .refreshed)
    | .loadFailed => .ok (w.advance number call .threw)
    | _ => .error .notThere
  | .mutate number => do
    let call ← someOr (w.calls.get number) .notThere
    match call.phase with
    | .refreshed => .ok (mutate w number call)
    | _ => .error .notThere
  | .save number => do
    let call ← someOr (w.calls.get number) .notThere
    match call.phase with
    | .saving _ entries serialized => .ok ({w with store := some entries}.advance number call (.saved serialized))
    | _ => .error .notThere
  | .saveFails number => do
    let call ← someOr (w.calls.get number) .notThere
    match call.phase with
    | .saving before _ _ => .ok (w.advance number call (.saveFailed before))
    | _ => .error .notThere
  | .settle number => do
    let call ← someOr (w.calls.get number) .notThere
    match call.phase with
    | .saved serialized => .ok ({w with memory := {w.memory with lastSyncedJson := some serialized}}.advance number call .resolved)
    | .saveFailed before => .ok ({w with memory := {w.memory with keys := before}}.advance number call .threw)
    | _ => .error .notThere

def Phase.active : Phase → Bool
  | .loaded _ | .refreshed | .saving _ _ _ | .saved _ | .saveFailed _ => true
  | _ => false

def Phase.settled : Phase → Bool
  | .resolved | .threw | .mutationThrew => true
  | _ => false

-- No load is answered while another call is active.
def Exclusive (t : Runs.Transition World Event) : Prop :=
  match t.input with
  | .load _ => ∀ other < t.before.started, ∀ call ∈ t.before.calls.get other, call.phase.active = false
  | _ => True

instance (t : Runs.Transition World Event) : Decidable (Exclusive t) := by
  unfold Exclusive
  split <;> infer_instance

def Durable (text : JsText) (t : Runs.Transition World Event) : Prop :=
  ∀ mutation, t.input = .transact mutation → mutation.Durable text

theorem withUsage_export : exportEntry (withUsage previous metadata) = exportEntry metadata := by
  unfold withUsage
  split <;> rfl

theorem Sound.withUsage (sound : Sound text keyHash metadata) : Sound text keyHash (KeyTransactions.withUsage previous metadata) := by
  unfold KeyTransactions.withUsage
  split
  · exact sound
  · exact {sound with}

theorem Sound.reads (sound : Sound text keyHash metadata) :
    metadataFromEntry text (exportEntry metadata) = {metadata with lastUsed := none, requestCount := 0} := by
  have policy : policyFromEntry text (exportEntry metadata) = metadata.policy := by
    cases held : metadata.policy with
    | none => simp [policyFromEntry,exportEntry,held,normalizePolicyScope]
    | some scope => simp [policyFromEntry,exportEntry,held,sound.settled scope held]
  simp [metadataFromEntry,policy]
  simp [exportEntry,sound.prefixed]

theorem refreshedKeys_get : (refreshedKeys text previous entries).get keyHash =
    ((refreshedKeys text .empty entries).get keyHash).map (withUsage previous) := by
  have unused (metadata : ApiKeyMetadata) : withUsage .empty metadata = metadata := by simp [withUsage]
  simp only [refreshedKeys,get_collect,unused,map_map]
  rfl

theorem refreshedKeys_view (previous : Keys) (entries : Entries) : view (refreshedKeys text previous entries) = stored text (some entries) := by
  funext keyHash
  rw [view,refreshedKeys_get,map_map]
  simp only [stored,view,bind_some]
  congr 1
  funext metadata
  exact withUsage_export

theorem refreshedKeys_sound (entries : Entries) (sound : SoundKeys text (refreshedKeys text .empty entries)) :
    SoundKeys text (refreshedKeys text previous entries) := by
  intro keyHash _ got
  rw [refreshedKeys_get] at got
  obtain ⟨held,before,rfl⟩ := map_eq_some_iff.mp got
  exact (sound keyHash held before).withUsage

section
variable (sound : SoundKeys text keys)
include sound

theorem exported_get : (refreshedKeys text .empty (exportKeysForVault keys)).get keyHash =
    (keys.get keyHash).map (fun metadata => {metadata with lastUsed := none, requestCount := 0}) := by
  have held {k : String} {entry : ApiKeyEntry} (got : (exportKeysForVault keys).get k = some entry) :
      ∃ metadata, keys.get k = some metadata ∧ exportEntry metadata = entry := by
    rw [exportKeysForVault,get_map] at got
    exact map_eq_some_iff.mp got
  have keyed : ∀ k entry, (exportKeysForVault keys).get k = some entry → entry.keyHash = k := by
    intro k entry got
    obtain ⟨metadata,before,rfl⟩ := held got
    exact (sound k metadata before).hashed
  have every : (exportKeysForVault keys).values.filter (fun entry => entry.keyHash ≠ "") = (exportKeysForVault keys).values := by
    rw [List.filter_eq_self]
    intro _ mem
    obtain ⟨k,got⟩ := mem_values.mp mem
    obtain ⟨metadata,before,rfl⟩ := held got
    have named := (sound k metadata before).named
    simpa [exportEntry,(sound k metadata before).hashed] using named
  rw [refreshedKeys,every,InsertionMap.get_collect_values keyed,exportKeysForVault,get_map,map_map]
  cases got : keys.get keyHash with
  | none => rfl
  | some metadata => simp [withUsage,(sound keyHash metadata got).reads]

theorem exported_stored : stored text (some (exportKeysForVault keys)) = view keys := by
  funext keyHash
  simp only [stored,view,bind_some,exported_get sound,map_map]
  rfl

theorem exported_sound : SoundKeys text (refreshedKeys text .empty (exportKeysForVault keys)) := by
  intro keyHash _ got
  rw [exported_get sound] at got
  obtain ⟨held,before,rfl⟩ := map_eq_some_iff.mp got
  obtain ⟨hashed,named,prefixed,settled⟩ := sound keyHash held before
  exact ⟨hashed,named,prefixed,settled⟩

end

theorem canonical_view (same : canonicalKeyJson (exportKeysForVault keys) = canonicalKeyJson (exportKeysForVault other)) :
    view keys = view other := by
  have mem (k : Keys) (entry : String × ApiKeyEntry) :
      entry ∈ canonicalKeyJson (exportKeysForVault k) ↔ view k entry.1 = some entry.2 := by
    rw [canonicalKeyJson,(List.perm_insertionSort _ _).mem_iff,view,← get_map,get_exact]
    rfl
  funext keyHash
  apply ext
  intro entry
  rw [← mem keys (keyHash,entry),same,mem]

section
variable (text : JsText) (hashKey : String → String)

@[simp] def Operation.touched : Operation → List String
  | .generateKey key _ _ _ _ _ _ => [hashKey key]
  | .rotateKey oldKeyHash key => [oldKeyHash,hashKey key]
  | .revokeKey keyHash | .reactivateKey keyHash | .updatePolicy keyHash _ | .updateTier keyHash _ => [keyHash]

@[simp] def Operation.effect (now : Nat) (operation : Operation) (v : View) : View := fun keyHash =>
  match operation with
  | .generateKey _ _ _ _ _ _ _ => ((operate text hashKey .empty now operation).toOption).bind (fun keys => view keys keyHash)
  | .rotateKey oldKeyHash key =>
    match v oldKeyHash with
    | none => v keyHash
    | some entry => if keyHash = hashKey key then some {entry with keyHash := hashKey key, keyPrefix := keyPrefix key, createdAt := now}
        else none
  | .revokeKey _ => (v keyHash).map (fun entry => {entry with isActive := false})
  | .reactivateKey _ => (v keyHash).map (fun entry => {entry with isActive := true})
  | .updatePolicy _ policy => (v keyHash).map (fun entry => {entry with
      policy := ((normalizePolicyScope text policy).toOption.bind id).map rawPolicy})
  | .updateTier _ tier => (v keyHash).map (fun entry => {entry with tier := some tier, rateLimitPerMin := tierRateLimits tier})
end

theorem modify_get : (ApiKeys.modify keys other change).get keyHash =
    if keyHash = other then (keys.get keyHash).map change else keys.get keyHash := by
  unfold ApiKeys.modify
  split
  · rename_i absent
    split
    · rename_i here
      rw [here,absent]
      rfl
    · rfl
  · rename_i _ got
    split
    · rename_i here
      rw [here,got,get_set]
      rfl
    · rename_i elsewhere
      exact get_set_ne elsewhere

theorem rotateKey_get : (rotateKey hashKey keys now other key).get keyHash = match keys.get other with
    | none => keys.get keyHash
    | some metadata => if keyHash = hashKey key then some {metadata with
          keyHash := hashKey key
          keyPrefix := keyPrefix key
          createdAt := now
          lastUsed := none
          requestCount := 0}
        else if keyHash = other then none else keys.get keyHash := by
  unfold rotateKey
  cases keys.get other with
  | none => rfl
  | some =>
    dsimp only
    split
    · rename_i here
      rw [here,get_set]
    · rename_i elsewhere
      rw [get_set_ne elsewhere,get_remove]

theorem toOption_ok {r : Except InvalidPolicyScopeError Keys} (held : r.toOption = some next) : r = .ok next := by
  cases r with
  | ok => exact congrArg _ (some.inj held)
  | error => cases held

section
variable (done : operate text hashKey keys now operation = .ok next)
include done

theorem operate_frame (untouched : keyHash ∉ Operation.touched hashKey operation) : next.get keyHash = keys.get keyHash := by
  cases operation with
  | generateKey =>
    obtain ⟨_,_,⟨⟩⟩ := bind_ok.mp done
    exact get_set_ne (by simpa using untouched)
  | rotateKey =>
    cases done
    simp only [Operation.touched,List.mem_cons,List.not_mem_nil,or_false,not_or] at untouched
    rw [rotateKey_get]
    split
    · rfl
    · rw [if_neg untouched.2,if_neg untouched.1]
  | revokeKey h | reactivateKey h | updateTier h tier =>
    cases done
    exact modify_get.trans (if_neg (by simpa using untouched))
  | updatePolicy =>
    simp only [operate,updatePolicy] at done
    split at done
    · cases done
      rfl
    · obtain ⟨_,_,⟨⟩⟩ := bind_ok.mp done
      exact modify_get.trans (if_neg (by simpa using untouched))

theorem operate_exact (touched : keyHash ∈ Operation.touched hashKey operation) :
    view next keyHash = Operation.effect text hashKey now operation (view keys) keyHash := by
  cases operation with
  | generateKey =>
    obtain ⟨normalized,normal,⟨⟩⟩ := bind_ok.mp done
    simp only [Operation.touched,List.mem_singleton] at touched
    subst touched
    simp [view,operate,generateKey,normal,bind,Except.bind,Except.toOption]
  | rotateKey oldKeyHash =>
    cases done
    simp only [view,rotateKey_get,Operation.effect]
    cases keys.get oldKeyHash with
    | none => rfl
    | some =>
      dsimp only [Option.map_some]
      split
      · rfl
      · rename_i elsewhere
        simp only [Operation.touched,List.mem_cons,List.not_mem_nil,or_false,elsewhere] at touched
        rw [if_pos touched]
        rfl
  | revokeKey h | reactivateKey h | updateTier h tier =>
    cases done
    simp only [Operation.touched,List.mem_singleton] at touched
    subst touched
    simp only [view,Operation.effect,revokeKey,reactivateKey,updateTier,modify_get,if_true,map_map]
    rfl
  | updatePolicy =>
    simp only [Operation.touched,List.mem_singleton] at touched
    subst touched
    simp only [operate,updatePolicy] at done
    split at done
    · rename_i absent
      cases done
      simp [view,absent]
    · obtain ⟨normalized,normal,⟨⟩⟩ := bind_ok.mp done
      simp only [view,Operation.effect,modify_get,if_true,map_map,normal,Except.toOption,bind_some,id]
      rfl

end

def Mutation.ofOperation (text : JsText) (hashKey : String → String) (now : Nat) (operation : Operation) : Mutation where
  touched := Operation.touched hashKey operation
  run := fun keys => (operate text hashKey keys now operation).toOption
  effect := Operation.effect text hashKey now operation
  frame := fun ran untouched => operate_frame (toOption_ok ran) untouched
  exact := fun ran touched => operate_exact (toOption_ok ran) touched
  within := by
    intro v w same keyHash touched
    have here := same keyHash touched
    cases operation with
    | generateKey _ _ _ _ _ _ _ => rfl
    | rotateKey oldKeyHash key =>
      simp only [Operation.effect,here,same oldKeyHash (by simp)]
    | revokeKey _ | reactivateKey _ | updatePolicy _ _ | updateTier _ _ => simp only [Operation.effect,here]

structure Cleaned (text : JsText) (names : List String) : Prop where
  distinct : names.Nodup
  trimmed : ∀ name ∈ names, text.trim name = name
  named : "" ∉ names

theorem cleanEntries_cleaned (before : Cleaned text cleaned)
    (done : cleanEntries text field items cleaned = .ok values) : Cleaned text values := by
  induction items generalizing cleaned with
  | nil =>
    cases done
    exact before
  | cons item _ ih =>
    cases item with
    | str value =>
      simp only [cleanEntries] at done
      split at done
      · cases done
      · rename_i named
        refine ih ?_ done
        split
        · exact before
        · rename_i fresh
          refine ⟨?_,?_,?_⟩
          · rw [List.nodup_append]
            refine ⟨before.distinct,List.nodup_singleton _,?_⟩
            rintro a held b mem rfl
            rw [List.mem_singleton] at mem
            exact fresh (mem ▸ held)
          · intro name mem
            rcases Runs.mem_snoc.mp mem with held | new
            · exact before.trimmed name held
            · rw [new]
              exact text.trim_trim value
          · intro mem
            rcases Runs.mem_snoc.mp mem with held | new
            · exact before.named held
            · exact named new.symm
    | null | bool _ | num _ | arr _ | obj _ => cases done

theorem cleanEntries_exact (clean : Cleaned text (cleaned ++ names)) :
    cleanEntries text field (names.map .str) cleaned = .ok (cleaned ++ names) := by
  induction names generalizing cleaned with
  | nil => simp [cleanEntries]
  | cons name rest ih =>
    have trimmed := clean.trimmed name (by simp)
    have named : name ≠ "" := by
      rintro rfl
      exact clean.named (by simp)
    have fresh : name ∉ cleaned := by
      intro held
      exact (List.nodup_append.mp clean.distinct).2.2 name held name (by simp) rfl
    have shift : cleaned ++ name :: rest = (cleaned ++ [name]) ++ rest := by simp
    rw [shift] at clean ⊢
    rw [List.map_cons,cleanEntries,trimmed,if_neg named,if_neg fresh]
    exact ih clean

theorem normalizeDimension_settles (done : normalizeDimension text value field = .ok names) :
    normalizeDimension text (names.map (fun names => .arr (names.map .str))) field = .ok names := by
  cases names with
  | none => rfl
  | some names =>
    unfold normalizeDimension at done
    split at done
    · cases done
    · cases done
    · rename_i items
      simp only [bind_ok,Except.ok.injEq] at done
      obtain ⟨_,run,kept⟩ := done
      split at kept
      · rename_i filled
        cases kept
        have clean := cleanEntries_cleaned ⟨List.nodup_nil,by simp,by simp⟩ run
        have again : cleanEntries text field (names.map .str) [] = .ok names := cleanEntries_exact (by simpa using clean)
        simp [normalizeDimension,again,bind,Except.bind,filled]
      · cases kept
    · cases done

theorem normalizeTime_settles (pos : ∀ ms ∈ time, 0 < ms) :
    normalizeTime (time.map (fun (ms : Nat) => .num (.finite ms))) field = .ok time := by
  cases time with
  | none => rfl
  | some ms =>
    have above : ¬ ((ms : ℚ) ≤ 0) := by
      have counted := pos ms rfl
      rw [Rat.not_le]
      exact_mod_cast counted
    have whole : (ms : ℚ).floor.toNat = ms := by
      rw [← Rat.intCast_natCast,Rat.floor_intCast]
      rfl
    simp [normalizeTime,above,whole]

theorem normalizePolicyScope_settles (done : normalizePolicyScope text policy = .ok (some scope))
    (effective : ∀ ms ∈ scope.effectiveAt, 0 < ms) (expires : ∀ ms ∈ scope.expiresAt, 0 < ms) :
    normalizePolicyScope text (some (rawPolicy scope)) = .ok (some scope) := by
  cases policy with
  | none => cases done
  | some =>
    simp only [normalizePolicyScope,bind_ok,require_ok] at done
    obtain ⟨_,first,_,second,_,third,_,_,_,_,_,ordered,done⟩ := done
    split at done
    · cases done
    · rename_i filled
      cases done
      simp only [normalizePolicyScope,rawPolicy,normalizeDimension_settles first,normalizeDimension_settles second,
        normalizeDimension_settles third,normalizeTime_settles effective,normalizeTime_settles expires,bind,Except.bind,
        require,if_pos ordered,if_neg filled]

-- What keeps an operation from storing something that does not read back.
def Operation.Lasting (text : JsText) (hashKey : String → String) : Operation → Prop
  | .generateKey key _ _ _ _ _ policy => (hashKey key ≠ "" ∧ key ≠ "") ∧ Kept policy
  | .rotateKey _ key => hashKey key ≠ "" ∧ key ≠ ""
  | .updatePolicy _ policy => Kept policy
  | .revokeKey _ | .reactivateKey _ | .updateTier _ _ => True
where
  Kept (policy : Option RawPolicy) : Prop := ∀ scope, normalizePolicyScope text policy = .ok (some scope) →
    (∀ ms ∈ scope.effectiveAt, 0 < ms) ∧ (∀ ms ∈ scope.expiresAt, 0 < ms)

theorem keyPrefix_named (named : key ≠ "") : keyPrefix key ≠ "" := by
  intro empty
  apply named
  rw [keyPrefix,← String.ofList_nil,String.ofList_inj,List.take_eq_nil_iff] at empty
  simpa using empty

theorem modify_sound (sound : SoundKeys text keys)
    (keeps : ∀ metadata, Sound text keyHash metadata → Sound text keyHash (change metadata)) :
    SoundKeys text (ApiKeys.modify keys keyHash change) := by
  intro other metadata got
  rw [modify_get] at got
  split at got
  · rename_i here
    subst here
    obtain ⟨before,held,rfl⟩ := map_eq_some_iff.mp got
    exact keeps before (sound other before held)
  · exact sound other metadata got

theorem Kept.settled (kept : Operation.Lasting.Kept text policy) (normal : normalizePolicyScope text policy = .ok normalized) :
    ∀ scope ∈ normalized, normalizePolicyScope text (some (rawPolicy scope)) = .ok (some scope) := by
  rintro scope rfl
  obtain ⟨effective,expires⟩ := kept scope normal
  exact normalizePolicyScope_settles normal effective expires

theorem ofOperation_durable (lasting : Operation.Lasting text hashKey operation) :
    (Mutation.ofOperation text hashKey now operation).Durable text := by
  intro keys next ran sound
  have done : operate text hashKey keys now operation = .ok next := toOption_ok ran
  cases operation with
  | generateKey =>
    obtain ⟨⟨hashed,named⟩,kept⟩ := lasting
    obtain ⟨normalized,normal,⟨⟩⟩ := bind_ok.mp done
    intro other metadata got
    rcases get_set_some.mp got with ⟨rfl,rfl⟩ | ⟨_,got⟩
    · exact ⟨rfl,hashed,keyPrefix_named named,Kept.settled kept normal⟩
    · exact sound other metadata got
  | rotateKey oldKeyHash =>
    cases done
    intro other metadata got
    rw [rotateKey_get] at got
    cases held : keys.get oldKeyHash with
    | none =>
      rw [held] at got
      exact sound other metadata got
    | some before =>
      rw [held] at got
      dsimp only at got
      split at got
      · rename_i here
        cases got
        exact ⟨here.symm,here ▸ lasting.1,keyPrefix_named lasting.2,(sound oldKeyHash before held).settled⟩
      · split at got
        · cases got
        · exact sound other metadata got
  | revokeKey h | reactivateKey h | updateTier h tier =>
    cases done
    exact modify_sound sound (fun _ before => {before with})
  | updatePolicy =>
    simp only [operate,updatePolicy] at done
    split at done
    · cases done
      exact sound
    · obtain ⟨normalized,normal,⟨⟩⟩ := bind_ok.mp done
      exact modify_sound sound (fun _ before => ⟨before.hashed,before.named,before.prefixed,Kept.settled lasting normal⟩)

end StellarPriceOracle.KeyTransactions
