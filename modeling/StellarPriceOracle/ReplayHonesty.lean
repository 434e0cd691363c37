import StellarPriceOracle.Library.Json
import StellarPriceOracle.Library.JsNumber
import StellarPriceOracle.Library.JsText
import StellarPriceOracle.WsReplay

namespace StellarPriceOracle.ReplayHonesty
open Guarded WsReplay
open List
open Runs (Run)

-- api/src/infrastructure/server.ts, the buffering of broadcasts and the replay handler.
structure WsConfig where
  (bufferSize bufferMaxAssets bufferMaxBytes replayMaxMessages replayMaxBytes replayRateLimit : Nat)
  replayRateWindowMs : Int

def WsConfig.replayBounds (config : WsConfig) : ReplayBounds := ⟨config.replayMaxMessages,config.replayMaxBytes⟩

structure Server (α : Type) where
  sequence : Nat
  replayBuffer : ReplayBuffer α
  replayLimiter : ReplayRateLimiter
  history : List (BufferedMessage α)

def Server.boot (config : WsConfig) (sequence : Nat) (history : List (BufferedMessage α)) : Server α :=
  ⟨sequence,.create config.bufferMaxAssets config.bufferSize config.bufferMaxBytes,
    ⟨config.replayRateLimit,config.replayRateWindowMs,.empty⟩,history⟩

structure Connection where
  key : String
  subscribed : List String

structure ReplayRequest where
  (lastSequenceId assets : Option (Json JsNumber))

structure WsError where
  code : Option String
  message : String
  deriving DecidableEq

structure ReplayComplete where
  (replayed sequenceId lastSequenceId : Nat)
  truncated : Bool
  remaining : Nat
  gapDetected : Bool
  oldestReplayableSequence : Option Nat
  deriving DecidableEq

structure Replayed (α : Type) where
  sent : List (BufferedMessage α)
  complete : Option ReplayComplete

-- `/^([A-Z0-9]{1,12}|C[A-Z2-7]{55})$/`.
def upperOrDigit (low high : Char) (c : Char) : Bool :=
  ('A'.toNat ≤ c.toNat && c.toNat ≤ 'Z'.toNat) || (low.toNat ≤ c.toNat && c.toNat ≤ high.toNat)

def assetRe (s : String) : Bool :=
  (1 ≤ s.length && s.length ≤ 12 && s.toList.all (upperOrDigit '0' '9')) ||
    (s.length = 56 && s.toList.head? = some 'C' && s.toList.tail.all (upperOrDigit '2' '7'))

section
variable (text : JsText)

-- api/src/governance/sanitization.ts.
def validAsset : Json JsNumber → Option String
  | .str a => if a.length ≤ 56 ∧ assetRe (text.toUpperCase a) = true then some a else none
  | _ => none

def validateWsAssets : Json JsNumber → Option (List String)
  | .arr items => if items.length ≤ 50 then items.mapM (validAsset text) else none
  | _ => none

def readSequence : Option (Json JsNumber) → Option Nat
  | some (.num (.finite q)) => if q < 0 ∨ q.den ≠ 1 then none else some q.num.toNat
  | _ => none

def readReplay (subscribed : List String) (request : ReplayRequest) : Except WsError (Nat × List String) := do
  let last ← someOr (readSequence request.lastSequenceId) ⟨none,"replay requires numeric lastSequenceId"⟩
  match request.assets with
  | none => .ok (last,subscribed)
  | some given => do
    let assets ← someOr (validateWsAssets text given) ⟨none,"Invalid assets for replay"⟩
    .ok (last,(assets.map text.toUpperCase).filter (fun a => decide (a ∈ subscribed)))

variable {α : Type} (size : α → Nat) (config : WsConfig)

section
variable (s : Server α)

def rateLimited : WsError :=
  ⟨some "REPLAY_RATE_LIMITED","replay is limited to " ++ toString config.replayRateLimit ++ " requests per " ++
    toString config.replayRateWindowMs ++ "ms; resubscribe to resume from " ++ toString s.sequence⟩

def answerReplay (last : Nat) (scopeAssets : List String) (closes : Option Nat) : Replayed α :=
  let window := collectReplayWindow size (s.replayBuffer.sources (some scopeAssets) none) last config.replayBounds none
  let sent := (closes.map window.messages.take).getD window.messages
  let oldestReplayableSequence := s.replayBuffer.oldestSequence (some scopeAssets)
  let complete : ReplayComplete :=
    ⟨sent.length,s.sequence,(sent.getLast?.map BufferedMessage.sequenceId).getD last,window.truncated,window.remaining,
      oldestReplayableSequence.any (fun (oldest : Nat) => decide ((last : Int) < oldest - 1)),oldestReplayableSequence⟩
  ⟨sent,if closes.all (fun n => decide (window.messages.length < n)) then some complete else none⟩

-- The limiter counts a request that it lets through.
def handleReplay (connection : Connection) (now : Int) (request : ReplayRequest) (closes : Option Nat) :
    Except (WsError × Server α) (Replayed α × Server α) := do
  let cursor ← keeping (readReplay text connection.subscribed request) id s
  let decision := s.replayLimiter.allow connection.key now
  let counted := {s with replayLimiter := decision.2}
  require (decision.1 = true) (rateLimited config counted,counted)
  .ok (answerReplay size config counted cursor.1 cursor.2 closes,counted)

def broadcastKey (asset : Option String) : String :=
  match asset.map text.toUpperCase with
  | none => "_global"
  | some key => if key = "" then "_global" else key

def bufferMessage (seq : Nat) (asset : String) (time : Nat) (data : α) : Server α :=
  let entry : BufferedMessage α := ⟨seq,asset,time,data⟩
  {s with sequence := seq,replayBuffer := s.replayBuffer.push size asset entry,history := s.history ++ [entry]}

inductive Event (α : Type) where
  | broadcast (seq : Nat) (asset : Option String) (time : Nat) (data : α)
  | replay (connection : Connection) (now : Int) (request : ReplayRequest) (closes : Option Nat)
  | restart

inductive Invalid where
  | notIncreasing
  deriving DecidableEq

def step : Event α → Except Invalid (Server α)
  | .broadcast seq asset time data => do
    require (s.sequence < seq) .notIncreasing
    .ok (bufferMessage size s seq (broadcastKey text asset) time data)
  | .replay connection now request closes => .ok (stateOf (handleReplay text size config s connection now request closes))
  | .restart => .ok (Server.boot config s.sequence s.history)

end

end

section
variable {α : Type} {text : JsText} {size : α → Nat} {config : WsConfig} {s next : Server α} {sequence : Nat}

section
variable (s : Server α)

def Server.broadcasts (asset : String) : List (BufferedMessage α) := s.history.filter (fun m => decide (m.asset = asset))

def Server.lost (asset : String) : List (BufferedMessage α) :=
  (s.broadcasts asset).take ((s.broadcasts asset).length - (s.replayBuffer.held asset).length)

def Server.pending (scope : List String) (last : Nat) : List (BufferedMessage α) :=
  candidates (scope.map s.replayBuffer.held) last none

-- The report shows neither truncation nor a gap only if nothing is missing.
def Honest (scope : List String) (last : Nat) (sent : List (BufferedMessage α)) (complete : ReplayComplete) : Prop :=
  complete.truncated = false → complete.gapDetected = false →
    ∀ m ∈ s.history, m.asset ∈ scope → last < m.sequenceId → m ∈ sent

end

-- A buffer holds the latest broadcasts of its asset, and sequence ids grow.
structure Stored (s : Server α) : Prop where
  latest : ∀ asset, s.replayBuffer.held asset <:+ s.broadcasts asset
  ordered : s.history.Pairwise (fun a b => a.sequenceId < b.sequenceId)
  below : ∀ m ∈ s.history, m.sequenceId ≤ s.sequence

theorem stored_boot : Stored (Server.boot config sequence [] : Server α) :=
  ⟨fun _ => nil_suffix,.nil,nofun⟩

theorem bufferMessage_stored (has : Stored s) (later : s.sequence < seq) : Stored (bufferMessage size s seq asset time data) := by
  constructor
  · intro other
    refine (ReplayBuffer.push_held).trans ?_
    obtain ⟨before,whole⟩ := has.latest other
    simp only [Server.broadcasts] at whole
    simp only [Server.broadcasts,bufferMessage,filter_append,← whole]
    rcases eq_or_ne other asset with rfl | here
    · exact ⟨before,by simp⟩
    · have apart : ¬ asset = other := fun same => here same.symm
      exact ⟨before,by simp [here,apart]⟩
  · refine pairwise_append.mpr ⟨has.ordered,pairwise_singleton _ _,?_⟩
    intro m old new here
    rw [mem_singleton.mp here]
    exact Nat.lt_of_le_of_lt (has.below m old) later
  · intro m given
    rcases Runs.mem_snoc.mp given with old | new
    · exact Nat.le_of_lt (Nat.lt_of_le_of_lt (has.below m old) later)
    · rw [new]
      exact Nat.le_refl _

theorem handleReplay_keeps : ∃ replayLimiter, stateOf (handleReplay text size config s connection now request closes) = {s with replayLimiter} := by
  unfold handleReplay
  apply stateOf_keeping (P := fun (after : Server α) => ∃ replayLimiter, after = {s with replayLimiter})
  · exact ⟨_,rfl⟩
  · intro _ _
    apply stateOf_require (P := fun (after : Server α) => ∃ replayLimiter, after = {s with replayLimiter})
    · exact ⟨_,rfl⟩
    · exact fun _ => ⟨_,rfl⟩

theorem step_stored (has : Stored s) (taken : step text size config s e = .ok next) : Stored next := by
  cases e with
  | broadcast =>
    obtain ⟨later,⟨⟩⟩ := guard_ok.mp taken
    exact bufferMessage_stored has later
  | replay connection now request closes =>
    cases taken
    obtain ⟨replayLimiter,same⟩ : ∃ replayLimiter, stateOf (handleReplay text size config s connection now request closes) = _ :=
      handleReplay_keeps
    rw [same]
    exact {has with}
  | restart =>
    cases taken
    exact ⟨fun _ => nil_suffix,has.ordered,has.below⟩

theorem Stored.split (has : Stored s) (asset : String) : s.broadcasts asset = s.lost asset ++ s.replayBuffer.held asset := by
  obtain ⟨before,whole⟩ := has.latest asset
  have cut : s.lost asset = before := by
    rw [Server.lost,← whole]
    simp
  rw [cut,whole]

theorem mem_broadcasts : m ∈ s.broadcasts asset ↔ m ∈ s.history ∧ m.asset = asset := by
  simp [Server.broadcasts]

theorem mem_pending : m ∈ s.pending scope last ↔ (∃ asset ∈ scope, m ∈ s.replayBuffer.held asset) ∧ last < m.sequenceId := by
  simp only [Server.pending,candidates,mem_filter,mem_flatten,mem_map,Option.all_none,Bool.and_true,decide_eq_true_eq]
  constructor
  · rintro ⟨⟨_,⟨asset,among,rfl⟩,mem⟩,past⟩
    exact ⟨⟨asset,among,mem⟩,past⟩
  · rintro ⟨⟨asset,among,mem⟩,past⟩
    exact ⟨⟨_,⟨asset,among,rfl⟩,mem⟩,past⟩

theorem Stored.gone (has : Stored s) (left : m ∈ s.lost asset) : m ∉ s.replayBuffer.held asset := by
  intro mem
  have ordered : (s.broadcasts asset).Pairwise (fun a b => a.sequenceId < b.sequenceId) := has.ordered.filter _
  rw [has.split asset,pairwise_append] at ordered
  exact Nat.lt_irrefl _ (ordered.2.2 m left m mem)

theorem Stored.complete (has : Stored s) (scope : List String) (last : Nat) :
    (∀ m ∈ s.history, m.asset ∈ scope → last < m.sequenceId → m ∈ s.pending scope last) ↔
      ∀ asset ∈ scope, ∀ m ∈ s.lost asset, m.sequenceId ≤ last := by
  constructor
  · intro all asset among m left
    obtain ⟨given,here⟩ := mem_broadcasts.mp (has.split asset ▸ mem_append_left _ left : m ∈ s.broadcasts asset)
    apply Nat.le_of_not_lt
    intro past
    obtain ⟨⟨other,_,mem⟩,_⟩ := mem_pending.mp (all m given (here ▸ among) past)
    have there := (mem_broadcasts.mp ((has.latest other).subset mem)).2
    rw [← there,here] at mem
    exact has.gone left mem
  · intro kept m given among past
    have whole : m ∈ s.lost m.asset ++ s.replayBuffer.held m.asset := has.split m.asset ▸ mem_broadcasts.mpr ⟨given,rfl⟩
    rcases mem_append.mp whole with left | mem
    · exact absurd past (Nat.not_lt.mpr (kept m.asset among m left))
    · exact mem_pending.mpr ⟨⟨m.asset,among,mem⟩,past⟩

theorem answerReplay_delivered (delivered : (answerReplay size config s last scope closes).complete = some complete) :
    (answerReplay size config s last scope closes).sent =
        (collectReplayWindow size (scope.map s.replayBuffer.held) last config.replayBounds none).messages ∧
      complete.truncated = (collectReplayWindow size (scope.map s.replayBuffer.held) last config.replayBounds none).truncated ∧
      (complete.gapDetected = true ↔ Beyond last (scope.map s.replayBuffer.held)) := by
  have same : s.replayBuffer.sources (some scope) none = scope.map s.replayBuffer.held := by simp [ReplayBuffer.sources]
  simp only [answerReplay,same] at delivered ⊢
  split at delivered
  · rename_i stayed
    cases delivered
    refine ⟨?_,rfl,?_⟩
    · cases closes with
      | none => rfl
      | some =>
        simp only [Option.all_some,decide_eq_true_eq] at stayed
        exact take_of_length_le (Nat.le_of_lt stayed)
    · rw [← oldestSequence_beyond]
      have shifted (n : Nat) : (last : Int) < (n : Int) - 1 ↔ last + 1 < n := by omega
      simp [shifted]
  · cases delivered

-- Nothing past the cursor is lost, or what is left exceeds the bounds or is past the next message.
def Accounted (size : α → Nat) (config : WsConfig) (s : Server α) (scope : List String) (last : Nat) : Prop :=
  (∀ asset ∈ scope, ∀ m ∈ s.lost asset, m.sequenceId ≤ last) ∨ ¬ Fits size config.replayBounds (s.pending scope last) ∨
    Beyond last (scope.map s.replayBuffer.held)

theorem answerReplay_honest (has : Stored s) (delivered : (answerReplay size config s last scope closes).complete = some complete) :
    Honest s scope last (answerReplay size config s last scope closes).sent complete ↔ Accounted size config s scope last := by
  obtain ⟨sent,truncated,gap⟩ := answerReplay_delivered delivered
  have fits : complete.truncated = false ↔ Fits size config.replayBounds (s.pending scope last) := by
    rw [truncated]
    exact collectReplayWindow_fits
  rw [Accounted,← has.complete,Honest,sent]
  by_cases whole : complete.truncated = false
  · have out (m : BufferedMessage α) : m ∈ (collectReplayWindow size (scope.map s.replayBuffer.held) last config.replayBounds none).messages ↔
        m ∈ s.pending scope last := collectReplayWindow_all (truncated ▸ whole)
    simp only [out,whole,fits.mp whole,not_true_eq_false,false_or,true_implies,← gap]
    by_cases shown : complete.gapDetected = true
    · simp [shown]
    · simp [shown]
  · have exceeds : ¬ Fits size config.replayBounds (s.pending scope last) := fun fit => whole (fits.mpr fit)
    exact iff_of_true (fun not => absurd not whole) (.inr (.inl exceeds))

theorem handleReplay_parts (read : readReplay text connection.subscribed request = .ok (last,scope))
    (answered : handleReplay text size config s connection now request closes = .ok (replayed,next)) :
    ∃ replayLimiter, next = {s with replayLimiter} ∧ replayed = answerReplay size config {s with replayLimiter} last scope closes := by
  simp only [handleReplay,keeping,read,Except.mapError,ok_bind,bind_ok,require_ok,Except.ok.injEq,Prod.mk.injEq] at answered
  obtain ⟨_,_,rfl,rfl⟩ := answered
  exact ⟨_,rfl,rfl⟩

-- A report is honest exactly when what it leaves out is accounted for.
theorem replay_honest_exact (path : Run (step text size config) (Server.boot config sequence []) ts s)
    (read : readReplay text connection.subscribed request = .ok (last,scope))
    (answered : handleReplay text size config s connection now request closes = .ok (replayed,next))
    (delivered : replayed.complete = some complete) :
    Honest s scope last replayed.sent complete ↔ Accounted size config s scope last := by
  have stored : Stored s := path.invariant_of (fun _ _ => trivial) stored_boot (fun t _ taken stored => step_stored stored taken)
  obtain ⟨replayLimiter,_,rfl⟩ := handleReplay_parts read answered
  exact answerReplay_honest (s := {s with replayLimiter}) {stored with} delivered

end

namespace Sample

def config : WsConfig := ⟨1,64,8388608,200,262144,10,60000⟩

def size : Nat → Nat := fun _ => 20

def boot : Server Nat := .boot config 0 []

def broadcast (seq : Nat) (asset : String) : Event Nat := .broadcast seq (some asset) 0 seq

def after (s : Server Nat) (seq : Nat) (asset : String) : Server Nat := bufferMessage size s seq asset 0 seq

def one : Server Nat := after boot 1 "XLM"

def two : Server Nat := after one 2 "BTC"

def three : Server Nat := after two 3 "BTC"

def connection : Connection := ⟨"10.0.0.1#1",["XLM","BTC"]⟩

def request : ReplayRequest := ⟨some (.num 0),none⟩

theorem two_reached : ∃ ts, Run (step JsText.plain size config) boot ts two :=
  ⟨_,.snoc (i := broadcast 2 "BTC") (.snoc (i := broadcast 1 "XLM") .nil rfl) rfl⟩

theorem three_reached : ∃ ts, Run (step JsText.plain size config) boot ts three := by
  obtain ⟨ts,path⟩ := two_reached
  exact ⟨_,.snoc (i := broadcast 3 "BTC") path rfl⟩

end Sample

open Sample

theorem complete_replay_honest : ∃ ts replayed next complete,
    Run (step JsText.plain size config) boot ts two ∧
    handleReplay JsText.plain size config two connection 0 request none = .ok (replayed,next) ∧
    replayed.complete = some complete ∧ Honest two ["XLM","BTC"] 0 replayed.sent complete := by
  obtain ⟨ts,path⟩ := two_reached
  have read : readReplay JsText.plain connection.subscribed request = .ok (0,["XLM","BTC"]) := rfl
  have answered : handleReplay JsText.plain size config two connection 0 request none =
      .ok (_,_) := rfl
  refine ⟨ts,_,_,_,path,answered,rfl,(replay_honest_exact path read answered rfl).mpr (.inl ?_)⟩
  intro asset among m left
  have none : ["XLM","BTC"].all (fun asset => (two.lost asset).isEmpty) = true := rfl
  have empty := all_eq_true.mp none asset among
  rw [isEmpty_iff.mp empty] at left
  cases left

-- Message 2 has been lost behind message 3, and message 1 of the other asset hides it.
theorem masked_loss_unreported : ∃ ts replayed next complete,
    Run (step JsText.plain size config) boot ts three ∧
    handleReplay JsText.plain size config three connection 0 request none = .ok (replayed,next) ∧
    replayed.complete = some complete ∧ ¬ Honest three ["XLM","BTC"] 0 replayed.sent complete := by
  obtain ⟨ts,path⟩ := three_reached
  have answered : handleReplay JsText.plain size config three connection 0 request none =
      .ok (_,_) := rfl
  refine ⟨ts,_,_,_,path,answered,rfl,?_⟩
  intro honest
  have sent := honest rfl rfl ⟨2,"BTC",0,2⟩ (by decide) (by decide) (by decide)
  revert sent
  decide

end StellarPriceOracle.ReplayHonesty
