import StellarPriceOracle.Library.InsertionMap
import StellarPriceOracle.Library.JsNumber
import StellarPriceOracle.Library.Runs

namespace StellarPriceOracle.FeedPublishing
open Guarded
open Runs (Transition Run)
open InsertionMap (get_set_ne get_set)

-- replication/region-price-replicator.ts: who may publish a feed. Epochs are integers.
structure FeedOwnershipConfig where
  (feed primaryRegion failoverRegion : String)
  deriving DecidableEq

structure FeedOwnership where
  (feed primaryRegion failoverRegion activeRegion : String)
  epoch : Int
  deriving DecidableEq

inductive RegistryError where
  | duplicateEntry (feed : String)
  | sameRegions (feed : String)
  | notConfigured (region feed : String)
  deriving DecidableEq

abbrev FeedOwnershipRegistry := InsertionMap String FeedOwnership

section
variable (initialEpoch : Int)

def register (feeds : FeedOwnershipRegistry) (entry : FeedOwnershipConfig) : Except RegistryError FeedOwnershipRegistry := do
  require (feeds.get entry.feed = none) (.duplicateEntry entry.feed)
  require (entry.primaryRegion ≠ entry.failoverRegion) (.sameRegions entry.feed)
  .ok (feeds.set entry.feed ⟨entry.feed,entry.primaryRegion,entry.failoverRegion,entry.primaryRegion,initialEpoch⟩)

def construct (entries : List FeedOwnershipConfig) : Except RegistryError FeedOwnershipRegistry :=
  entries.foldlM (register initialEpoch) .empty

def transfer (feeds : FeedOwnershipRegistry) (feed region : String) :
    Except RegistryError (Option FeedOwnership × FeedOwnershipRegistry) :=
  match feeds.get feed with
  | none => .ok (none,feeds)
  | some ownership => do
    require (¬ (region ≠ ownership.primaryRegion ∧ region ≠ ownership.failoverRegion)) (.notConfigured region feed)
    if ownership.activeRegion = region then .ok (some ownership,feeds)
    else
      let moved := {ownership with activeRegion := region, epoch := Double.addInt ownership.epoch 1}
      .ok (some moved,feeds.set feed moved)

inductive DenialReason where
  | unknownFeed | notOwner | staleEpoch
  deriving DecidableEq

structure PublishDecision where
  allowed : Bool
  epoch : Int
  reason : Option DenialReason
  deriving DecidableEq

structure PublisherAuthority where
  observedEpochs : InsertionMap String Int
  region : String

@[simp] def currentEpoch (authority : PublisherAuthority) (feed : String) : Int := (authority.observedEpochs.get feed).getD 0

def observeEpoch (authority : PublisherAuthority) (feed : String) (epoch : Int) : Bool × PublisherAuthority :=
  let current := currentEpoch authority feed
  if epoch < current then (false,authority)
  else if epoch > current then (true,{authority with observedEpochs := authority.observedEpochs.set feed epoch})
  else (true,authority)

def authorize (registry : FeedOwnershipRegistry) (authority : PublisherAuthority) (feed : String)
    (epoch : Option Int) : PublishDecision :=
  match registry.get feed with
  | none => ⟨false,currentEpoch authority feed,some .unknownFeed⟩
  | some ownership =>
    let effectiveEpoch := epoch.getD ownership.epoch
    let observed := currentEpoch authority feed
    if effectiveEpoch < observed ∨ effectiveEpoch < ownership.epoch then ⟨false,observed,some .staleEpoch⟩
    else if ownership.activeRegion ≠ authority.region then ⟨false,effectiveEpoch,some .notOwner⟩
    else ⟨true,effectiveEpoch,none⟩

-- Every region may run its own authority over the one registry.
structure System where
  registry : FeedOwnershipRegistry
  authorities : String → PublisherAuthority

def System.fresh (registry : FeedOwnershipRegistry) : System := ⟨registry,fun region => ⟨.empty,region⟩⟩

inductive Call where
  | transfer (feed region : String)
  | observeEpoch (region feed : String) (epoch : Int)
  | authorize (region feed : String)
  deriving DecidableEq

def step (s : System) : Call → Except RegistryError System
  | .transfer feed region => do
    let (_,registry) ← transfer s.registry feed region
    .ok {s with registry}
  | .observeEpoch region feed epoch =>
    .ok {s with authorities := Function.update s.authorities region (observeEpoch (s.authorities region) feed epoch).2}
  | .authorize _ _ => .ok s

def decision (s : System) (region feed : String) : PublishDecision :=
  authorize s.registry (s.authorities region) feed none

@[simp] def activeRegionOf (s : System) (feed : String) : Option String := (s.registry.get feed).map FeedOwnership.activeRegion

@[simp] def changedOwner (feed : String) (t : Transition System Call) : Bool :=
  match t.input with
  | .transfer moved _ => moved = feed ∧ activeRegionOf t.before feed ≠ activeRegionOf t.after feed
  | _ => false

def changes (feed : String) (ts : List (Transition System Call)) : Nat := ts.countP (changedOwner feed)

-- No feed's epoch leaves the integers that a double holds.
structure SafeEpochs (ts : List (Transition System Call)) : Prop where
  above : -2^53 < initialEpoch
  below : ∀ feed, initialEpoch + changes feed ts < 2^53

-- The abstract owner: primary and failover take turns, and their number fixes the record.
def publisherAt (entry : FeedOwnershipConfig) (turns : Nat) : String :=
  if turns % 2 = 0 then entry.primaryRegion else entry.failoverRegion

@[simp] def ownershipAfter (turns : Nat) (entry : FeedOwnershipConfig) : FeedOwnership :=
  ⟨entry.feed,entry.primaryRegion,entry.failoverRegion,publisherAt entry turns,initialEpoch + turns⟩

end

def configured (entries : List FeedOwnershipConfig) (feed : String) : Option FeedOwnershipConfig :=
  entries.find? (fun entry => entry.feed = feed)

theorem publisherAt_configured : publisherAt entry turns = entry.primaryRegion ∨ publisherAt entry turns = entry.failoverRegion := by
  unfold publisherAt
  split
  · exact .inl rfl
  · exact .inr rfl

theorem publisherAt_next (owner : region = entry.primaryRegion ∨ region = entry.failoverRegion)
    (changed : publisherAt entry turns ≠ region) : publisherAt entry (turns + 1) = region := by
  unfold publisherAt at changed ⊢
  rcases Nat.mod_two_eq_zero_or_one turns with even | _
  · rw [if_pos even] at changed
    rw [if_neg (by omega)]
    exact (owner.resolve_left changed.symm).symm
  · rw [if_neg (by omega)] at changed
    rw [if_pos (by omega)]
    exact (owner.resolve_right changed.symm).symm

theorem registered {feeds registry : FeedOwnershipRegistry}
    (built : entries.foldlM (register initialEpoch) feeds = .ok registry) (feed : String) :
    registry.get feed = (feeds.get feed).or ((configured entries feed).map (ownershipAfter initialEpoch 0)) := by
  induction entries generalizing feeds with
  | nil =>
    cases built
    simp [configured]
  | cons entry _ ih =>
    obtain ⟨_,added,built⟩ := bind_ok.mp built
    simp only [register,bind_ok,require_ok] at added
    obtain ⟨_,absent,_,_,added⟩ := added
    cases added
    rw [ih built]
    rcases eq_or_ne entry.feed feed with rfl | here
    · simp [absent,configured,publisherAt]
    · simp [here,configured,get_set_ne (Ne.symm here)]

theorem constructed (built : construct initialEpoch entries = .ok registry) (feed : String) :
    registry.get feed = (configured entries feed).map (ownershipAfter initialEpoch 0) := by
  simpa using registered built feed

theorem transfer_frame (done : transfer feeds moved region = .ok (answer,next)) (apart : feed ≠ moved) :
    next.get feed = feeds.get feed := by
  unfold transfer at done
  split at done
  · cases done
    rfl
  · obtain ⟨_,done⟩ := guard_ok.mp done
    split at done
    · cases done
      rfl
    · cases done
      exact get_set_ne apart

theorem transfer_unknown (done : transfer feeds feed region = .ok (answer,next)) (unknown : feeds.get feed = none) :
    next = feeds := by
  simp only [transfer,unknown] at done
  cases done
  rfl

theorem transfer_turn (done : transfer feeds feed region = .ok (answer,next))
    (held : feeds.get feed = some (ownershipAfter initialEpoch turns entry)) :
    (publisherAt entry turns = region ∧ next = feeds) ∨
    (publisherAt entry turns ≠ region ∧ publisherAt entry (turns + 1) = region ∧
      next.get feed = some {ownershipAfter initialEpoch (turns + 1) entry with epoch := Double.addInt (initialEpoch + turns) 1}) := by
  simp only [transfer,held,bind_ok,require_ok] at done
  obtain ⟨_,owner,done⟩ := done
  have owner : region = entry.primaryRegion ∨ region = entry.failoverRegion := by
    simp only [ownershipAfter] at owner
    tauto
  split at done
  · rename_i same
    cases done
    exact .inl ⟨same,rfl⟩
  · rename_i changed
    have turn := publisherAt_next owner changed
    cases done
    refine .inr ⟨changed,turn,?_⟩
    rw [get_set]
    simp [turn]

theorem step_turn (ran : step s call = .ok next) (held : s.registry.get feed = some (ownershipAfter initialEpoch turns entry))
    (safe : changedOwner feed ⟨s,call,next⟩ = true → Double.Safe (initialEpoch + turns + 1)) :
    next.registry.get feed = some (ownershipAfter initialEpoch (turns + if changedOwner feed ⟨s,call,next⟩ then 1 else 0) entry) := by
  cases call with
  | transfer moved region =>
    obtain ⟨⟨_,registry⟩,done,ran⟩ := bind_ok.mp ran
    cases ran
    rcases eq_or_ne moved feed with rfl | here
    · rcases transfer_turn done held with ⟨_,rfl⟩ | ⟨changed,turn,after⟩
      · simp [held]
      · have differs : ¬ publisherAt entry turns = publisherAt entry (turns + 1) := fun same => changed (same.trans turn)
        have counted : changedOwner moved ⟨s,.transfer moved region,{s with registry}⟩ = true := by
          simp [held,after,differs]
        rw [after,if_pos counted,Double.addInt_safe (safe counted)]
        simp [Int.add_assoc]
    · rw [transfer_frame done (Ne.symm here),held]
      simp [here]
  | observeEpoch region seen epoch | authorize region asked =>
    cases ran
    simpa using held

theorem step_unknown (ran : step s call = .ok next) (unknown : s.registry.get feed = none) : next.registry.get feed = none := by
  cases call with
  | transfer moved =>
    obtain ⟨⟨_,_⟩,done,ran⟩ := bind_ok.mp ran
    cases ran
    rcases eq_or_ne feed moved with rfl | here
    · rw [transfer_unknown done unknown]
      exact unknown
    · rw [transfer_frame done here]
      exact unknown
  | observeEpoch region seen epoch | authorize region asked =>
    cases ran
    exact unknown

theorem changes_append : changes feed (ts ++ us) = changes feed ts + changes feed us := List.countP_append

theorem SafeEpochs.earlier (safe : SafeEpochs initialEpoch (ts ++ us)) : SafeEpochs initialEpoch ts := by
  refine ⟨safe.above,fun feed => ?_⟩
  have bound := safe.below feed
  rw [changes_append] at bound
  omega

theorem runs_ownership (built : construct initialEpoch entries = .ok registry) (path : Run step (.fresh registry) ts s)
    (safe : SafeEpochs initialEpoch ts) :
    s.registry.get feed = (configured entries feed).map (ownershipAfter initialEpoch (changes feed ts)) := by
  induction path with
  | nil => exact constructed built feed
  | @snoc ts s call next prior ran ih =>
    have before := ih safe.earlier
    cases known : configured entries feed with
    | none =>
      rw [known] at before
      exact step_unknown ran before
    | some =>
      rw [known] at before
      have counted : changes feed (ts ++ [⟨s,call,next⟩]) =
          changes feed ts + if changedOwner feed ⟨s,call,next⟩ then 1 else 0 := by
        rw [changes_append]
        simp [changes,List.countP_singleton]
      have bounds := safe.below feed
      have start := safe.above
      rw [counted] at bounds ⊢
      apply step_turn ran before
      intro changed
      rw [if_pos changed] at bounds
      unfold Double.Safe
      omega

theorem observeEpoch_covers : epoch ≤ currentEpoch (observeEpoch authority feed epoch).2 feed := by
  simp only [observeEpoch]
  split
  · rename_i stale
    exact Int.le_of_lt stale
  · split
    · simp
    · rename_i above
      exact Int.not_lt.mp above

theorem observeEpoch_grows : currentEpoch authority feed ≤ currentEpoch (observeEpoch authority seen epoch).2 feed := by
  simp only [observeEpoch]
  split
  · exact Int.le_refl _
  · split
    · rename_i above
      rcases eq_or_ne feed seen with rfl | here
      · simp only [currentEpoch,get_set,Option.getD_some]
        exact Int.le_of_lt above
      · simp [get_set_ne here]
    · exact Int.le_refl _

theorem step_authorities (ran : step s call = .ok next) : next.authorities region = s.authorities region ∨
    ∃ feed epoch, call = .observeEpoch region feed epoch ∧
      next.authorities region = (observeEpoch (s.authorities region) feed epoch).2 := by
  cases call with
  | transfer =>
    obtain ⟨⟨_,_⟩,_,ran⟩ := bind_ok.mp ran
    cases ran
    exact .inl rfl
  | observeEpoch observer feed epoch =>
    cases ran
    rcases eq_or_ne region observer with rfl | here
    · exact .inr ⟨feed,epoch,rfl,Function.update_self ..⟩
    · exact .inl (Function.update_of_ne here ..)
  | authorize =>
    cases ran
    exact .inl rfl

theorem step_observed (ran : step s call = .ok next) :
    currentEpoch (s.authorities region) feed ≤ currentEpoch (next.authorities region) feed := by
  rcases step_authorities ran with kept | ⟨_,_,_,observed⟩
  · exact Int.le_of_eq (by rw [kept])
  · rw [observed]
    exact observeEpoch_grows

theorem runs_observed (path : Run step start ts s) (mem : t ∈ ts)
    (seen : t.input = .observeEpoch region feed epoch) : epoch ≤ currentEpoch (s.authorities region) feed := by
  induction path with
  | nil => cases mem
  | snoc _ ran ih =>
    rcases Runs.mem_snoc.mp mem with old | rfl
    · exact Int.le_trans (ih old) (step_observed ran)
    · cases seen
      cases ran
      simp only [Function.update_self]
      exact observeEpoch_covers

theorem authorize_allowed (allowed : (authorize registry authority feed none).allowed = true) :
    ∃ ownership, registry.get feed = some ownership ∧ currentEpoch authority feed ≤ ownership.epoch ∧
      ownership.activeRegion = authority.region ∧ (authorize registry authority feed none).epoch = ownership.epoch := by
  unfold authorize at allowed ⊢
  split at allowed
  · cases allowed
  · rename_i ownership held
    refine ⟨ownership,held,?_⟩
    simp only [Option.getD_none] at allowed ⊢
    split at allowed
    · cases allowed
    · rename_i fresh
      split at allowed
      · cases allowed
      · rename_i owner
        rw [if_neg fresh,if_neg owner]
        exact ⟨Int.not_lt.mp (fun stale => fresh (.inl stale)),not_not.mp owner,rfl⟩

theorem observeEpoch_region : (observeEpoch authority feed epoch).2.region = authority.region := by
  simp only [observeEpoch]
  split
  · rfl
  · split <;> rfl

theorem runs_regions (path : Run step (.fresh registry) ts s) : (s.authorities region).region = region := by
  induction path with
  | nil => rfl
  | snoc _ ran ih =>
    rcases step_authorities ran with kept | ⟨_,_,_,observed⟩
    · rw [kept,ih]
    · rw [observed,observeEpoch_region,ih]

theorem allowed_publisher (built : construct initialEpoch entries = .ok registry)
    (path : Run step (.fresh registry) ts s) (safe : SafeEpochs initialEpoch ts) (allowed : (decision s region feed).allowed = true) :
    ∃ entry turns, configured entries feed = some entry ∧ (decision s region feed).epoch = initialEpoch + (turns : Nat) ∧
      publisherAt entry turns = region := by
  obtain ⟨_,held,_,owner,epoch⟩ := authorize_allowed allowed
  rw [runs_ownership built path safe,Option.map_eq_some_iff] at held
  obtain ⟨entry,known,rfl⟩ := held
  exact ⟨entry,changes feed ts,known,epoch,owner.trans (runs_regions path)⟩

theorem single_publisher (built : construct initialEpoch entries = .ok registry)
    (path : Run step (.fresh registry) ts s) (safe : SafeEpochs initialEpoch ts) :
    (∀ feed ownership, s.registry.get feed = some ownership →
      ∃ entry ∈ entries, entry.feed = feed ∧
        (ownership.activeRegion = entry.primaryRegion ∨ ownership.activeRegion = entry.failoverRegion) ∧
        ownership.epoch = initialEpoch + changes feed ts) ∧
    (∀ one ∈ ts, ∀ two ∈ ts, ∀ feed regionOne regionTwo,
      one.input = .authorize regionOne feed → two.input = .authorize regionTwo feed →
      (decision one.before regionOne feed).allowed = true → (decision two.before regionTwo feed).allowed = true →
      (decision one.before regionOne feed).epoch = (decision two.before regionTwo feed).epoch → regionOne = regionTwo) ∧
    (∀ earlier t later, ts = earlier ++ t :: later → ∀ seen ∈ earlier, ∀ region feed epoch ownership,
      seen.input = .observeEpoch region feed epoch → t.input = .authorize region feed →
      t.before.registry.get feed = some ownership → ownership.epoch < epoch →
      (decision t.before region feed).allowed = false) := by
  refine ⟨?_,?_,?_⟩
  · intro feed ownership held
    rw [runs_ownership built path safe,Option.map_eq_some_iff] at held
    obtain ⟨entry,known,rfl⟩ := held
    exact ⟨entry,List.mem_of_find?_eq_some known,by simpa using List.find?_some known,publisherAt_configured,rfl⟩
  · intro _ present _ also feed _ _ _ _ allowedOne allowedTwo _
    obtain ⟨_,_,cutOne,pathOne,_⟩ := path.member present
    obtain ⟨_,_,cutTwo,pathTwo,_⟩ := path.member also
    obtain ⟨entry,turns,known,_,ownerOne⟩ := allowed_publisher built pathOne (cutOne ▸ safe).earlier allowedOne
    obtain ⟨_,turns',known',_,ownerTwo⟩ := allowed_publisher built pathTwo (cutTwo ▸ safe).earlier allowedTwo
    cases Option.some.inj (known.symm.trans known')
    have same : turns = turns' := by omega
    rw [← ownerOne,← ownerTwo,same]
  · intro _ t _ cut _ present region feed _ _ observed _ held _
    subst cut
    have covered := runs_observed path.split.1 present observed
    cases answered : (decision t.before region feed).allowed with
    | false => rfl
    | true =>
      obtain ⟨_,found,_⟩ := authorize_allowed answered
      cases Option.some.inj (held.symm.trans found)
      omega

namespace Sample
def entries : List FeedOwnershipConfig := [⟨"XLM/USD","us-east","eu-west"⟩,⟨"BTC/USD","eu-west","us-east"⟩]
def registry (initialEpoch : Int) : FeedOwnershipRegistry := (construct initialEpoch entries).toOption.getD .empty

def failover : List Call :=
  [.authorize "us-east" "XLM/USD",.transfer "XLM/USD" "eu-west",.authorize "eu-west" "XLM/USD",
    .observeEpoch "eu-west" "XLM/USD" 5,.authorize "eu-west" "XLM/USD"]

def answers (ts : List (Transition System Call)) : List PublishDecision :=
  ts.filterMap (fun t => match t.input with | .authorize region feed => some (decision t.before region feed) | _ => none)
end Sample

open Sample

theorem failover_single_publisher : ∃ ts s ownership, construct 1 entries = .ok (registry 1) ∧
    Run step (.fresh (registry 1)) ts s ∧ s.registry.get "XLM/USD" = some ownership ∧
    ownership.epoch = 1 + changes "XLM/USD" ts ∧
    answers ts = [⟨true,1,none⟩,⟨true,2,none⟩,⟨false,5,some .staleEpoch⟩] := by
  have built : construct 1 entries = .ok (registry 1) := by rfl
  have replayed : (Runs.replay step (.fresh (registry 1)) failover).map (fun result =>
      (result.2.registry.get "XLM/USD",answers result.1)) =
        .ok (some ⟨"XLM/USD","us-east","eu-west","eu-west",2⟩,
          [⟨true,1,none⟩,⟨true,2,none⟩,⟨false,5,some .staleEpoch⟩]) := by decide +kernel
  obtain ⟨ts,s,path,inputs,shown⟩ := Runs.replay_steps replayed
  obtain ⟨held,answered⟩ := Prod.mk.inj shown
  have safe : SafeEpochs 1 ts := by
    refine ⟨by decide,fun feed => ?_⟩
    have few : changes feed ts ≤ ts.length := List.countP_le_length
    have five : ts.length = 5 := by simpa [failover] using congrArg List.length inputs
    omega
  obtain ⟨_,_,_,_,epoch⟩ := (single_publisher built path safe).1 _ _ held
  exact ⟨ts,s,_,built,path,held,epoch,answered⟩

-- At 2^53 adding one gives the same epoch, under which both regions are let publish.
theorem saturated_epoch_shared : ∃ ts s ownership, construct (2^53) entries = .ok (registry (2^53)) ∧
    Run step (.fresh (registry (2^53))) ts s ∧ s.registry.get "XLM/USD" = some ownership ∧
    ownership.epoch ≠ 2^53 + changes "XLM/USD" ts ∧ ts.map Transition.input = failover.take 3 ∧
    answers ts = [⟨true,2^53,none⟩,⟨true,2^53,none⟩] := by
  have replayed : (Runs.replay step (.fresh (registry (2^53))) (failover.take 3)).map (fun result =>
      (result.2.registry.get "XLM/USD",changes "XLM/USD" result.1,answers result.1)) =
        .ok (some ⟨"XLM/USD","us-east","eu-west","eu-west",2^53⟩,1,[⟨true,2^53,none⟩,⟨true,2^53,none⟩]) := by decide +kernel
  obtain ⟨ts,s,path,inputs,shown⟩ := Runs.replay_steps replayed
  simp only [Prod.mk.injEq] at shown
  obtain ⟨held,changed,answered⟩ := shown
  refine ⟨ts,s,_,by rfl,path,held,?_,inputs,answered⟩
  rw [changed]
  decide

end StellarPriceOracle.FeedPublishing
