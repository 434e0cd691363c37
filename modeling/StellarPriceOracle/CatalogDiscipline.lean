import Mathlib.Data.List.Chain
import StellarPriceOracle.CatalogInvariant

namespace StellarPriceOracle.CatalogGovernance
open FeedCatalog Guarded
open Runs (Run total states mem_snoc)
open List hiding after count
open InsertionMap
open Option (some)

structure Reviews (clock : Int) (proposer : String) (createdAt reviewDeadlineAt : Instant) (reviews : List CatalogReviewRecord) : Prop where
  distinct : (reviews.map CatalogReviewRecord.reviewer).Nodup
  others : ∀ review ∈ reviews, review.reviewer ≠ proposer
  timely : ∀ review ∈ reviews, (createdAt : Int) ≤ review.at' ∧ (review.at' : Int) ≤ reviewDeadlineAt ∧ (review.at' : Int) ≤ clock

structure Reviewed (clock : Int) (p : CatalogProposal) : Prop where
  created : (p.createdAt : Int) ≤ clock
  reviews : Reviews clock p.proposer p.createdAt p.reviewDeadlineAt p.reviews
  unlocked : p.status = .inReview → p.timelockEndsAt = none
  enough : p.status = .approved ∨ p.status = .activated → p.requiredApprovals ≤ (approvals p).length
  locked : ∀ ends ∈ p.timelockEndsAt, ∀ review ∈ p.reviews, (review.at' : Int) + timelockOf p * 1000 ≤ ends

-- What must have happened to the proposal behind a version.
structure Activation (host : Host) (before after : CatalogPolicy) (p : CatalogProposal) : Prop where
  status : p.status = .activated
  version : p.activatedVersion = some after.version
  moment : p.activatedAt = some after.activatedAt
  authored : Authored host before p
  feeds : after.feeds = projectFeeds host before.feeds p.change
  waited : ∃ ends ∈ p.timelockEndsAt, (ends : Int) ≤ after.activatedAt

def Accounted (host : Host) (proposals : InsertionMap Nat CatalogProposal) (before after : CatalogPolicy) : Prop :=
  ∃ id p, after.proposalId = some id ∧ proposals.get id = some p ∧ Activation host before after p

structure Disciplined (host : Host) (clock : Int) (s : Governance) : Prop where
  catalogued : Catalogued host s
  reviewed : ∀ id p, s.proposals.get id = some p → Reviewed clock p
  authored : ∀ id p, s.proposals.get id = some p → ∃ policy ∈ s.versions, Authored host policy p
  accounted : s.versions.IsChain (Accounted host s.proposals)
  recorded : ∀ policy ∈ s.versions, ∀ id, policy.proposalId = some id → ∃ p, s.proposals.get id = some p ∧ p.status = .activated
  once : (s.versions.map CatalogPolicy.proposalId).Nodup

section
variable {host : Host} {now : Instant} {s s' : Governance} {id : Nat} {clock : Int} {p p' : CatalogProposal}

theorem Reviews.add (held : Reviews clock p.proposer p.createdAt p.reviewDeadlineAt p.reviews) (created : (p.createdAt : Int) ≤ now)
    (now_le : (now : Int) ≤ clock) (able : Reviewable now p review) :
    Reviews clock p.proposer p.createdAt p.reviewDeadlineAt (p.reviews ++ [review]) := by
  refine ⟨?_,?_,?_⟩
  · rw [map_append,map_singleton,nodup_append]
    refine ⟨held.distinct,nodup_singleton _,?_⟩
    intro _ old other new
    obtain ⟨earlier,mem,rfl⟩ := mem_map.mp old
    rw [mem_singleton.mp new]
    exact able.fresh earlier mem
  · intro other mem
    rcases mem_snoc.mp mem with old | new
    · exact held.others other old
    · obtain rfl := new
      exact able.other
  · intro other mem
    rcases mem_snoc.mp mem with old | new
    · exact held.timely other old
    · obtain rfl := new
      rw [able.timed]
      exact ⟨created,able.timely,now_le⟩

theorem Progress.reviewed_kept (progress : Progress now p p') (held : Reviewed now p) : Reviewed now p' := by
  cases progress with
  | same => exact held
  | analysed => exact {held with}
  | expired => exact ⟨held.created,held.reviews,by simp,by simp,held.locked⟩
  | reviewed able =>
    refine ⟨held.created,held.reviews.add held.created (Int.le_refl _) able,held.unlocked,?_,?_⟩
    · simp [able.opened]
    · simp [held.unlocked able.opened]
  | rejected able =>
    refine ⟨held.created,held.reviews.add held.created (Int.le_refl _) able,by simp,by simp,?_⟩
    simp [held.unlocked able.opened]
  | approved able enough ends =>
    have added := held.reviews.add held.created (Int.le_refl _) able
    refine ⟨held.created,added,by simp,fun _ => enough,?_⟩
    intro _ set review mem
    rcases ends with rfl | ⟨_,rfl,dated⟩
    · simp [held.unlocked able.opened] at set
    · -- the last review is at the time from which the lock counts
      obtain rfl := some.inj set
      rw [dated]
      exact Int.add_le_add_right (added.timely review mem).2.2 _

theorem Reviewed.mono (held : Reviewed clock p) (later : clock ≤ clock') : Reviewed clock' p := by
  refine ⟨Int.le_trans held.created later,⟨held.reviews.distinct,held.reviews.others,?_⟩,held.unlocked,held.enough,held.locked⟩
  intro review mem
  obtain ⟨created,timely,passed⟩ := held.reviews.timely review mem
  exact ⟨created,timely,Int.le_trans passed later⟩

theorem Opened.reviewed (opened : Opened now id p) : Reviewed now p := by
  refine ⟨Int.le_of_eq (congrArg _ opened.created),?_,fun _ => opened.unlocked,by simp [opened.opened],by simp [opened.unlocked]⟩
  rw [opened.unreviewed]
  exact ⟨by simp,by simp,by simp⟩

theorem Origin.reviewed (origin : Origin host now s s' id p') (held : ∀ id p, s.proposals.get id = some p → Reviewed now p) : Reviewed now p' := by
  cases origin with
  | progressed got progress => exact progress.reviewed_kept (held id _ got)
  | created _ _ _ opened => exact opened.reviewed
  | activated got approved marked =>
    have before := held id _ got
    subst marked
    exact ⟨before.created,before.reviews,by simp [markActivated],fun _ => before.enough (.inl approved),before.locked⟩

theorem Authored.proposed (authored : Authored host policy p) (change : p'.change = p.change) (createdAt : p'.createdAt = p.createdAt)
    (deadline : p'.reviewDeadlineAt = p.reviewDeadlineAt) (highImpact : p'.highImpact = p.highImpact)
    (required : p'.requiredApprovals = p.requiredApprovals) (planned : p'.onChainPlan = p.onChainPlan ∧ p'.sourceAddresses = p.sourceAddresses) :
    Authored host policy p' := by
  refine ⟨?_,?_,?_,?_,?_,?_,?_⟩
  · rw [change]
    exact authored.normal
  · rw [change]
    exact authored.base
  · rw [change,highImpact]
    exact authored.impact
  · rw [required,highImpact]
    exact authored.required
  · rw [deadline,createdAt]
    exact authored.deadline
  · rw [planned.1,planned.2,change]
    exact authored.plan
  · rw [planned.1]
    exact authored.addressed

theorem Origin.authored (origin : Origin host now s s' id p') (catalogued : Catalogued host s)
    (held : ∀ id p, s.proposals.get id = some p → ∃ policy ∈ s.versions, Authored host policy p) : ∃ policy ∈ s.versions, Authored host policy p' := by
  cases origin with
  | progressed got progress =>
    obtain ⟨policy,mem,authored⟩ := held id _ got
    obtain ⟨_,change,_,createdAt,deadline,highImpact,required⟩ := progress.proposed
    exact ⟨policy,mem,authored.proposed change createdAt deadline highImpact required progress.planned⟩
  | created _ _ authored =>
    rw [currentPolicy_latest catalogued] at authored
    exact ⟨s.latest,latest_mem,authored⟩
  | activated got _ marked =>
    obtain ⟨policy,mem,authored⟩ := held id _ got
    subst marked
    exact ⟨policy,mem,authored.proposed rfl rfl rfl rfl rfl ⟨rfl,rfl⟩⟩

theorem runs_authored (created : create host genesis = .ok start) (path : Run (total (next host)) start ts s) :
    ∀ id p, s.proposals.get id = some p → ∃ policy ∈ s.versions, Authored host policy p := by
  have held : Catalogued host s ∧ ∀ id p, s.proposals.get id = some p → ∃ policy ∈ s.versions, Authored host policy p := by
    apply path.invariant_of (fun t => run_effect path)
    · refine ⟨create_catalogued created,?_⟩
      obtain ⟨_,_,⟨⟩⟩ := bind_ok.mp created
      simp
    · intro t effect _ held
      refine ⟨effect.catalogued held.1,?_⟩
      intro _ p got
      obtain ⟨policy,mem,written⟩ := (effect.origin got).authored held.1 held.2
      exact ⟨policy,effect.appends.subset mem,written⟩
  exact held.2

@[simp] def Settled (p : CatalogProposal) : Prop := p.status ≠ .inReview ∧ p.status ≠ .approved

section
variable (effect : Effect host now s s')
include effect

section
variable (catalogued : Catalogued host s)
include catalogued

theorem Effect.forward (got : s.proposals.get id = some p) :
    ∃ p', s'.proposals.get id = some p' ∧ p'.change = p.change ∧ (Settled p → p' = p) := by
  cases effect with
  | progressed _ _ each =>
    have related := each id
    rw [got] at related
    cases held : s'.proposals.get id with
    | none =>
      rw [held] at related
      cases related
    | some =>
      rw [held] at related
      cases related with
      | some progress => exact ⟨_,rfl,progress.proposed.2.1,fun settled => progress.closed settled.1⟩
  | created =>
    have old : id ≠ s.proposalCount + 1 := by
      have within := (catalogued.named id p got).2
      omega
    exact ⟨p,by simpa only [Governance.store,get_set_ne old] using got,rfl,fun _ => rfl⟩
  | @activated q _ _ other held approved _ _ =>
    rcases eq_or_ne id other with rfl | differ
    · cases some.inj (got.symm.trans held)
      exact ⟨_,get_set,rfl,fun settled => absurd approved settled.2⟩
    · exact ⟨p,by simpa only [Governance.store,Governance.push,get_set_ne differ] using got,rfl,fun _ => rfl⟩

theorem Effect.settled (got : s.proposals.get id = some p) (settled : Settled p) : s'.proposals.get id = some p := by
  obtain ⟨_,kept,_,same⟩ := effect.forward catalogued got
  rw [kept,same settled]

theorem Accounted.kept (held : Accounted host s.proposals before after) :
    Accounted host s'.proposals before after := by
  obtain ⟨id,p,named,got,activation⟩ := held
  have settled : Settled p := by simp [activation.status]
  exact ⟨id,p,named,effect.settled catalogued got settled,activation⟩

theorem recorded_kept (held : ∃ p, s.proposals.get id = some p ∧ p.status = .activated) : ∃ p, s'.proposals.get id = some p ∧ p.status = .activated := by
  obtain ⟨p,got,activated⟩ := held
  exact ⟨p,effect.settled catalogued got (by simp [activated]),activated⟩

theorem Effect.activation (proposed : ∀ id p, s.proposals.get id = some p → ∃ policy ∈ s.versions, Authored host policy p) : s'.versions = s.versions ∨
    ∃ id policy p, s'.versions = s.versions ++ [policy] ∧ policy.proposalId = some id ∧ s'.proposals.get id = some p ∧
      Activation host s.latest policy p ∧ ∃ q, s.proposals.get id = some q ∧ q.status = .approved ∧ q.change = p.change ∧ Authored host s.latest q := by
  cases effect with
  | progressed versions => exact .inl versions
  | created => exact .inl rfl
  | @activated q caller executions id got approved waited ran =>
    have ran := ran (catalogued.normal id q got)
    rw [currentPolicy_latest catalogued] at ran ⊢
    obtain ⟨policy,mem,authored⟩ := proposed id q got
    have same : policy.version = s.latest.version := by
      have numbers := authored.base.symm.trans ran.base
      simpa using numbers
    obtain rfl := version_inj catalogued mem latest_mem same
    have named := (catalogued.named id q got).1
    refine .inr ⟨id,applyCatalogChange host s.latest q.change now q.id,
      markActivated q (applyCatalogChange host s.latest q.change now q.id) caller executions,rfl,congrArg some named,?_,?_,q,got,approved,rfl,authored⟩
    · simp [Governance.store,get_set]
    · exact ⟨rfl,rfl,rfl,authored.proposed rfl rfl rfl rfl rfl ⟨rfl,rfl⟩,rfl,waited⟩

end

theorem Effect.disciplined (held : Disciplined host now s) : Disciplined host now s' := by
  have catalogued := effect.catalogued held.catalogued
  have reviewed : ∀ id p, s'.proposals.get id = some p → Reviewed now p := fun id p got => (effect.origin got).reviewed held.reviewed
  have authored : ∀ id p, s'.proposals.get id = some p → ∃ policy ∈ s'.versions, Authored host policy p := by
    intro id p got
    obtain ⟨policy,mem,written⟩ := (effect.origin got).authored held.catalogued held.authored
    exact ⟨policy,effect.appends.subset mem,written⟩
  have accounted : s.versions.IsChain (Accounted host s'.proposals) :=
    held.accounted.imp (fun _ _ old => old.kept effect held.catalogued)
  have recorded : ∀ policy ∈ s.versions, ∀ id, policy.proposalId = some id → ∃ p, s'.proposals.get id = some p ∧ p.status = .activated :=
    fun policy mem id named => recorded_kept effect held.catalogued (held.recorded policy mem id named)
  rcases effect.activation held.catalogued held.authored with same | ⟨id,policy,p,added,named,has,activation,q,got,approved,_⟩
  · exact ⟨catalogued,reviewed,authored,same ▸ accounted,same ▸ recorded,same ▸ held.once⟩
  · refine ⟨catalogued,reviewed,authored,?_,?_,?_⟩
    · rw [added,isChain_append]
      refine ⟨accounted,isChain_singleton _,?_⟩
      intro _ isLast _ isFirst
      rw [getLast?_eq_some_getLast s.live] at isLast
      cases isLast
      cases isFirst
      exact ⟨id,p,named,has,activation⟩
    · rw [added]
      intro other mem key keyed
      rcases mem_snoc.mp mem with old | new
      · exact recorded other old key keyed
      · obtain rfl := new
        cases some.inj (named.symm.trans keyed)
        exact ⟨p,has,activation.status⟩
    · rw [added,map_append,map_singleton,named,nodup_append]
      refine ⟨held.once,nodup_singleton _,?_⟩
      rintro key old other new rfl
      obtain ⟨earlier,mem,keyed⟩ := mem_map.mp old
      obtain ⟨r,known,done⟩ := held.recorded earlier mem id (keyed.trans (mem_singleton.mp new))
      cases some.inj (known.symm.trans got)
      cases approved.symm.trans done

end

theorem Disciplined.mono (held : Disciplined host clock s) (later : clock ≤ clock') : Disciplined host clock' s :=
  ⟨held.catalogued,fun id p got => (held.reviewed id p got).mono later,held.authored,held.accounted,held.recorded,held.once⟩

section
variable (created : create host genesis = .ok start)
include created

theorem create_disciplined : Disciplined host clock start := by
  have catalogued := create_catalogued created
  obtain ⟨_,_,⟨⟩⟩ := bind_ok.mp created
  exact ⟨catalogued,by simp,by simp,isChain_singleton _,by simp,nodup_singleton _⟩

section
variable (path : Run (total (next host)) start ts s)
include path

theorem runs_disciplined (clocked : Clocked ts)
    (passed : ∀ t ∈ ts, (t.input.now : Int) ≤ clock) : Disciplined host clock s := by
  induction path generalizing clock with
  | nil => exact create_disciplined created
  | @snoc ts s i last prior ran ih =>
    rw [Clocked,map_append,pairwise_append] at clocked
    have held : Disciplined host i.now s := by
      refine ih clocked.1 ?_
      intro t mem
      exact clocked.2.2 _ (mem_map_of_mem mem) _ (mem_singleton_self _)
    obtain rfl := Except.ok.inj ran
    exact (next_effect.disciplined held).mono (passed _ mem_concat_self)

theorem runs_settled (visited : r ∈ states start ts) (got : r.proposals.get id = some p) (settled : Settled p) : s.proposals.get id = some p := by
  refine path.carries_on (R := fun a b => a.proposals.get id = some p → b.proposals.get id = some p) (fun _ held => held) ?_ ?_ visited got
  · intro a b c first second held
    exact second (first held)
  · intro t mem held
    obtain ⟨_,_,_,reached,_⟩ := path.member mem
    exact (run_effect path mem).settled (runs_catalogued created reached) held settled

theorem never_closed (got : s.proposals.get id = some p) (activated : p.status = .activated) (visited : r ∈ states start ts)
    (known : r.proposals.get id = some q) : q.status ≠ .rejected ∧ q.status ≠ .expired := by
  have ended : Settled q → q.status = .activated := by
    intro settled
    cases some.inj ((runs_settled created path visited known settled).symm.trans got)
    exact activated
  constructor
  · intro rejected
    have now := ended (by simp [rejected])
    simp [rejected] at now
  · intro expired
    have now := ended (by simp [expired])
    simp [expired] at now

end

end

-- Approvals of different actors other than the proposer, in time before the activation.
structure ApprovedBefore (count hours : Nat) (activatedAt : Instant) (p : CatalogProposal) : Prop where
  enough : count ≤ (approvals p).length
  distinct : ((approvals p).map CatalogReviewRecord.reviewer).Nodup
  others : ∀ review ∈ approvals p, review.reviewer ≠ p.proposer
  timely : ∀ review ∈ approvals p, (p.createdAt : Int) ≤ review.at' ∧ (review.at' : Int) ≤ p.createdAt + 48 * 60 * 60 * 1000
  waited : ∀ review ∈ approvals p, (review.at' : Int) + hours * 60 * 60 * 1000 ≤ activatedAt

theorem Activation.approved (activation : Activation host before after p) (reviewed : Reviewed clock p) (enough : count ≤ p.requiredApprovals)
    (long : hours * 60 * 60 ≤ timelockOf p) : ApprovedBefore count hours after.activatedAt p := by
  have among : ∀ review ∈ approvals p, review ∈ p.reviews := fun review mem => mem_of_mem_filter mem
  obtain ⟨ends,set,_⟩ := activation.waited
  refine ⟨Nat.le_trans enough (reviewed.enough (.inr activation.status)),?_,fun review mem => reviewed.reviews.others review (among review mem),?_,?_⟩
  · exact reviewed.reviews.distinct.sublist (filter_sublist.map _)
  · intro review mem
    obtain ⟨created,timely,_⟩ := reviewed.reviews.timely review (among review mem)
    rw [activation.authored.deadline] at timely
    exact ⟨created,timely⟩
  · intro review mem
    have locked := reviewed.locked ends set review (among review mem)
    omega

theorem elsewhere (once : ((xs ++ x :: ys).map f).Nodup) : ∀ y ∈ xs ++ ys, f y ≠ f x := by
  intro y mem same
  rw [map_append,map_cons,nodup_middle,← map_append,nodup_cons] at once
  exact once.1 (same ▸ mem_map_of_mem mem)

-- Every later version comes from one proposal, approved and waited for as its impact asks.
theorem activation_disciplined (created : create host genesis = .ok start) (path : Run (total (next host)) start ts s)
    (clocked : Clocked ts) (adjacent : s.versions = earlier ++ before :: after :: later) :
    ∃ id p, after.proposalId = some id ∧ s.proposals.get id = some p ∧
      (p.status = .activated ∧ p.activatedVersion = some after.version ∧ p.activatedAt = some after.activatedAt ∧
        ∀ policy ∈ earlier ++ before :: later, policy.proposalId ≠ some id) ∧
      (∀ r ∈ states start ts, ∀ q, r.proposals.get id = some q → q.status ≠ .rejected ∧ q.status ≠ .expired) ∧
      p.change.baseVersion = .finite before.version ∧ after.feeds = projectFeeds host before.feeds p.change ∧
      ApprovedBefore 2 24 after.activatedAt p ∧
      (Loosens before.feeds after.feeds ∨ p.change.kind = .rollback → ApprovedBefore 3 48 after.activatedAt p) := by
  obtain ⟨clock,passed⟩ : ∃ clock : Int, ∀ t ∈ ts, (t.input.now : Int) ≤ clock := ⟨8640000000000000,fun t _ => t.input.now.property.2⟩
  have held := runs_disciplined created path clocked passed
  obtain ⟨id,p,named,found,activation⟩ := isChain_iff_forall_rel_of_append_cons_cons.mp held.accounted adjacent
  have reviewed := held.reviewed id p found
  have authored := activation.authored
  refine ⟨id,p,named,found,⟨activation.status,activation.version,activation.moment,?_⟩,?_,authored.base,activation.feeds,?_,?_⟩
  · intro policy present same
    have once := held.once
    rw [adjacent,append_cons] at once
    rw [append_cons] at present
    exact elsewhere once policy present (same.trans named.symm)
  · intro r visited q known
    exact never_closed created path found activation.status visited known
  · refine activation.approved reviewed ?_ ?_
    · rw [authored.required]
      split <;> decide
    · unfold timelockOf
      split <;> decide
  · intro risky
    have highImpact : p.highImpact = true := by
      rw [activation.feeds] at risky
      exact authored.impact risky.symm
    refine activation.approved reviewed ?_ ?_
    · simp [authored.required,highImpact,Guardrails.highImpactApprovals]
    · simp [timelockOf,highImpact,Guardrails.highImpactTimelockSeconds]

end

namespace Sample
def raised : List FeedPolicy := [feed "USDC" ["band","chainlink","reflector"] 50,feed "XLM" ["band","chainlink","redstone"] 200]

theorem raised_loosens : Loosens feeds raised := by
  refine .inr (.inr ⟨"XLM",feed "XLM" ["band","chainlink","redstone"] 150,feed "XLM" ["band","chainlink","redstone"] 200,?_,?_,.inr (.inl ?_)⟩)
  all_goals decide +kernel
end Sample

open Sample

theorem raised_bound_disciplined : ∃ ts s before after id p, Run (total (next host)) start ts s ∧ Clocked ts ∧
    s.versions = [before,after] ∧ Loosens before.feeds after.feeds ∧ after.proposalId = some id ∧ s.proposals.get id = some p ∧
    p.status = .activated ∧ ApprovedBefore 3 48 after.activatedAt p := by
  have observed : (Runs.replay (total (next host)) start requests).map (fun result =>
      result.2.versions.map CatalogPolicy.feeds) = .ok [feeds,raised] := by rfl
  obtain ⟨ts,s,path,inputs,shown⟩ := Runs.replay_steps observed
  obtain ⟨before,_,versions,first,shown⟩ := map_eq_cons_iff.mp shown
  obtain ⟨after,_,rfl,second,none⟩ := map_eq_cons_iff.mp shown
  obtain rfl := map_eq_nil_iff.mp none
  have clocked : Clocked ts := by
    have times : ts.map (fun t => (t.input.now : Int)) = requests.map (fun request => (request.now : Int)) := by
      rw [← inputs,map_map]
      rfl
    rw [Clocked,times]
    decide
  have loosens : Loosens before.feeds after.feeds := by
    rw [first,second]
    exact raised_loosens
  have adjacent : s.versions = [] ++ before :: after :: [] := versions
  obtain ⟨id,p,named,found,⟨activated,_⟩,_,_,_,_,approved⟩ := activation_disciplined start_created path clocked adjacent
  exact ⟨ts,s,before,after,id,p,path,clocked,versions,loosens,named,found,activated,approved (.inl loosens)⟩

end StellarPriceOracle.CatalogGovernance
