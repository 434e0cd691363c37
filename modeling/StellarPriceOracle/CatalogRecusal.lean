import StellarPriceOracle.CatalogInvariant
import StellarPriceOracle.CoiRegister

namespace StellarPriceOracle.CatalogRecusal
open FeedCatalog CatalogGovernance Guarded
open Coi (CoiDisclosure CoiRegister Holding normalize recusalReasons)
open InsertionMap (empty get_set get_set_ne)
open List
open String (ofList)
open FeedPolicy

-- api/src/governance/catalog-governance-routes.ts: the register answers who is recused.
def isRecused (host : Coi.Host) (register : CoiRegister) (time : Instant) (actor : String) (request : RecusalRequest) : List String :=
  (recusalReasons host register time actor request).1

section
variable (host : FeedCatalog.Host)

def touched (base : List FeedPolicy) (change : CatalogPolicyChange) : List String :=
  let diff := diffPolicies base (projectFeeds host base change)
  diff.added ++ diff.removed ++ diff.modified

def usedBy (feeds : List FeedPolicy) (assets : List String) : List String :=
  (feeds.filter (fun feed => decide (feed.asset ∈ assets))).flatMap sources

def sourcesBefore (base : List FeedPolicy) (change : CatalogPolicyChange) : List String :=
  usedBy base (touched host base change)

def sourcesAfter (base : List FeedPolicy) (change : CatalogPolicyChange) : List String :=
  usedBy (projectFeeds host base change) (touched host base change)

end

def Concerns (coi : Coi.Host) (host : FeedCatalog.Host) (base : List FeedPolicy) (change : CatalogPolicyChange) (disclosure : CoiDisclosure) : Prop :=
  (disclosure.scope = .asset ∧ ∃ asset ∈ touched host base change, normalize coi disclosure.counterparty = normalize coi asset) ∨
  (disclosure.scope = .source ∧ ∃ source ∈ sourcesBefore host base change ++ sourcesAfter host base change,
    normalize coi disclosure.counterparty = normalize coi source)

structure MayReview (host : FeedCatalog.Host) (now : Instant) (p : CatalogProposal) (reviewer : String) : Prop where
  named : ¬ (reviewer = "" ∨ host.text.trim reviewer = "")
  opened : p.status = .inReview
  timely : ¬ (now : Int) > p.reviewDeadlineAt
  other : host.text.trim reviewer ≠ p.proposer
  fresh : ¬ ∃ review ∈ p.reviews, review.reviewer = host.text.trim reviewer
  room : ¬ p.reviews.length ≥ Guardrails.maxReviewers

section
variable {host : FeedCatalog.Host} {coi : Coi.Host} {s : Governance} {p : CatalogProposal} {base : List FeedPolicy} {change : CatalogPolicyChange}
  {asset source : String} {id : Nat} {now time : Instant}

theorem byAsset_projected : (byAsset (projectFeeds host base change)).get asset = (projected base change).get asset :=
  Option.ext (fun _ => byAsset_projectFeeds)

theorem touched_named (among : asset ∈ touched host base change) : asset ∈ change.upserts.map FeedPolicy.asset ∨ asset ∈ change.removals := by
  by_contra unnamed
  obtain ⟨unwritten,unremoved⟩ := not_or.mp unnamed
  have kept : (byAsset (projectFeeds host base change)).get asset = (byAsset base).get asset := by
    rw [byAsset_projected,projected,upserted_other unwritten,removed_exact,if_neg unremoved]
  simp only [touched,mem_append,mem_added,mem_removed,mem_modified,kept] at among
  rcases among with (⟨absent,mem⟩ | ⟨mem,absent⟩) | ⟨_,_,first,second,differ⟩
  · exact mem absent
  · exact mem absent
  · cases first.symm.trans second
    exact differ rfl

theorem sourcesAfter_written (used : source ∈ sourcesAfter host base change) : source ∈ change.upserts.flatMap sources := by
  obtain ⟨feed,among,uses⟩ := mem_flatMap.mp used
  simp only [mem_filter,decide_eq_true_eq] at among
  obtain ⟨after,touches⟩ := among
  have got : (projected base change).get feed.asset = some feed := by
    rw [← byAsset_projectFeeds,byAsset,InsertionMap.collect_exact projectFeeds_distinct]
    exact ⟨after,rfl⟩
  by_cases written : feed.asset ∈ change.upserts.map FeedPolicy.asset
  · obtain ⟨_,here,_,same⟩ := upserted_named written
    cases got.symm.trans same
    exact mem_flatMap.mpr ⟨feed,here,uses⟩
  · have removed := (touched_named touches).resolve_left written
    rw [projected,upserted_other written,removed_exact,if_pos removed] at got
    cases got

theorem recordReview_ok (has : s.proposals.get id = some p)
    (done : recordReview host s now recused id reviewer decision attested = .ok r) :
    MayReview host now p reviewer ∧ recused (host.text.trim reviewer) (recusalRequest p) = [] := by
  simp only [recordReview,requireActor,has,bind_ok,require_ok,someOr_ok,Except.ok.injEq,Option.some.injEq] at done
  obtain ⟨_,⟨_,named,rfl⟩,_,rfl,_,opened,_,timely,_,other,_,_,_,fresh,_,room,_,free,_⟩ := done
  exact ⟨⟨named,opened,timely,other,fresh,room⟩,free⟩

theorem recordReview_rejects (has : s.proposals.get id = some p)
    (may : MayReview host now p reviewer) (free : recused (host.text.trim reviewer) (recusalRequest p) = []) :
    ∃ result, recordReview host s now recused id reviewer .reject true = .ok result := by
  have open_to : completesApproval p .reject = false := by simp [completesApproval]
  simp only [recordReview,requireActor,require,has,someOr,if_pos may.named,if_pos may.opened,if_pos may.timely,if_pos may.other,
    if_pos may.fresh,if_pos may.room,if_pos free,open_to,settleReview,ok_bind,if_true,Bool.false_eq_true,false_implies]
  exact ⟨_,rfl⟩

theorem mem_recusal_assets : asset ∈ (recusalRequest p).assets ↔ asset ∈ p.change.upserts.map FeedPolicy.asset ∨ asset ∈ p.change.removals := by
  simp [recusalRequest]

theorem mem_recusal_sources : source ∈ (recusalRequest p).sources ↔ source ∈ p.change.upserts.flatMap sources := by
  simp [recusalRequest]

-- A source that a touched feed uses before the change is also one that the change writes.
def Covered (coi : Coi.Host) (host : FeedCatalog.Host) (base : List FeedPolicy) (change : CatalogPolicyChange) : Prop :=
  ∀ source ∈ sourcesBefore host base change, normalize coi source ∈ (change.upserts.flatMap sources).map (normalize coi)

theorem Covered.covers (covered : Covered coi host base p.change)
    (concerns : Concerns coi host base p.change disclosure) : Coi.covers coi (recusalRequest p) disclosure = true := by
  rcases concerns with ⟨scope,asset,among,same⟩ | ⟨scope,source,used,same⟩
  · simp only [Coi.covers,scope,decide_eq_true_eq,same]
    exact mem_map.mpr ⟨asset,mem_recusal_assets.mpr (touched_named among),rfl⟩
  · have written : normalize coi source ∈ (p.change.upserts.flatMap sources).map (normalize coi) := by
      rcases mem_append.mp used with before | after
      · exact covered source before
      · exact mem_map.mpr ⟨source,sourcesAfter_written after,rfl⟩
    obtain ⟨other,here,spelled⟩ := mem_map.mp written
    simp only [Coi.covers,scope,decide_eq_true_eq,same,← spelled]
    exact mem_map.mpr ⟨other,mem_recusal_sources.mpr here,rfl⟩

def declared (actor source : String) : CoiRegister :=
  let disclosure : CoiDisclosure := ⟨"coi_1",actor,.financial,source,.source,"",epoch,epoch,.active,none⟩
  ⟨0,empty.set "coi_1" disclosure,.empty,1⟩

theorem declared_holding : Holding (declared actor source) actor ⟨"coi_1",actor,.financial,source,.source,"",epoch,epoch,.active,none⟩ :=
  ⟨⟨"coi_1",get_set⟩,rfl,nofun⟩

theorem declared_free (unnamed : normalize coi source ∉ request.sources.map (normalize coi)) :
    isRecused coi (declared actor source) time actor request = [] := by
  rw [isRecused,Coi.recusalReasons_none]
  intro disclosure holding
  obtain ⟨id,has⟩ := holding.stored
  have only : disclosure = ⟨"coi_1",actor,.financial,source,.source,"",epoch,epoch,.active,none⟩ := by
    rcases eq_or_ne id ("coi_1") with rfl | here
    · exact (Option.some.inj (get_set.symm.trans has)).symm
    · simp [declared,get_set_ne here] at has
  subst only
  simpa [Coi.covers] using unnamed

-- No one reviews a change they have an interest in, exactly if it is closed to them or names its sources again.
theorem recusal_exact (coi : Coi.Host) (stored : s.proposals.get id = some p) (base : List FeedPolicy) (reviewer : String) :
    (∀ register time decision attested disclosure, Holding register (host.text.trim reviewer) disclosure →
      Concerns coi host base p.change disclosure → Throws (recordReview host s now (isRecused coi register time) id reviewer decision attested)) ↔
    (MayReview host now p reviewer → Covered coi host base p.change) := by
  constructor
  · intro refused may source used
    by_contra unnamed
    have free : isRecused coi (declared (host.text.trim reviewer) source) epoch (host.text.trim reviewer) (recusalRequest p) = [] := by
      apply declared_free
      intro named
      obtain ⟨other,here,spelled⟩ := mem_map.mp named
      exact unnamed (mem_map.mpr ⟨other,mem_recusal_sources.mp here,spelled⟩)
    obtain ⟨result,accepted⟩ := recordReview_rejects stored may free
    have thrown := refused _ epoch .reject true _ declared_holding (.inr ⟨rfl,source,mem_append_left _ used,rfl⟩)
    rw [accepted] at thrown
    exact throws_ok thrown
  · intro covered _ _ _ _ disclosure holding concerns
    by_contra accepted
    obtain ⟨result,done⟩ := not_throws.mp accepted
    obtain ⟨may,free⟩ := recordReview_ok stored done
    have uncovered := Coi.recusalReasons_none.mp free disclosure holding
    rw [(covered may).covers concerns] at uncovered
    cases uncovered

end

namespace Sample
theorem upper_upper (c : Char) : c.toUpper.toUpper = c.toUpper := by
  unfold Char.toUpper
  split
  · rename_i small
    rw [dif_neg]
    intro again
    have low := small.1
    have high := small.2
    have above := again.1
    simp only [UInt32.le_iff_toNat_le] at low high above
    simp at low high above
    omega
  · rfl

theorem lower_lower (c : Char) : c.toLower.toLower = c.toLower := by
  unfold Char.toLower
  split
  · rename_i large
    rw [dif_neg]
    intro again
    have low := large.1
    have high := large.2
    have below := again.2
    simp only [UInt32.le_iff_toNat_le] at low high below
    simp at low high below
    omega
  · rfl

theorem mapped_settles (settles : ∀ c, f (f c) = f c) (s : String) :
    ofList ((ofList (s.toList.map f)).toList.map f) = ofList (s.toList.map f) := by
  simp [Function.comp_def,settles]

def text : JsText := {JsText.plain with
  toUpperCase := fun s => ofList (s.toList.map Char.toUpper)
  toLowerCase := fun s => ofList (s.toList.map Char.toLower)
  upper_settles := mapped_settles upper_upper
  lower_settles := mapped_settles lower_lower}

def host : FeedCatalog.Host := ⟨text,fun _ => "",fun _ => "",fun _ _ => ""⟩

def coi : Coi.Host := ⟨text,fun _ => none,fun _ => ""⟩

open CatalogGovernance.Sample (start feeds)

def removal : CatalogPolicyChange := ⟨1,.standard,[],["USDC"]⟩

def proposes (change : CatalogPolicyChange) : Request :=
  ⟨epoch,.createProposal "alice" "change" change (empty.set "reflector" "GREFLECTOR")⟩

def proposed (change : CatalogPolicyChange) : Governance := next host start (proposes change)

def declares (source : String) : Coi.Result (CoiDisclosure × CoiRegister) :=
  Coi.declare coi (Coi.create none) epoch ⟨"bob","financial",source,"source",none,none,true⟩

theorem start_created : create host genesisFeeds = .ok start := genesis_created (by decide +kernel)

theorem proposed_run : Runs.Run (Runs.total (next host)) start [⟨start,proposes change,proposed change⟩] (proposed change) :=
  .snoc .nil rfl

theorem reviewable (change : CatalogPolicyChange) (shown : ((proposed change).proposals.get 1).map (fun p =>
      (p.change,p.status,p.proposer,p.reviews.length,decide ((epoch : Int) > p.reviewDeadlineAt))) = some (change,.inReview,"alice",0,false)) :
    ∃ p, (proposed change).proposals.get 1 = some p ∧ p.change = change ∧ MayReview host epoch p "bob" := by
  obtain ⟨p,has,parts⟩ := Option.map_eq_some_iff.mp shown
  simp only [Prod.mk.injEq,length_eq_zero_iff,decide_eq_false_iff_not] at parts
  obtain ⟨same,opened,proposer,reviews,timely⟩ := parts
  refine ⟨p,has,same,by decide,opened,timely,?_,by simp [reviews],by simp [reviews,Guardrails.maxReviewers]⟩
  rw [proposer]
  decide

theorem declares_concern (change : CatalogPolicyChange) (done : declares source = .ok (disclosure,register))
    (used : source ∈ sourcesBefore host feeds change) : Holding register "bob" disclosure ∧ Concerns coi host feeds change disclosure := by
  obtain ⟨holding,_,counterparty⟩ := Coi.declare_holding done
  refine ⟨holding,.inr ⟨?_,source,mem_append_left _ used,congrArg _ counterparty⟩⟩
  cases held : disclosure.scope <;> simp_all [Coi.CoiScope.name]
end Sample

theorem declared_source_recused : ∃ p disclosure register, (Sample.proposed Sample.raise).proposals.get 1 = some p ∧
    MayReview Sample.host epoch p "bob" ∧ Sample.declares "band" = .ok (disclosure,register) ∧
    Throws (recordReview Sample.host (Sample.proposed Sample.raise) epoch (isRecused Sample.coi register epoch) 1 "bob" .approve true) := by
  obtain ⟨p,stored,same,may⟩ := Sample.reviewable Sample.raise (by decide +kernel)
  obtain ⟨⟨disclosure,register⟩,done⟩ := ok_of_toBool (x := Sample.declares "band") (by decide +kernel)
  obtain ⟨holding,concerns⟩ := Sample.declares_concern Sample.raise done (by decide +kernel)
  refine ⟨p,disclosure,register,stored,may,done,?_⟩
  refine (recusal_exact Sample.coi stored Sample.feeds "bob").mpr ?_ register epoch .approve true disclosure holding (same ▸ concerns)
  intro _
  rw [same,Covered]
  decide +kernel

-- Removing a feed names none of them: who has declared one reviews the removal.
theorem removed_source_reviewed : ∃ disclosure register p reviewed, create Sample.host genesisFeeds = .ok Sample.start ∧
    Runs.Run (Runs.total (next Sample.host)) Sample.start [⟨Sample.start,Sample.proposes Sample.removal,Sample.proposed Sample.removal⟩]
      (Sample.proposed Sample.removal) ∧
    Sample.declares "reflector" = .ok (disclosure,register) ∧ Holding register "bob" disclosure ∧
    (Sample.proposed Sample.removal).proposals.get 1 = some p ∧ Concerns Sample.coi Sample.host Sample.feeds p.change disclosure ∧
    recordReview Sample.host (Sample.proposed Sample.removal) epoch (isRecused Sample.coi register epoch) 1 "bob" .approve true = .ok reviewed := by
  have accepted : (Sample.declares "reflector").toOption.any (fun made => (recordReview Sample.host (Sample.proposed Sample.removal) epoch
      (isRecused Sample.coi made.2 epoch) 1 "bob" .approve true).toBool) = true := by decide +kernel
  obtain ⟨p,stored,same,_⟩ := Sample.reviewable Sample.removal (by decide +kernel)
  obtain ⟨⟨disclosure,register⟩,done⟩ := ok_of_toBool (x := Sample.declares "reflector") (by decide +kernel)
  obtain ⟨holding,concerns⟩ := Sample.declares_concern Sample.removal done (by decide +kernel)
  rw [done] at accepted
  obtain ⟨reviewed,recorded⟩ := ok_of_toBool accepted
  exact ⟨disclosure,register,p,reviewed,Sample.start_created,Sample.proposed_run,done,holding,stored,same ▸ concerns,recorded⟩

end StellarPriceOracle.CatalogRecusal
