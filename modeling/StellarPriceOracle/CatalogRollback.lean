import StellarPriceOracle.CatalogDiscipline

namespace StellarPriceOracle.CatalogGovernance
open FeedCatalog Guarded JsArray InsertionMap
open Runs (Run total)
open List (mem_map_of_mem)

-- localeCompare finds no two tickers equal.
def Separates (host : Host) : Prop :=
  ∀ a b, isTicker a = true → isTicker b = true → host.text.collates a b = true → host.text.collates b a = true → a = b

-- What is true of every version. To normalize it again changes nothing.
structure Normal (host : Host) (feeds : List FeedPolicy) : Prop extends Sound feeds where
  normal : ∀ feed ∈ feeds, normalizeFeed host feed = .ok feed
  sorted : sortFeeds host feeds = feeds

section
variable {host : Host} {s s' : Governance} {feeds live : List FeedPolicy}

theorem Normal.ticker (held : Normal host feeds) (mem : feed ∈ feeds) : isTicker feed.asset = true := by
  by_contra other
  refine held.passes feed mem ⟨"INVALID_ASSET",.error,"Asset \"" ++ feed.asset ++ "\" is not a valid upper-case ticker",feed.asset⟩ ?_ rfl
  simp [validateFeed,Bool.eq_false_iff.mpr other]

theorem runs_normal (created : create host genesis = .ok start) (sound : Sound start.latest.feeds) (path : Run (total (next host)) start ts s) :
    ∀ policy ∈ s.versions, Normal host policy.feeds := by
  have again : ∀ feeds, sortFeeds host (sortFeeds host feeds) = sortFeeds host feeds :=
    fun _ => sortBy_sortBy (fun _ _ => host.text.collates_total _ _) (fun _ _ _ => host.text.collates_trans _ _ _)
  refine runs_project created path ?_ ?_
  · obtain ⟨_,made,⟨⟩⟩ := bind_ok.mp created
    obtain ⟨_,_,⟨⟩⟩ := bind_ok.mp made
    refine ⟨sound,?_,again _⟩
    intro feed mem
    obtain ⟨_,_,done⟩ := normalizeFeeds_mem made mem
    exact normalizeFeed_settles done
  · intro s id p catalogued got ran held
    refine ⟨ran.sound held.toSound,?_,again _⟩
    intro feed mem
    rcases mem_projectFeeds mem with written | kept
    · exact normalizeChange_mem (catalogued.normal id p got) written
    · exact held.normal feed kept

def rollbackChange (version : Nat) (live feeds : List FeedPolicy) : CatalogPolicyChange :=
  ⟨.finite version,.rollback,feeds,(live.map FeedPolicy.asset).filter (fun asset => asset ∉ feeds.map FeedPolicy.asset)⟩

section
variable (current : Normal host live) (target : Normal host feeds) (normal : normalizeChange host (rollbackChange version live feeds) = .ok change)
include current target normal

-- Every feed of the target is written, and what the target does not have is removed.
theorem rollback_get : (projected live change).get asset = some feed ↔ feed ∈ feeds ∧ feed.asset = asset := by
  have again : normalizeFeeds host feeds = .ok feeds := by rw [normalizeFeeds,each_same target.normal,ok_bind,target.sorted]
  obtain ⟨_,made,⟨⟩⟩ := bind_ok.mp normal
  cases made.symm.trans again
  by_cases named : asset ∈ feeds.map FeedPolicy.asset
  · obtain ⟨other,among,here,got⟩ := upserted_named named
    rw [projected,got]
    constructor
    · rintro ⟨⟩
      exact ⟨among,here⟩
    · rintro ⟨mem,rfl⟩
      exact congrArg some (List.inj_on_of_nodup_map target.distinct among mem here)
  · rw [projected,upserted_other named,removed_exact]
    constructor
    · intro got
      split at got
      · cases got
      · rename_i kept
        obtain ⟨old,among,rfl,rfl⟩ := collect_mem got
        have removed : old.asset ∈ (rollbackChange version live feeds).removals := List.mem_filter.mpr ⟨mem_map_of_mem among,decide_eq_true named⟩
        obtain ⟨_,_,same⟩ := bind_ok.mp (current.normal old among)
        have same := congrArg FeedPolicy.asset (Except.ok.inj same)
        exact absurd (mem_sort.mpr (mem_distinct.mpr (List.mem_map.mpr ⟨_,removed,same⟩))) kept
    · rintro ⟨mem,rfl⟩
      exact absurd (mem_map_of_mem mem) named

theorem rollback_projects (separates : Separates host) : projectFeeds host live change = feeds := by
  have sorted : ∀ feeds, (sortFeeds host feeds).Pairwise (fun a b => host.text.collates a.asset b.asset = true) :=
    fun _ => sortBy_sorted (fun _ _ => host.text.collates_total _ _) (fun _ _ _ => host.text.collates_trans _ _ _)
  have same : ∀ feed, feed ∈ projectFeeds host live change ↔ feed ∈ feeds := by
    intro feed
    rw [projectFeeds_projected,sortFeeds,mem_sortBy,mem_values]
    simp [rollback_get current target normal]
  refine List.Perm.eq_of_pairwise ?_ (sorted _) (target.sorted ▸ sorted feeds)
    ((List.perm_ext_iff_of_nodup (projectFeeds_distinct.of_map _) (target.distinct.of_map _)).mpr same)
  intro a b left right below above
  have left := (same a).mp left
  exact List.inj_on_of_nodup_map target.distinct left right (separates _ _ (target.ticker left) (target.ticker right) below above)

end

theorem rollback_parts (catalogued : Catalogued host s)
    (done : createRollbackProposal host s now proposer version description addresses = .ok (p,s')) :
    ∃ target ∈ s.versions, target.version = version ∧ ∃ q, s'.proposals.get p.id = some q ∧
      normalizeChange host (rollbackChange s.latest.version s.latest.feeds target.feeds) = .ok q.change := by
  simp only [createRollbackProposal,policyVersion,createProposal,bind_ok,someOr_ok,keeping_ok,Except.ok.injEq,Prod.mk.injEq] at done
  obtain ⟨_,_,_,⟨target,found,rfl⟩,_,_,_,_,_,_,_,normal,_,_,_,_,_,_,_,_,rfl,rfl⟩ := done
  have stored := List.mem_of_find?_eq_some found
  rw [currentPolicy_latest catalogued,clonePolicy_same catalogued stored] at normal
  exact ⟨target,stored,by simpa using List.find?_some found,_,get_set,normal⟩

-- Whatever happens between the proposal and its activation, the new version has the target's feeds.
theorem rollback_restores (separates : Separates host) (created : create host genesis = .ok start) (sound : Sound start.latest.feeds)
    (path : Run (total (next host)) start ts s)
    (asked : createRollbackProposal host s now proposer version description addresses = .ok (p,opened))
    (onward : Run (total (next host)) opened later r) (activated : (next host r request).versions = r.versions ++ [after])
    (carries : after.proposalId = some p.id) : ∃ target ∈ s.versions, target.version = version ∧ after.feeds = target.feeds := by
  have catalogued := runs_catalogued created path
  obtain ⟨target,stored,numbered,q,got,normal⟩ := rollback_parts catalogued asked
  have effect : Effect host now s (stateOf (createRollbackProposal host s now proposer version description addresses)) := rollback_effect
  rw [asked] at effect
  have held : Catalogued host r ∧ s.versions <+: r.versions ∧ ∃ p', r.proposals.get p.id = some p' ∧ p'.change = q.change := by
    apply onward.invariant_of (fun t => run_effect onward) ⟨effect.catalogued catalogued,effect.appends,q,got,rfl⟩
    intro t effect _ ⟨catalogued,appends,_,got,same⟩
    obtain ⟨p',got,kept,_⟩ := effect.forward catalogued got
    exact ⟨effect.catalogued catalogued,appends.trans effect.appends,p',got,kept.trans same⟩
  obtain ⟨catalogued',appends,p',got',change⟩ := held
  rcases next_effect.versions catalogued' with same | ⟨id,_,found,ran,added⟩
  · have longer := congrArg List.length (same.symm.trans activated)
    simp at longer
  · cases List.append_cancel_left (activated.symm.trans added)
    cases carries
    cases Option.some.inj (found.symm.trans got')
    -- The change names the version it was written against, so that version is still the live one.
    obtain ⟨_,_,made⟩ := bind_ok.mp normal
    have base := ran.base.symm.trans (congrArg CatalogPolicyChange.baseVersion (change.trans (Except.ok.inj made).symm))
    have live := version_inj catalogued' latest_mem (appends.subset latest_mem) (by simpa [rollbackChange] using base)
    have normals := runs_normal created sound path
    refine ⟨target,stored,numbered,?_⟩
    simp only [applyCatalogChange,live,change]
    exact rollback_projects (normals s.latest latest_mem) (normals target stored) normal separates

end

deriving instance DecidableEq for CatalogPolicy

namespace Sample
theorem day_within : -8640000000000000 ≤ (172800000 : Int) ∧ (172800000 : Int) ≤ 8640000000000000 := by decide

def day : Instant := instant 172800000 day_within

def agrees (reviewer : String) : Request := ⟨day,.recordReview (fun _ _ => []) 2 reviewer .approve true⟩

def reviews : List Request := [⟨day,.attachImpact 2 ⟨.low,false⟩⟩,agrees "bob",agrees "carol",agrees "dave"]

def undoes : Request := ⟨instant 345600000 (by decide),.activate (fun _ => false) 2 "erin" []⟩

theorem raise_rolled_back : ∃ ts s p opened later r after, Run (total (next host)) start ts s ∧
    createRollbackProposal host s day "alice" 1 none .empty = .ok (p,opened) ∧ Run (total (next host)) opened later r ∧
    (next host r undoes).versions = r.versions ++ [after] ∧ ∃ target ∈ s.versions, target.version = 1 ∧ after.feeds = target.feeds := by
  have seen : (Runs.replay (total (next host)) start requests).map (fun result =>
      (createRollbackProposal host result.2 day "alice" 1 none .empty).toOption.any (fun made =>
        (Runs.replay (total (next host)) made.2 reviews).toOption.any (fun result =>
          let s := next host result.2 undoes
          s.versions = result.2.versions ++ [s.latest] ∧ s.latest.proposalId = some made.1.id))) = .ok true := by decide +kernel
  obtain ⟨ts,s,path,shown⟩ := Runs.replay_observed seen
  obtain ⟨⟨p,opened⟩,asked,shown⟩ := (Option.any_eq_true _ _).mp shown
  obtain ⟨⟨later,r⟩,replayed,shown⟩ := (Option.any_eq_true _ _).mp shown
  obtain ⟨activated,carries⟩ := of_decide_eq_true shown
  have onward := Runs.replay_run .nil (ok_of_toOption replayed)
  have separates : Separates host := by
    intro a b _ _ below above
    exact String.le_antisymm (of_decide_eq_true below) (of_decide_eq_true above)
  have sound : Sound start.latest.feeds := ⟨by decide +kernel,by decide +kernel,by decide +kernel⟩
  exact ⟨ts,s,p,opened,_,r,_,path,ok_of_toOption asked,onward,activated,
    rollback_restores separates start_created sound path (ok_of_toOption asked) onward activated carries⟩
end Sample

end StellarPriceOracle.CatalogGovernance
