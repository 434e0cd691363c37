import StellarPriceOracle.CatalogGovernance

namespace StellarPriceOracle.CatalogGovernance
open FeedCatalog Guarded
open List
open Runs (Run mem_snoc total)

def genesisFeeds : List FeedPolicy := [
  ⟨"XLM",["chainlink","redstone","band"],2,150,60,none,none,none,true⟩,
  ⟨"USDC",["chainlink","reflector","band"],2,50,60,none,none,none,true⟩]

def Passes (feed : FeedPolicy) : Prop := ∀ finding ∈ validateFeed feed, finding.severity ≠ .error

-- What a policy is as a whole. No function of the source checks this: changes are checked.
structure Sound (feeds : List FeedPolicy) : Prop where
  distinct : (feeds.map FeedPolicy.asset).Nodup
  passes : ∀ feed ∈ feeds, Passes feed
  enabled : ∃ feed ∈ feeds, feed.enabled = true

-- What is stored in any run. A copy of a stored policy is the same.
structure Catalogued (host : Host) (s : Governance) : Prop where
  numbered : s.versions.map CatalogPolicy.version = range' 1 s.versions.length
  quoted : ∀ policy ∈ s.versions, ∀ feed ∈ policy.feeds, cloneFeed feed = feed
  named : ∀ id p, s.proposals.get id = some p → p.id = id ∧ id ≤ s.proposalCount
  normal : ∀ id p, s.proposals.get id = some p → normalizeChange host p.change = .ok p.change

section
variable {host : Host} {now : Instant} {s s' : Governance} {id : Nat}

theorem latest_mem : s.latest ∈ s.versions := getLast_mem s.live

section
variable (catalogued : Catalogued host s)
include catalogued

theorem clonePolicy_same (stored : policy ∈ s.versions) : clonePolicy policy = policy := by
  have same : policy.feeds.map cloneFeed = policy.feeds := by
    rw [map_congr_left (catalogued.quoted policy stored),map_id']
  rw [clonePolicy,same]

theorem currentPolicy_latest : currentPolicy s = s.latest := clonePolicy_same catalogued latest_mem

theorem latest_version : s.latest.version = s.versions.length := by
  have parts := dropLast_concat_getLast s.live
  have size : s.versions.length = s.versions.dropLast.length + 1 := by
    rw [← parts]
    simp
  have numbered := catalogued.numbered
  rw [size,range'_concat,← parts,map_append] at numbered
  have last := append_inj_right' numbered rfl
  rw [size,Nat.add_comm]
  simpa [Governance.latest] using last

theorem version_inj (a : p ∈ s.versions) (b : q ∈ s.versions) (same : p.version = q.version) : p = q := by
  refine inj_on_of_nodup_map ?_ a b same
  rw [catalogued.numbered]
  exact nodup_range'

end

theorem normalizeFeed_quoted (done : normalizeFeed host raw = .ok feed) : cloneFeed feed = feed := by
  obtain ⟨_,_,⟨⟩⟩ := bind_ok.mp done
  rfl

theorem normalizeChange_mem (normal : normalizeChange host given = .ok change) (written : feed ∈ change.upserts) : normalizeFeed host feed = .ok feed := by
  obtain ⟨_,made,⟨⟩⟩ := bind_ok.mp normal
  obtain ⟨_,_,done⟩ := normalizeFeeds_mem made written
  exact normalizeFeed_settles done

theorem create_catalogued (created : create host genesis = .ok start) : Catalogued host start := by
  obtain ⟨_,made,⟨⟩⟩ := bind_ok.mp created
  refine ⟨rfl,?_,by simp,by simp⟩
  intro _ mem _ among
  obtain rfl := mem_singleton.mp mem
  obtain ⟨_,_,done⟩ := normalizeFeeds_mem made among
  exact normalizeFeed_quoted done

theorem Origin.named (origin : Origin host now s s' id p) (catalogued : Catalogued host s) (counts : s.proposalCount ≤ s'.proposalCount) :
    p.id = id ∧ id ≤ s'.proposalCount := by
  cases origin with
  | progressed got progress =>
    obtain ⟨named,within⟩ := catalogued.named id _ got
    exact ⟨progress.proposed.1.trans named,Nat.le_trans within counts⟩
  | created _ room _ opened => exact ⟨opened.named,room⟩
  | activated got _ marked =>
    obtain ⟨named,within⟩ := catalogued.named id _ got
    exact ⟨marked ▸ named,Nat.le_trans within counts⟩

theorem Origin.normal (origin : Origin host now s s' id p) (catalogued : Catalogued host s) : normalizeChange host p.change = .ok p.change := by
  cases origin with
  | progressed got progress =>
    rw [progress.proposed.2.1]
    exact catalogued.normal id _ got
  | created _ _ authored => exact authored.normal
  | activated got _ marked =>
    have held := catalogued.normal id _ got
    exact marked ▸ held

theorem Effect.versions (effect : Effect host now s s') (catalogued : Catalogued host s) : s'.versions = s.versions ∨
    ∃ id p, s.proposals.get id = some p ∧ Accepted host s.latest p.change ∧
      s'.versions = s.versions ++ [applyCatalogChange host s.latest p.change now id] := by
  cases effect with
  | progressed versions => exact .inl versions
  | created => exact .inl rfl
  | @activated p _ _ id got _ _ ran =>
    rw [currentPolicy_latest catalogued] at ran ⊢
    have named := (catalogued.named id p got).1
    refine .inr ⟨id,p,got,ran (catalogued.normal id p got),?_⟩
    simp [Governance.store,Governance.push,named]

-- What projecting a stored change keeps, every version keeps.
theorem Effect.projects {P : List FeedPolicy → Prop} (effect : Effect host now s s') (catalogued : Catalogued host s)
    (project : ∀ id p, s.proposals.get id = some p → Accepted host s.latest p.change → P s.latest.feeds → P (projectFeeds host s.latest.feeds p.change))
    (held : ∀ policy ∈ s.versions, P policy.feeds) : ∀ policy ∈ s'.versions, P policy.feeds := by
  rcases effect.versions catalogued with same | ⟨id,p,got,ran,added⟩
  · rwa [same]
  · rw [added]
    intro policy mem
    rcases mem_snoc.mp mem with old | new
    · exact held policy old
    · obtain rfl := new
      exact project id p got ran (held s.latest latest_mem)

theorem Effect.catalogued (effect : Effect host now s s') (catalogued : Catalogued host s) : Catalogued host s' := by
  refine ⟨?_,?_,fun id p got => (effect.origin got).named catalogued effect.counts,fun id p got => (effect.origin got).normal catalogued⟩
  · rcases effect.versions catalogued with same | ⟨_,_,_,_,added⟩
    · exact same ▸ catalogued.numbered
    · rw [added,map_append,catalogued.numbered,length_append,length_singleton,range'_concat]
      simp [applyCatalogChange,latest_version catalogued,Nat.add_comm]
  · refine effect.projects (P := fun feeds => ∀ feed ∈ feeds, cloneFeed feed = feed) catalogued ?_ catalogued.quoted
    intro id p got _ quoted feed among
    rcases mem_projectFeeds among with written | kept
    · exact normalizeFeed_quoted (normalizeChange_mem (catalogued.normal id p got) written)
    · exact quoted feed kept

theorem runs_catalogued (created : create host genesis = .ok start) (path : Run (total (next host)) start ts s) :
    Catalogued host s := by
  apply path.invariant_of (fun t => run_effect path) (create_catalogued created)
  intro t effect _ catalogued
  exact effect.catalogued catalogued

theorem passes_valid (valid : validateFeed feed = []) : Passes feed := by
  intro _ mem
  rw [valid] at mem
  cases mem

theorem Accepted.sound (ran : Accepted host policy change) (sound : Sound policy.feeds) : Sound (projectFeeds host policy.feeds change) := by
  refine ⟨projectFeeds_distinct,?_,ran.enabled⟩
  intro feed mem
  rcases mem_projectFeeds mem with written | kept
  · exact passes_valid (ran.valid feed written)
  · exact sound.passes feed kept

theorem runs_project {P : List FeedPolicy → Prop} (created : create host genesis = .ok start) (path : Run (total (next host)) start ts s)
    (first : P start.latest.feeds) (project : ∀ s id p, Catalogued host s → s.proposals.get id = some p → Accepted host s.latest p.change →
      P s.latest.feeds → P (projectFeeds host s.latest.feeds p.change)) : ∀ policy ∈ s.versions, P policy.feeds := by
  have held : Catalogued host s ∧ ∀ policy ∈ s.versions, P policy.feeds := by
    apply path.invariant_of (fun t => run_effect path)
    · refine ⟨create_catalogued created,?_⟩
      obtain ⟨_,_,⟨⟩⟩ := bind_ok.mp created
      intro _ present
      obtain rfl := mem_singleton.mp present
      exact first
    · intro t effect _ held
      exact ⟨effect.catalogued held.1,effect.projects held.1 (fun id p => project t.before id p held.1) held.2⟩
  exact held.2

-- Versions are numbered from one and only added; if the genesis is sound, all of them are.
theorem catalog_sound (created : create host genesis = .ok start) (sound : Sound start.latest.feeds)
    (path : Run (total (next host)) start ts s) :
    s.versions.map CatalogPolicy.version = range' 1 s.versions.length ∧ (∀ r ∈ Runs.states start ts, r.versions <+: s.versions) ∧
    ∀ policy ∈ s.versions, Sound policy.feeds := by
  refine ⟨(runs_catalogued created path).numbered,?_,?_⟩
  · intro r visited
    refine path.carries_on (R := fun a b => a.versions <+: b.versions) (fun _ => prefix_refl _) ?_ ?_ visited
    · intro a b c first second
      exact first.trans second
    · intro t present
      exact (run_effect path present).appends
  · exact runs_project created path sound (fun _ _ _ _ _ ran => ran.sound)

end

instance : Decidable (Passes feed) := inferInstanceAs (Decidable (∀ finding ∈ validateFeed feed, finding.severity ≠ .error))

namespace Sample
def host : Host := ⟨JsText.plain,fun _ => "",fun _ => "",fun _ _ => ""⟩

def feed (asset : String) (sources : List String) (maxDeviationBps : JsNumber) : FeedPolicy :=
  ⟨asset,sources,2,maxDeviationBps,60,some "standard",some 59,some defaultQuoteUnit,true⟩

def feeds : List FeedPolicy := [feed "USDC" ["band","chainlink","reflector"] 50,feed "XLM" ["band","chainlink","redstone"] 150]

def start : Governance := ⟨[⟨1,epoch,none,feeds⟩],by simp,.empty,0⟩

def raise : CatalogPolicyChange := ⟨1,.standard,[feed "XLM" ["band","chainlink","redstone"] 200],[]⟩

def instant (ms : Int) (within : -8640000000000000 ≤ ms ∧ ms ≤ 8640000000000000) : Instant := ⟨ms,within⟩

def approves (now : Instant) (reviewer : String) : Request := ⟨now,.recordReview (fun _ _ => []) 1 reviewer .approve true⟩

def requests : List Request := [
  ⟨epoch,.createProposal "alice" "raise the bound" raise .empty⟩,
  ⟨epoch,.attachImpact 1 ⟨.low,false⟩⟩,
  approves epoch "bob",approves epoch "carol",approves epoch "dave",
  ⟨instant 172800000 (by decide),.activate (fun _ => false) 1 "erin" []⟩]
end Sample

open Sample

theorem genesis_created {host : FeedCatalog.Host} (made : (normalizeFeeds host genesisFeeds).toOption = some feeds) :
    create host genesisFeeds = .ok start := by
  simp [create,ok_of_toOption made,ok_bind,start]

theorem start_created : create host genesisFeeds = .ok start := genesis_created (by decide +kernel)

theorem genesis_stays_sound : create host genesisFeeds = .ok start ∧ Sound start.latest.feeds ∧
    ∃ ts s, Run (total (next host)) start ts s ∧ s.versions.map CatalogPolicy.version = [1,2] ∧
      ∀ policy ∈ s.versions, Sound policy.feeds := by
  have sound : Sound start.latest.feeds := ⟨by decide +kernel,by decide +kernel,by decide +kernel⟩
  have observed : (Runs.replay (total (next host)) start requests).map (fun result =>
      result.2.versions.map CatalogPolicy.version) = .ok [1,2] := by rfl
  obtain ⟨ts,s,path,shown⟩ := Runs.replay_observed observed
  exact ⟨start_created,sound,ts,s,path,shown,(catalog_sound start_created sound path).2.2⟩

end StellarPriceOracle.CatalogGovernance
