import StellarPriceOracle.OracleContract
import StellarPriceOracle.Governance
import StellarPriceOracle.Proxy
import StellarPriceOracle.Library.Catalogue

namespace StellarPriceOracle.Registry
open Guarded Storage Catalogue
open Submission (Host Verifier writePrice)
open KeyedStore (empty)
open Option (elim_some map_some)
open Governance
open Register

variable {id : Nat}

-- The entry points that share the registry accessors of storage.rs, on one storage.
inductive Entry where
  | oracle (call : OracleContract.Call)
  | governance (call : Call)
  | proxy (call : Proxy.Call)

def step (host : Host) (verify : Verifier) (uploaded : Bytes → Bool) (s : Storage) : Env × Entry → Outcome Storage
  | (env,.oracle call) => OracleContract.step host verify s (env,call)
  | (env,.governance call) => Governance.step s (env,call)
  | (env,.proxy call) => Proxy.step uploaded s (env,call)

abbrev Trace := List (Runs.Transition Storage (Env × Entry))

abbrev Sources := Register Address Str

-- What the storage says of the sources and assets, as a register.
structure Represents (s : Storage) (r : Sources) : Prop where
  authorized : ∀ a, isAuthorizedSource s a = true ↔ a ∈ r.members
  named : ∀ a, (s.get (.sourceName a)).isSome = true ↔ a ∈ r.members
  counted : getSourceCount s = r.members.card
  listed : getAllAssets s = r.listed
  priced : ∀ asset, (getLatestPrice s asset).isSome = true ↔ asset ∈ r.listed

-- Most calls write none of these keys.
structure SameRegistry (next s : Storage) : Prop where
  sources : ∀ a, next.get (.source a) = s.get (.source a)
  names : ∀ a, next.get (.sourceName a) = s.get (.sourceName a)
  count : next.get .sourceCount = s.get .sourceCount
  assets : next.get .allAssets = s.get .allAssets
  prices : ∀ asset, next.get (.latestPrice asset) = s.get (.latestPrice asset)

section
variable (rep : Represents s r)
include rep

theorem Represents.congr (same : SameRegistry next s) : Represents next r := by
  refine ⟨?_,?_,?_,?_,?_⟩
  · intro a
    rw [isAuthorizedSource,same.sources a]
    exact rep.authorized a
  · intro a
    rw [same.names a]
    exact rep.named a
  · rw [getSourceCount,same.count]
    exact rep.counted
  · rw [getAllAssets,same.assets]
    exact rep.listed
  · intro asset
    rw [getLatestPrice,same.prices asset]
    exact rep.priced asset

theorem Represents.add (added : addSource s source name = .ok next) : Represents next (r.apply (.add source)) := by
  simp only [addSource] at added
  split at added
  · -- A repeated add rewrites the flag; the name and the count stay.
    rename_i mem
    cases added
    have member := (rep.authorized source).mp mem
    have same : r.apply (.add source) = r := by simp [apply,member]
    rw [same]
    refine ⟨?_,?_,rep.counted,rep.listed,rep.priced⟩
    · intro a
      rcases eq_or_ne a source with rfl | here
      · simp [isAuthorizedSource,member]
      · simpa [isAuthorizedSource,here] using rep.authorized a
    · intro a
      simpa using rep.named a
  · rename_i absent
    simp only [bind_ok,addBelow_ok,Except.ok.injEq] at added
    obtain ⟨_,⟨_,rfl⟩,rfl⟩ := added
    have fresh : source ∉ r.members := fun member => absent ((rep.authorized source).mpr member)
    refine ⟨?_,?_,?_,?_,?_⟩
    · intro a
      rcases eq_or_ne a source with rfl | here
      · simp [isAuthorizedSource,apply]
      · simpa [isAuthorizedSource,apply,here] using rep.authorized a
    · intro a
      rcases eq_or_ne a source with rfl | here
      · simp [apply]
      · simpa [apply,here] using rep.named a
    · have count := rep.counted
      simp only [getSourceCount] at count
      simp [getSourceCount,apply,fresh,count]
    · simpa [getAllAssets,apply] using rep.listed
    · intro asset
      simpa [getLatestPrice,apply] using rep.priced asset

theorem Represents.drop : Represents (removeSource s source) (r.apply (.drop source)) := by
  simp only [removeSource]
  split
  · rename_i mem
    have member := (rep.authorized source).mp mem
    have count : getSourceCount ((s.remove (.source source)).remove (.sourceName source)) = r.members.card := by
      simpa [getSourceCount] using rep.counted
    have pos : 0 < r.members.card := Finset.card_pos.mpr ⟨source,member⟩
    rw [count,if_pos pos]
    refine ⟨?_,?_,?_,?_,?_⟩
    · intro a
      rcases eq_or_ne a source with rfl | here
      · simp [isAuthorizedSource,apply]
      · simpa [isAuthorizedSource,apply,here] using rep.authorized a
    · intro a
      rcases eq_or_ne a source with rfl | here
      · simp [apply]
      · simpa [apply,here] using rep.named a
    · simp [getSourceCount,apply,Finset.card_erase_of_mem member]
    · simpa [getAllAssets,apply] using rep.listed
    · intro asset
      simpa [getLatestPrice,apply] using rep.priced asset
  · rename_i absent
    have fresh : source ∉ r.members := fun member => absent ((rep.authorized source).mpr member)
    have same : r.apply (.drop source) = r := by simp [apply,fresh]
    rw [same]
    exact rep

-- An asset is listed when its first price is written.
theorem Represents.record : Represents (setLatestPrice s asset point) (r.apply (.record asset)) := by
  have members : (r.apply (.record asset)).members = r.members := by
    simp only [apply]
    split <;> rfl
  refine ⟨?_,?_,?_,?_,?_⟩
  · intro a
    rw [members]
    simpa [isAuthorizedSource] using rep.authorized a
  · intro a
    rw [members]
    simpa using rep.named a
  · rw [members]
    simpa [getSourceCount] using rep.counted
  · rw [record_listed]
    cases has : getLatestPrice s asset with
    | none =>
      have fresh : asset ∉ r.listed := by
        intro mem
        have priced := (rep.priced asset).mpr mem
        simp [has] at priced
      have assets := rep.listed
      simp only [getAllAssets] at assets
      simp [setLatestPrice,has,getAllAssets,fresh,assets]
    | some =>
      have mem : asset ∈ r.listed := (rep.priced asset).mp (by simp [has])
      have assets := rep.listed
      simp only [getAllAssets] at assets
      simp [setLatestPrice,has,getAllAssets,mem,assets]
  · intro other
    rw [record_listed]
    have before := rep.priced other
    rcases eq_or_ne other asset with rfl | here
    · split <;> simp_all [getLatestPrice]
    · have kept : getLatestPrice (setLatestPrice s asset point) other = getLatestPrice s other := by
        simp [getLatestPrice,here]
      rw [kept,before]
      split <;> simp [here]

-- The asset has a price already, so it is listed.
theorem Represents.rescale (has : getLatestPrice s asset = some prev) : Represents (s.set (.latestPrice asset) point) r := by
  refine ⟨rep.authorized,rep.named,rep.counted,rep.listed,?_⟩
  intro other
  rcases eq_or_ne other asset with rfl | here
  · have mem := rep.priced other
    rw [has] at mem
    simpa [getLatestPrice] using mem
  · have kept : getLatestPrice (s.set (.latestPrice asset) point) other = getLatestPrice s other := by
      simp [getLatestPrice,here]
    rw [kept]
    exact rep.priced other

theorem Represents.write : Represents (writePrice s point) (r.apply (.record point.asset)) := by
  have rated : Represents (Utils.updateReputation s point.source point.price point.asset point.timestamp) r := by
    apply rep.congr
    constructor <;> simp
  apply Represents.congr rated.record
  constructor <;> intros <;> apply Utils.appendHistory_get <;> simp

end

def actionEffect : ProposalAction → Effect Address Str
  | .addSource source _ | .addOracleSource source _ => .add source
  | .removeSource source | .removeOracleSource source => .drop source
  | _ => .keep

-- A call that runs a stored proposal has the effect of its action.
def effect (s : Storage) : Entry → Effect Address Str
  | .oracle (.addOracleSource _ source _) | .proxy (.addOracleSource _ source _) => .add source
  | .oracle (.removeOracleSource _ source) | .proxy (.removeOracleSource _ source) => .drop source
  | .oracle (.submitPrice _ asset _ _ _) | .proxy (.submitPrice _ asset _ _ _) => .record asset
  | .oracle (.applyBatchEntry _ entry _) => .record entry.asset
  | .oracle (.executeProposal _ id) => ((getMultisigProposal s id).map MultiSigProposal.action).elim .keep actionEffect
  | .governance (.execute id) | .governance (.emergencyExecute _ id) =>
    ((getGovProposal s id).map GovernanceProposal.action).elim .keep actionEffect
  | _ => .keep

section
variable (rep : Represents s r)
include rep

theorem multisig_represents (ran : MultiSigActions.applyProposalAction env s signer action = .ok next) :
    Represents next (r.apply (actionEffect action)) := by
  cases action with
  | addSource source name | addOracleSource source name => exact rep.add ran
  | removeSource source | removeOracleSource source =>
    cases ran
    exact rep.drop
  | updateAssetDecimals =>
    obtain ⟨_,rfl⟩ | ⟨_,has,rfl⟩ := MultiSigActions.updateAssetDecimals_parts ran
    · exact rep
    · exact rep.rescale has
  | _ =>
    apply rep.congr
    constructor <;> intros <;> apply MultiSigActions.applyProposalAction_get ran <;> simp [MultiSigActions.Touches]

theorem oracle_represents (accepted : OracleContract.step host verify s (env,call) = .ok next) :
    Represents next (r.apply (effect s (.oracle call))) := by
  cases call with
  | addOracleSource =>
    simp only [OracleContract.step,Admin.addOracleSource,bind_ok] at accepted
    obtain ⟨_,_,_,_,added⟩ := accepted
    exact rep.add added
  | removeOracleSource =>
    obtain ⟨_,rfl⟩ := Admin.configure_ok.mp accepted
    exact rep.drop
  | submitPrice =>
    obtain ⟨_,submitted,⟨⟩⟩ := bind_ok.mp accepted
    obtain ⟨_,_,_,_,_,rfl⟩ := Submission.submitPrice_parts submitted
    exact rep.write
  | applyBatchEntry =>
    obtain ⟨_,applied,⟨⟩⟩ := bind_ok.mp accepted
    obtain ⟨_,_,_,_,rfl⟩ := Submission.applyBatchEntry_parts applied
    apply Represents.write
    apply rep.congr
    constructor <;> simp
  | executeProposal =>
    obtain ⟨p,applied,has,ran,rfl⟩ := MultiSigActions.executeProposal_parts accepted
    simp only [effect,has,map_some,elim_some]
    apply (multisig_represents rep ran).congr
    constructor <;> simp
  | _ =>
    apply rep.congr
    constructor <;> intros <;> apply OracleContract.step_frame accepted <;>
      simp [OracleContract.Touches,DataKey.BatchSlot]

theorem action_represents (ran : applyAction s action = .ok next) : Represents next (r.apply (actionEffect action)) := by
  cases action with
  | addSource source name | addOracleSource source name => exact rep.add ran
  | removeSource source | removeOracleSource source =>
    cases ran
    exact rep.drop
  | _ =>
    apply rep.congr
    constructor <;> intros <;> apply applyAction_get ran <;> simp [Touches]

theorem recorded_represents : Represents (setGovProposal s p) r := by
  apply rep.congr
  constructor <;> simp [setGovProposal]

theorem governance_represents (ran : Governance.step s (env,call) = .ok next) :
    Represents next (r.apply (effect s (.governance call))) := by
  cases call with
  | execute =>
    obtain ⟨_,p,q,_,has,resolved,_,_,applied⟩ := execute_parts ran
    rw [(resolution_same resolved).2.1] at applied
    simp only [effect,has,map_some,elim_some]
    exact action_represents (recorded_represents rep) applied
  | emergencyExecute =>
    obtain ⟨p,has,_,_,applied⟩ := emergencyExecute_parts ran
    simp only [effect,has,map_some,elim_some]
    exact action_represents (recorded_represents rep) applied
  | _ =>
    apply rep.congr
    constructor <;> intros <;> apply step_frame_of (by simp) ran <;> simp [Writes]

theorem proxy_represents (ran : Proxy.step uploaded s (env,call) = .ok next) :
    Represents next (r.apply (effect s (.proxy call))) := by
  cases call with
  | addOracleSource =>
    obtain ⟨_,_,added⟩ := bind_ok.mp ran
    exact rep.add added
  | removeOracleSource =>
    obtain ⟨_,rfl⟩ := Admin.configure_ok.mp ran
    exact rep.drop
  | submitPrice =>
    obtain ⟨_,submitted,⟨⟩⟩ := bind_ok.mp ran
    rw [Proxy.submitPrice_parts submitted]
    exact rep.write
  | _ =>
    apply rep.congr
    constructor <;> intros <;> apply Proxy.step_frame ran <;> simp [Proxy.Touches,Proxy.UpgradeSlot]

theorem step_represents (ran : step host verify uploaded s (env,entry) = .ok next) : Represents next (r.apply (effect s entry)) := by
  cases entry with
  | oracle => exact oracle_represents rep ran
  | governance => exact governance_represents rep ran
  | proxy => exact proxy_represents rep ran

end

def effects (ts : Trace) : List (Effect Address Str) := ts.map (fun t => effect t.before t.input.2)

theorem empty_represents : Represents empty Register.empty := by
  refine ⟨?_,?_,rfl,rfl,?_⟩ <;> intro <;> simp [isAuthorizedSource,getLatestPrice,Register.empty]

theorem runs_represent (path : Runs.Run (step host verify uploaded) empty ts s) :
    Represents s ((effects ts).foldl apply Register.empty) := by
  induction path with
  | nil => exact empty_represents
  | @snoc ts s input next prior ran ih =>
    obtain ⟨_,_⟩ := input
    rw [effects,List.map_append,List.foldl_append]
    exact step_represents ih ran

def writes : Entry → Option Str
  | .oracle (.submitPrice _ asset _ _ _) | .proxy (.submitPrice _ asset _ _ _) => some asset
  | .oracle (.applyBatchEntry _ entry _) => some entry.asset
  | _ => none

theorem action_unlisted : (actionEffect action).listed = none := by
  cases action <;> rfl

theorem effect_listed : (effect s entry).listed = writes entry := by
  cases entry with
  | oracle call =>
    cases call with
    | executeProposal _ id =>
      simp only [effect,writes]
      cases getMultisigProposal s id with
      | none => rfl
      | some => exact action_unlisted
    | _ => rfl
  | governance call =>
    cases call with
    | execute id | emergencyExecute guardian id =>
      simp only [effect,writes]
      cases getGovProposal s id with
      | none => rfl
      | some => exact action_unlisted
    | _ => rfl
  | proxy call => cases call <;> rfl

structure Bookkept (ts : Trace) (s : Storage) : Prop where
  counted : ∃ sources : Finset Address, (∀ a, a ∈ sources ↔ isAuthorizedSource s a = true) ∧
    getSourceCount s = sources.card
  named : ∀ a, (s.get (.sourceName a)).isSome = isAuthorizedSource s a
  once : (getAllAssets s).Nodup
  priced : ∀ asset, asset ∈ getAllAssets s ↔ (getLatestPrice s asset).isSome = true
  ordered : getAllAssets s = (ts.filterMap (fun t => writes t.input.2)).eraseDups

theorem registry_bookkept (path : Runs.Run (step host verify uploaded) empty ts s) : Bookkept ts s := by
  have represents := runs_represent path
  have recorded : (effects ts).filterMap Effect.listed = ts.filterMap (fun t => writes t.input.2) := by
    simp [effects,List.filterMap_map,effect_listed]
  refine ⟨⟨_,fun a => (represents.authorized a).symm,represents.counted⟩,?_,?_,?_,?_⟩
  · intro a
    apply Bool.eq_iff_iff.mpr
    exact (represents.named a).trans (represents.authorized a).symm
  · rw [represents.listed]
    exact Register.once _
  · intro asset
    rw [represents.listed]
    exact (represents.priced asset).symm
  · rw [represents.listed,replay_listed,recorded]

namespace Sample
open OracleContract.Sample

def other : Str := [0x42,0x54,0x43]

def entries : List Entry :=
  [.oracle (.initializeContract admin),.oracle (.addOracleSource admin (.repeated 0x31) [0x31]),
    .proxy (.addOracleSource admin (.repeated 0x32) [0x32]),.oracle (.addOracleSource admin (.repeated 0x31) [0x39]),
    .oracle (.submitPrice (.repeated 0x31) asset 100 7 1000),.proxy (.submitPrice (.repeated 0x32) other 5 7 1000),
    .oracle (.submitPrice (.repeated 0x32) asset 101 7 1001),.oracle (.initMultisig admin [.repeated 0x33,.repeated 0x34] 1),
    .oracle (.createProposal (.repeated 0x33) (.removeSource (.repeated 0x31))),.oracle (.executeProposal (.repeated 0x34) 0)]

def run : Outcome (Trace × Storage) :=
  Runs.replay (step host (Submission.merkleVerifier host) (fun _ => true)) empty
    (entries.map (fun entry => (env,entry)))
end Sample

open Sample

theorem busy_registry_bookkept : ∃ ts s,
    Runs.Run (step OracleContract.Sample.host (Submission.merkleVerifier OracleContract.Sample.host) (fun _ => true))
      empty ts s ∧ Bookkept ts s ∧ getSourceCount s = 1 ∧ getAllAssets s = [OracleContract.Sample.asset,other] := by
  have replayed : run.map (fun result => (getSourceCount result.2,getAllAssets result.2)) =
      .ok (1,[OracleContract.Sample.asset,other]) := by rfl
  obtain ⟨ts,s,path,count,assets⟩ := Runs.replay_pair replayed
  exact ⟨ts,s,path,registry_bookkept path,count,assets⟩

end StellarPriceOracle.Registry
