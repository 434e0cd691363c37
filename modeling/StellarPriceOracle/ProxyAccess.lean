import StellarPriceOracle.Proxy
import StellarPriceOracle.OracleContract

namespace StellarPriceOracle.ProxyAccess
open Guarded Storage Utils Proxy
open Submission (Host checkDecimals checkDeviation_ok maxDecimals writePrice)
open KeyedStore (empty)
open Runs (Run)
open Prod (fst mk)

def Authorized (t : Runs.Transition Storage (Env × Call)) : Prop :=
  ∀ admin ∈ t.before.get .admin, t.after.get .admin ≠ some admin → t.input.1.authorized admin = true

-- The one unguarded writer of Admin: a later `initialize`.
def Keeps (env : Env) (s : Storage) : Call → Prop
  | .initializeProxy newAdmin _ => ∀ admin ∈ s.get .admin, admin = newAdmin ∨ env.authorized admin = true
  | _ => True

instance (env : Env) (s : Storage) (call : Call) : Decidable (Keeps env s call) := by
  cases call <;> unfold Keeps <;> infer_instance

theorem step_authorized (ran : step uploaded s (env,call) = .ok next) : Keeps env s call ↔ Authorized ⟨s,(env,call),next⟩ := by
  cases call with
  | initializeProxy newAdmin implementation =>
    cases ran
    have has : (initializeProxy s newAdmin implementation).get .admin = some newAdmin := by
      simp [initializeProxy,Storage.setAdmin,setImplementation,setContractVersion,Storage.setStorageLayoutVersion]
    constructor
    · intro keeps admin before changed
      rcases keeps admin before with rfl | signed
      · exact absurd has changed
      · exact signed
    · intro authorized admin before
      by_cases same : admin = newAdmin
      · exact Or.inl same
      · refine Or.inr (authorized admin before ?_)
        rw [has]
        exact fun equal => same (Option.some.inj equal).symm
  | setAdmin =>
    obtain ⟨⟨signed,current⟩,rfl⟩ := Admin.configure_ok.mp ran
    refine ⟨?_,fun _ => trivial⟩
    intro _ admin before _
    cases current.symm.trans before
    exact signed
  | _ =>
    have kept : next.get .admin = s.get .admin := step_frame ran (by simp [Touches,UpgradeSlot])
    refine ⟨?_,fun _ => trivial⟩
    intro _ _ before changed
    exact absurd (kept.trans before) changed

-- Admin changes hands by consent exactly if every later `initialize` has it or names Admin again.
theorem admin_consent_exact (path : Run (step uploaded) empty ts s) :
    (∀ t ∈ ts, Keeps t.input.1 t.before t.input.2) ↔ ∀ t ∈ ts, Authorized t := by
  constructor
  · intro keeps t present
    exact (step_authorized (path.accepted present)).mp (keeps t present)
  · intro authorized t present
    exact (step_authorized (path.accepted present)).mpr (authorized t present)

namespace Sample
def admin : Address := .repeated 0x41
def other : Address := .repeated 0x42
def implementation : Address := .repeated 0x49

def env (signer : Address) : Env := ⟨5000,fun a => a == signer,.repeated 0x43,fun _ _ => 0,fun _ _ _ _ => true⟩

def run (inputs : List (Address × Call)) : Outcome (Trace × Storage) :=
  Runs.replay (step (fun _ => true)) empty (inputs.map (fun (signer,call) => (env signer,call)))
end Sample

theorem handover_with_consent : ∃ ts s, Run (step (fun _ => true)) empty ts s ∧
    (∀ t ∈ ts, Authorized t) ∧ s.get .admin = some Sample.other := by
  have replayed : (Sample.run [(Sample.admin,.initializeProxy Sample.admin Sample.implementation),
      (Sample.admin,.setAdmin Sample.admin Sample.other)]).map (fun result =>
        (decide (∀ t ∈ result.1, Keeps t.input.1 t.before t.input.2),result.2.get .admin)) =
          .ok (true,some Sample.other) := by rfl
  obtain ⟨ts,last,path,keeps,holder⟩ := Runs.replay_pair replayed
  exact ⟨ts,last,path,(admin_consent_exact path).mp (of_decide_eq_true keeps),holder⟩

-- Anyone takes the proxy over by initializing it again.
theorem second_initialize_takes_over : ∃ ts s t, Run (step (fun _ => true)) empty ts s ∧
    t ∈ ts ∧ t.before.get .admin = some Sample.admin ∧ t.after.get .admin = some Sample.other ∧
    t.input.1.authorized Sample.admin = false := by
  have replayed : (Sample.run [(Sample.admin,.initializeProxy Sample.admin Sample.implementation),
      (Sample.other,.initializeProxy Sample.other Sample.implementation)]).map (fun result =>
        result.1.getLast?.map (fun t => (t.before.get .admin,t.after.get .admin,t.input.1.authorized Sample.admin))) =
          .ok (some (some Sample.admin,some Sample.other,false)) := by rfl
  obtain ⟨ts,last,path,observed⟩ := Runs.replay_observed replayed
  obtain ⟨t,final,seen⟩ := Option.map_eq_some_iff.mp observed
  obtain ⟨before,seen⟩ := mk.inj seen
  obtain ⟨after,signed⟩ := mk.inj seen
  exact ⟨ts,last,t,path,List.mem_of_getLast? final,before,after,signed⟩

section Submissions
variable (host : Host) (env : Env) (s : Storage) (source : Address) (asset : Str) (price : Int) (decimals timestamp : Nat)

-- A failed call leaves storage as it was, so two failures agree.
def SameOutcome (implementation proxy : Outcome (PriceDataPoint × Storage)) : Prop :=
  match implementation,proxy with
  | .ok a,.ok b => a = b
  | .error _,.error _ => True
  | _,_ => False

def Safe (result : Outcome (PriceDataPoint × Storage)) : Prop :=
  ∀ point next, result = .ok (point,next) → 0 ≤ point.price ∧ ∀ prev ∈ getLatestPrice s point.asset,
    ∀ now ∈ getLatestPrice next point.asset, now.decimals = prev.decimals

structure SamePrices : Prop where
  same : SameOutcome (Submission.submitPrice host env s source asset price decimals timestamp)
    (submitPrice env s source asset price decimals timestamp)
  implementationSafe : Safe s (Submission.submitPrice host env s source asset price decimals timestamp)
  proxySafe : Safe s (submitPrice env s source asset price decimals timestamp)

def Shared : Prop :=
  env.authorized source = true ∧ isAuthorizedSource s source = true ∧ ∀ thresholdBps ∈ getDeviationThreshold s,
    ∀ prev ∈ getLatestPrice s asset, deviationExceeds price prev.price thresholdBps = false

def Extra : Prop :=
  isWritePathPaused s .submitPrice = false ∧ isFeedPaused s asset = false ∧ 0 ≤ price ∧ decimals ≤ maxDecimals ∧
    (∀ prev ∈ getLatestPrice s asset, prev.decimals = decimals) ∧ host.validateStringLen asset = .ok ()

end Submissions

theorem checkDecimals_ok : checkDecimals s asset decimals = .ok u ↔
    decimals ≤ maxDecimals ∧ ∀ prev ∈ getLatestPrice s asset, prev.decimals = decimals := by
  cases has : getLatestPrice s asset with
  | none | some prev => simp [checkDecimals,has]

theorem proxy_exact : submitPrice env s source asset price decimals timestamp = .ok r ↔ Shared env s source asset price ∧
      r = (⟨asset,price,decimals,timestamp,source⟩,writePrice s ⟨asset,price,decimals,timestamp,source⟩) := by
  simp only [submitPrice,bind_ok,requireAuth_ok,require_ok,checkDeviation_ok,Except.ok.injEq,Shared]
  constructor
  · rintro ⟨_,signed,_,known,_,near,rfl⟩
    exact ⟨⟨signed,known,fun thresholdBps set prev has => near thresholdBps prev set has⟩,rfl⟩
  · rintro ⟨⟨signed,known,near⟩,rfl⟩
    exact ⟨(),signed,(),known,(),fun thresholdBps prev set has => near thresholdBps set prev has,rfl⟩

theorem implementation_exact (running : isPaused s = false) :
    Submission.submitPrice host env s source asset price decimals timestamp = .ok r ↔
      Shared env s source asset price ∧ Extra host s asset price decimals ∧
        r = (⟨asset,price,decimals,timestamp,source⟩,writePrice s ⟨asset,price,decimals,timestamp,source⟩) := by
  simp only [Submission.submitPrice,bind_ok,requireAuth_ok,require_ok,checkDeviation_ok,checkDecimals_ok,
    Except.ok.injEq,Shared,Extra]
  constructor
  · rintro ⟨_,signed,_,_,_,⟨path,feed⟩,_,known,_,pos,_,⟨bounded,same⟩,_,short,_,near,rfl⟩
    exact ⟨⟨signed,known,fun thresholdBps set prev has => near thresholdBps prev set has⟩,
      ⟨path,feed,pos,bounded,same,short⟩,rfl⟩
  · rintro ⟨⟨signed,known,near⟩,⟨path,feed,pos,bounded,same,short⟩,rfl⟩
    exact ⟨(),signed,(),running,(),⟨path,feed⟩,(),known,(),pos,(),⟨bounded,same⟩,(),short,(),
      fun thresholdBps prev set has => near thresholdBps set prev has,rfl⟩

theorem written_safe (pos : 0 ≤ price) (same : ∀ prev ∈ getLatestPrice s asset, prev.decimals = decimals)
    (has : result = .ok (⟨asset,price,decimals,timestamp,source⟩,writePrice s ⟨asset,price,decimals,timestamp,source⟩)) :
    Safe s result := by
  rintro _ _ ran
  cases has.symm.trans ran
  refine ⟨pos,?_⟩
  intro prev before _ after
  have latest : getLatestPrice (writePrice s ⟨asset,price,decimals,timestamp,source⟩) asset = _ :=
    Submission.writePrice_latest s ⟨asset,price,decimals,timestamp,source⟩ asset
  rw [latest] at after
  simp only [if_true] at after
  cases after
  exact (same prev before).symm

theorem failed_safe (failed : ∀ r, outcome ≠ .ok r) : Safe s outcome :=
  fun point next ran => absurd ran (failed (point,next))

-- The proxy accepts the same prices exactly when it rejects or the omitted checks pass.
theorem same_prices_exact (running : isPaused s = false) :
    (Shared env s source asset price → Extra host s asset price decimals) ↔
      SamePrices host env s source asset price decimals timestamp := by
  constructor
  · intro covered
    by_cases shared : Shared env s source asset price
    · have extra := covered shared
      have proxy : submitPrice env s source asset price decimals timestamp = .ok _ := proxy_exact.mpr ⟨shared,rfl⟩
      have implementation : Submission.submitPrice host env s source asset price decimals timestamp = .ok _ :=
        (implementation_exact running).mpr ⟨shared,extra,rfl⟩
      obtain ⟨_,_,positive,_,same,_⟩ := extra
      refine ⟨?_,written_safe positive same implementation,written_safe positive same proxy⟩
      rw [proxy,implementation]
      rfl
    · have proxy : ∀ result, submitPrice env s source asset price decimals timestamp ≠ .ok result :=
        fun _ ran => shared (proxy_exact.mp ran).1
      have implementation : ∀ result,
          Submission.submitPrice host env s source asset price decimals timestamp ≠ .ok result :=
        fun _ ran => shared ((implementation_exact running).mp ran).1
      refine ⟨?_,failed_safe implementation,failed_safe proxy⟩
      cases left : Submission.submitPrice host env s source asset price decimals timestamp with
      | ok result => exact absurd left (implementation result)
      | error =>
        cases right : submitPrice env s source asset price decimals timestamp with
        | ok result => exact absurd right (proxy result)
        | error => trivial
  · intro valid shared
    have same := valid.same
    rw [proxy_exact.mpr ⟨shared,rfl⟩] at same
    cases left : Submission.submitPrice host env s source asset price decimals timestamp with
    | error =>
      rw [left] at same
      exact same.elim
    | ok => exact ((implementation_exact running).mp left).2.1

def Sample.registered : List (Address × Call) :=
  [(Sample.admin,.initializeProxy Sample.admin Sample.implementation),
    (Sample.admin,.addOracleSource Sample.admin Sample.other [0x42])]

theorem ordinary_price_same : ∃ ts s, Run (step (fun _ => true)) empty ts s ∧ isPaused s = false ∧
    SamePrices OracleContract.Sample.host (Sample.env Sample.other) s Sample.other OracleContract.Sample.asset 100 7 1000 := by
  have replayed : (Sample.run Sample.registered).map (fun result => (isPaused result.2,
      isWritePathPaused result.2 .submitPrice,isFeedPaused result.2 OracleContract.Sample.asset,
        getLatestPrice result.2 OracleContract.Sample.asset)) = .ok (false,false,false,none) := by rfl
  obtain ⟨ts,s,path,observed⟩ := Runs.replay_observed replayed
  simp only [mk.injEq] at observed
  obtain ⟨running,writable,live,absent⟩ := observed
  refine ⟨ts,s,path,running,(same_prices_exact running).mp ?_⟩
  intro _
  exact ⟨writable,live,by decide,by decide,by simp [absent],rfl⟩

-- The proxy stores a negative price; the implementation answers InvalidPrice.
theorem negative_price_stored : ∃ ts s, Run (step (fun _ => true)) empty ts s ∧ isPaused s = false ∧
    Submission.submitPrice OracleContract.Sample.host (Sample.env Sample.other) s Sample.other
      OracleContract.Sample.asset (-5) 7 1000 = .error (.code .invalidPrice) ∧
    ¬ SamePrices OracleContract.Sample.host (Sample.env Sample.other) s Sample.other
      OracleContract.Sample.asset (-5) 7 1000 := by
  have replayed : (Sample.run Sample.registered).map (fun result => (isPaused result.2,
      (Submission.submitPrice OracleContract.Sample.host (Sample.env Sample.other) result.2 Sample.other
        OracleContract.Sample.asset (-5) 7 1000).map fst,
      (submitPrice (Sample.env Sample.other) result.2 Sample.other OracleContract.Sample.asset (-5) 7 1000).toOption.map
        (fun stored => stored.1.price))) = .ok (false,.error (.code .invalidPrice),some (-5)) := by rfl
  obtain ⟨ts,s,path,observed⟩ := Runs.replay_observed replayed
  simp only [mk.injEq] at observed
  obtain ⟨running,rejected,stored⟩ := observed
  refine ⟨ts,s,path,running,?_,?_⟩
  · exact error_of_map rejected
  · intro valid
    obtain ⟨⟨point,next⟩,ran,price⟩ := Option.map_eq_some_iff.mp stored
    have positive := (valid.proxySafe point next (ok_of_toOption ran)).1
    rw [price] at positive
    exact absurd positive (by decide)

end StellarPriceOracle.ProxyAccess
