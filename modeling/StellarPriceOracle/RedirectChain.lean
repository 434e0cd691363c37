import StellarPriceOracle.OutboundUrls

-- packages/ssrf-guard/src/policy.ts: a chain of redirects, checked hop by hop.
namespace StellarPriceOracle.RedirectChain
open Guarded OutboundUrls
open ForwardedClient (Text)
open List
open Runs (Run total)
open JsNumber (le)
open Except (ok toBool)

structure DeploymentPolicy where
  environment : Text
  allowedHosts : List Text
  allowedSuffixes : Option (List Text)
  (requireHttps allowPrivateIps allowLocalHostnames : Option Bool)
  maxRedirects : Option JsNumber

@[simp] def toSsrfPolicy (policy : DeploymentPolicy) : SsrfPolicy :=
  ⟨some (policy.requireHttps.getD true),some policy.allowedHosts,some (policy.allowPrivateIps.getD false),
    some (policy.allowLocalHostnames.getD false)⟩

structure Resolved where
  address : Text
  family : Nat

structure PinnedDestination where
  (hostname address : Text)
  (family port : Nat)

structure Behaviour where
  resolver : Text → Except Unit (List Resolved)
  fetchRedirect : Text → Except Unit (Option Text)

inductive Failure where
  | ssrf (error : SsrfError)
  | callback

section
variable (platform : Platform)

def normalizeSuffixes (suffixes : Option (List Text)) : List Text :=
  (((suffixes.getD []).map (normalizeHost platform)).filter (fun suffix => !suffix.isEmpty)).map (fun suffix =>
    if suffix.head? = some '.' then suffix else '.' :: suffix)

def validateAgainstDeployment (rawUrl : Text) (policy : DeploymentPolicy) : Except SsrfError Url := do
  let parsed ← validateOutboundUrl platform rawUrl {toSsrfPolicy policy with allowedHosts := none}
  let host := normalizeHost platform parsed.hostname
  let exact := normalizeHosts platform (some policy.allowedHosts)
  let suffixMatch := (normalizeSuffixes platform policy.allowedSuffixes).any (fun suffix => host = suffix.drop 1 || suffix.isSuffixOf host)
  require (exact.contains host = true ∨ suffixMatch = true)
    ⟨saysHost host "\" is not permitted by the \"" ++ policy.environment ++ "\" egress policy".toList,rawUrl,.deploymentAllowlist⟩
  .ok parsed

def pinDestination (hostname : Text) (port : Nat) (policy : SsrfPolicy) (resolver : Text → Except Unit (List Resolved)) :
    Except Failure PinnedDestination :=
  let host := normalizeHost platform hostname
  let ipLiteral := ipLiteralOf host
  if platform.isIP ipLiteral ≠ 0 then do
    require (policy.allowPrivateIps = some true ∨ isPrivateIp platform ipLiteral = false)
      (.ssrf ⟨saysHost host "\" is in a private range",hostname,.privateIp⟩)
    .ok ⟨host,ipLiteral,platform.isIP ipLiteral,port⟩
  else do
    let addresses ← (resolver host).mapError (fun _ => .callback)
    let chosen ← someOr addresses.head? (.ssrf ⟨saysHost host "\" did not resolve",hostname,.dnsEmpty⟩)
    require (policy.allowPrivateIps = some true ∨ ∀ entry ∈ addresses, isPrivateIp platform entry.address = false)
      (.ssrf ⟨saysHost host "\" resolves to a private address",hostname,.privateIp⟩)
    .ok ⟨host,chosen.address,if chosen.family = 6 then 6 else 4,port⟩

def portOf (parsed : Url) : Nat := parsed.port.getD (if parsed.protocol = "https:".toList then 443 else 80)

def check (policy : DeploymentPolicy) (current : Text) (resolver : Text → Except Unit (List Resolved)) :
    Except Failure (Url × PinnedDestination) := do
  let parsed ← (validateAgainstDeployment platform current policy).mapError .ssrf
  let destination ← pinDestination platform parsed.hostname (portOf parsed) (toSsrfPolicy policy) resolver
  .ok (parsed,destination)

structure Fetch where
  url : Text
  parsed : Url
  destination : PinnedDestination
  resolver : Text → Except Unit (List Resolved)
  answer : Except Unit (Option Text)

structure Chain where
  hop : Nat
  current : Text
  fetches : List Fetch
  outcome : Option (Except Failure (Url × PinnedDestination))

@[simp] def Chain.start (startUrl : Text) : Chain := ⟨0,startUrl,[],none⟩

section
variable (policy : DeploymentPolicy)

def maxRedirects : JsNumber := policy.maxRedirects.getD 5

def redirectLimit (startUrl : Text) : SsrfError :=
  ⟨"Redirect chain exceeded ".toList ++ platform.numberText (maxRedirects policy) ++ " hops".toList,startUrl,.redirectLimit⟩

-- A turn of the loop of `validateRedirectChain`, against any answers.
def turn (startUrl : Text) (s : Chain) (behaviour : Behaviour) : Chain :=
  if s.outcome.isSome then s
  else if le (.finite s.hop) (maxRedirects policy) = false then
    {s with outcome := some (.error (.ssrf (redirectLimit platform policy startUrl)))}
  else
    match check platform policy s.current behaviour.resolver with
    | .error failure => {s with outcome := some (.error failure)}
    | .ok (parsed,destination) =>
      let answer := behaviour.fetchRedirect s.current
      let fetched := s.fetches ++ [⟨s.current,parsed,destination,behaviour.resolver,answer⟩]
      match answer with
      | .error _ => {s with fetches := fetched,outcome := some (.error .callback)}
      | .ok none => {s with fetches := fetched,outcome := some (.ok (parsed,destination))}
      | .ok (some next) => {s with fetches := fetched,hop := s.hop + 1,current := next}

end

-- No address of the host is private: the literal, or every one that was resolved.
def PublicHost (resolver : Text → Except Unit (List Resolved)) (parsed : Url) : Prop :=
  let host := normalizeHost platform parsed.hostname
  if platform.isIP (ipLiteralOf host) ≠ 0 then isPrivateIp platform (ipLiteralOf host) = false
  else ∃ addresses, resolver host = .ok addresses ∧ addresses ≠ [] ∧ ∀ entry ∈ addresses, isPrivateIp platform entry.address = false

structure Checked (policy : DeploymentPolicy) (fetch : Fetch) : Prop where
  validated : validateAgainstDeployment platform fetch.url policy = .ok fetch.parsed
  guarded : PublicHost platform fetch.resolver fetch.parsed
  pinned : pinDestination platform fetch.parsed.hostname (portOf fetch.parsed) (toSsrfPolicy policy) fetch.resolver = .ok fetch.destination

def Final (s : Chain) : Prop :=
  ∀ parsed destination, s.outcome = some (.ok (parsed,destination)) →
    ∃ earlier last, s.fetches = earlier ++ [last] ∧ last.parsed = parsed ∧ last.destination = destination ∧ last.answer = .ok none

structure Invariant (policy : DeploymentPolicy) (s : Chain) : Prop where
  checked : ∀ fetch ∈ s.fetches, Checked platform policy fetch
  counted : s.outcome = none → s.fetches.length = s.hop
  limited : ∀ n, s.fetches.length = n + 1 → le (.finite n) (maxRedirects policy) = true
  final : Final s

end

section
variable {platform : Platform} {policy : DeploymentPolicy} {startUrl : Text} {s : Chain} {behaviour : Behaviour} {fetch : Fetch}

theorem pin_public (closed : policy.allowPrivateIps ≠ some true) (pinned : pinDestination platform parsed.hostname port (toSsrfPolicy policy) resolver = .ok destination) :
    PublicHost platform resolver parsed := by
  have unset : (toSsrfPolicy policy).allowPrivateIps ≠ some true := by
    cases allowed : policy.allowPrivateIps with
    | none => simp [allowed]
    | some => simpa [allowed] using closed
  simp only [PublicHost]
  simp only [pinDestination] at pinned
  split at pinned
  · rename_i literal
    simp only [bind_ok,require_ok,unset,false_or] at pinned
    rw [if_pos literal]
    exact pinned.choose_spec.1
  · rename_i name
    simp only [bind_ok,require_ok,someOr_ok,mapError_ok,unset,false_or] at pinned
    obtain ⟨addresses,resolved,_,first,_,safe,_⟩ := pinned
    rw [if_neg name]
    refine ⟨addresses,resolved,?_,safe⟩
    rintro rfl
    cases first

theorem check_checked (answer : Except Unit (Option Text)) (closed : policy.allowPrivateIps ≠ some true) (ran : check platform policy current resolver = .ok (parsed,destination)) :
    Checked platform policy ⟨current,parsed,destination,resolver,answer⟩ := by
  simp only [check,bind_ok,mapError_ok,ok.injEq,Prod.mk.injEq] at ran
  obtain ⟨_,validated,_,pinned,rfl,rfl⟩ := ran
  exact ⟨validated,pin_public closed pinned,pinned⟩

theorem turn_cases (running : s.outcome = none) :
    (∃ failure, turn platform policy startUrl s behaviour = {s with outcome := some (.error failure)}) ∨
    (le (.finite s.hop) (maxRedirects policy) = true ∧ ∃ parsed destination,
      check platform policy s.current behaviour.resolver = .ok (parsed,destination) ∧
      let fetch : Fetch := ⟨s.current,parsed,destination,behaviour.resolver,behaviour.fetchRedirect s.current⟩
      let fetched := {s with fetches := s.fetches ++ [fetch]}
      (turn platform policy startUrl s behaviour = {fetched with outcome := some (.error .callback)} ∨
        fetch.answer = .ok none ∧ turn platform policy startUrl s behaviour = {fetched with outcome := some (.ok (parsed,destination))} ∨
        ∃ next, turn platform policy startUrl s behaviour = {fetched with hop := s.hop + 1,current := next})) := by
  unfold turn
  simp only [running,Option.isSome_none,Bool.false_eq_true,if_false]
  split
  · exact .inl ⟨_,rfl⟩
  · rename_i within
    cases check platform policy s.current behaviour.resolver with
    | error failure => exact .inl ⟨failure,rfl⟩
    | ok r =>
      obtain ⟨parsed,destination⟩ := r
      refine .inr ⟨by simpa using within,parsed,destination,rfl,?_⟩
      cases behaviour.fetchRedirect s.current with
      | error => exact .inl rfl
      | ok answer =>
        cases answer with
        | none => exact .inr (.inl ⟨rfl,rfl⟩)
        | some next => exact .inr (.inr ⟨next,rfl⟩)

theorem turn_invariant (closed : policy.allowPrivateIps ≠ some true) (valid : Invariant platform policy s) :
    Invariant platform policy (turn platform policy startUrl s behaviour) := by
  cases running : s.outcome with
  | some => simpa [turn,running] using valid
  | none =>
    obtain ⟨checked,counted,limited,_⟩ := valid
    rcases turn_cases running with
      ⟨failure,ended⟩ | ⟨within,parsed,destination,ran,rest⟩
    · rw [ended]
      exact ⟨checked,by simp,limited,by simp [Final]⟩
    · have one := check_checked (behaviour.fetchRedirect s.current) closed ran
      have all : ∀ fetch ∈ s.fetches ++ [⟨s.current,parsed,destination,behaviour.resolver,behaviour.fetchRedirect s.current⟩], Checked platform policy fetch := by
        simpa [or_imp,forall_and] using ⟨checked,one⟩
      have few : ∀ n, (s.fetches ++ [(⟨s.current,parsed,destination,behaviour.resolver,behaviour.fetchRedirect s.current⟩ : Fetch)]).length = n + 1 →
          le (.finite n) (maxRedirects policy) = true := by
        intro n length
        have same : n = s.hop := by
          rw [length_append,counted running] at length
          exact (Nat.succ.inj length).symm
        rw [same]
        exact within
      rcases rest with failed | ⟨answered,returned⟩ | ⟨_,followed⟩
      · rw [failed]
        exact ⟨all,by simp,few,by simp [Final]⟩
      · rw [returned]
        refine ⟨all,by simp,few,?_⟩
        intro parsed' destination' r
        cases r
        exact ⟨s.fetches,_,rfl,rfl,rfl,answered⟩
      · rw [followed]
        refine ⟨all,?_,few,?_⟩
        · intro _
          rw [length_append,counted running,length_singleton]
        · intro _ _ r
          cases running.symm.trans r

-- Only checked URLs are fetched, at most one more than the redirects allowed.
theorem redirect_chain_safe (closed : policy.allowPrivateIps ≠ some true)
    (path : Run (total (turn platform policy startUrl)) (.start startUrl) ts s) :
    (∀ fetch ∈ s.fetches, Checked platform policy fetch) ∧
      (∀ n, s.fetches.length = n + 1 → le (.finite n) (maxRedirects policy) = true) ∧ Final s := by
  have valid : Invariant platform policy s := by
    refine path.invariant_of (G := fun _ => True) (fun _ _ => trivial) ⟨by simp,by simp,by simp,by simp [Final]⟩ ?_
    intro t _ taken before
    rw [← ok.inj taken]
    exact turn_invariant closed before
  exact ⟨valid.checked,valid.limited,valid.final⟩

end

namespace Sample
def start : Text := "http://feed.example/".toList
def moved : Text := "http://8.8.8.8/".toList

def platform : Platform :=
  {OutboundUrls.Sample.platform with
    parseUrl := fun rawUrl => if rawUrl = start then some ⟨"http:".toList,.domain "feed.example".toList,none⟩ else OutboundUrls.Sample.parseUrl rawUrl}

def policy : DeploymentPolicy := ⟨"test".toList,["8.8.8.8".toList],some [".example".toList],some false,none,none,some 1⟩

def answers (redirect : Option Text) : Behaviour := ⟨fun _ => .ok [⟨"8.8.4.4".toList,4⟩],fun _ => .ok redirect⟩
end Sample

theorem one_redirect_followed : ∃ ts s, Run (total (turn Sample.platform Sample.policy Sample.start)) (.start Sample.start) ts s ∧
    s.fetches.map Fetch.url = [Sample.start,Sample.moved] ∧ (∀ fetch ∈ s.fetches, Checked Sample.platform Sample.policy fetch) ∧
    s.outcome.any toBool = true ∧ Final s := by
  have observed : (Runs.replay (total (turn Sample.platform Sample.policy Sample.start)) (.start Sample.start)
      [Sample.answers (some Sample.moved),Sample.answers none]).map (fun result =>
        (result.2.fetches.map Fetch.url,result.2.outcome.any toBool)) = .ok ([Sample.start,Sample.moved],true) := by
    decide +kernel
  obtain ⟨ts,s,path,fetched,returned⟩ := Runs.replay_pair observed
  obtain ⟨checked,_,final⟩ := redirect_chain_safe (by decide) path
  exact ⟨ts,s,path,fetched,checked,returned,final⟩

end StellarPriceOracle.RedirectChain
