import StellarPriceOracle.Library.Guarded
import StellarPriceOracle.Library.InsertionMap
import StellarPriceOracle.Library.JsArray
import StellarPriceOracle.Library.JsNumber
import StellarPriceOracle.Library.JsText

namespace StellarPriceOracle.FeedCatalog
open Guarded JsArray
open InsertionMap (collect get_remove get_set_ne get_set get_set_some collect_mem values get_exact collect_exact mem_values)
open List hiding after
open Prod (fst)

-- packages/types/src/feed-metadata.ts.
structure QuoteUnit where
  (currency denomination : String)
  (scaleDecimals displayDecimals : JsNumber)
  rounding : String
  deriving DecidableEq

def defaultQuoteUnit : QuoteUnit := ⟨"USD","USD_PER_ASSET_UNIT",8,4,"half-even"⟩

def quoteCurrencies : List String := ["USD","EUR","GBP","JPY","CHF","CAD","AUD"]

-- `!Number.isInteger(n) || n < low || n > high`
def outside (low high n : JsNumber) : Bool := !n.isInteger || n.lt low || high.lt n

def validateQuoteUnit (unit : QuoteUnit) : List String :=
  (if unit.currency ∉ quoteCurrencies then ["currency is not supported"] else []) ++
  (if unit.denomination ≠ unit.currency ++ "_PER_ASSET_UNIT" then ["denomination must match currency per asset unit"] else []) ++
  (if outside 0 18 unit.scaleDecimals then ["scaleDecimals must be an integer between 0 and 18"] else []) ++
  (if outside 0 12 unit.displayDecimals || unit.scaleDecimals.lt unit.displayDecimals
    then ["displayDecimals must be between 0 and 12 and no greater than scaleDecimals"] else []) ++
  (if unit.rounding ∉ ["half-up","half-even","down"] then ["rounding mode is unsupported"] else [])

-- The names that every object has from its prototype.
def inherited : List String := ["constructor","hasOwnProperty","isPrototypeOf","propertyIsEnumerable","toLocaleString","toString","valueOf",
  "__defineGetter__","__defineSetter__","__lookupGetter__","__lookupSetter__","__proto__"]

-- It throws if there is no such profile; what comes from the prototype has no `warnSeconds`.
def warnSeconds (name : String) : Option JsNumber :=
  if name = "realtime" then some 10
  else if name = "standard" then some 60
  else if name = "delayed" then some 300
  else if name ∈ inherited then some .nan
  else none

def feedFreshnessAssignments (asset : String) : Option String :=
  if asset ∈ ["XLM","USDC","BTC","ETH","USDT"] then some "standard" else none

-- api/src/governance/catalog-policy.ts.
def catalogSources : List String := ["chainlink","redstone","band","reflector"]

structure FeedPolicy where
  asset : String
  sources : List String
  (minSources maxDeviationBps stalenessSeconds : JsNumber)
  freshnessProfile : Option String
  freshnessWarnSeconds : Option JsNumber
  quoteUnit : Option QuoteUnit
  enabled : Bool
  deriving DecidableEq

inductive CatalogChangeKind where
  | standard | rollback
  deriving DecidableEq

structure CatalogPolicyChange where
  baseVersion : JsNumber
  kind : CatalogChangeKind
  upserts : List FeedPolicy
  removals : List String
  deriving DecidableEq

namespace Guardrails
def minSourceCount : Nat := 2
def minDeviationBps : Nat := 10
def maxDeviationBps : Nat := 2000
def minStalenessSeconds : Nat := 10
def maxStalenessSeconds : Nat := 3600
def maxFeedsPerChange : Nat := 100
def requiredApprovals : Nat := 2
def highImpactApprovals : Nat := 3
def maxReviewers : Nat := 7
def reviewWindowSeconds : Nat := 48 * 60 * 60
def timelockSeconds : Nat := 24 * 60 * 60
def highImpactTimelockSeconds : Nat := 48 * 60 * 60
end Guardrails

inductive OnChainAction where
  | setTrustedAsset (asset : String) (trusted : Bool)
  | addSource (source name : String)
  | removeSource (source : String)
  | setDeviationThreshold (thresholdBps : JsNumber)
  deriving DecidableEq

-- String functions, how a number is written, the text that orders actions, and the digest.
structure Host where
  text : JsText
  number : JsNumber → String
  actionText : OnChainAction → String
  digestOf : List OnChainAction → List String → String

structure TypeError where
  deriving DecidableEq

section
variable (host : Host)

def normalizeAsset (asset : String) : String := host.text.toUpperCase (host.text.trim asset)

def normalizeSource (source : String) : String := host.text.toLowerCase (host.text.trim source)

def warningBound (feed : FeedPolicy) (freshnessProfile : String) : Except TypeError JsNumber :=
  match feed.freshnessWarnSeconds with
  | some warn => .ok warn
  | none => (someOr (warnSeconds freshnessProfile) ⟨⟩).map (fun warn => JsNumber.min warn feed.stalenessSeconds.pred)

def normalizeFeed (feed : FeedPolicy) : Except TypeError FeedPolicy := do
  let freshnessProfile := (feed.freshnessProfile.or (feedFreshnessAssignments (normalizeAsset host feed.asset))).getD "standard"
  let freshnessWarnSeconds ← warningBound feed freshnessProfile
  .ok {
    asset := normalizeAsset host feed.asset
    sources := sort (distinct (feed.sources.map (normalizeSource host)))
    minSources := feed.minSources
    maxDeviationBps := feed.maxDeviationBps
    stalenessSeconds := feed.stalenessSeconds
    freshnessProfile := some freshnessProfile
    freshnessWarnSeconds := some freshnessWarnSeconds
    quoteUnit := some (feed.quoteUnit.getD defaultQuoteUnit)
    enabled := feed.enabled}

def sortFeeds (feeds : List FeedPolicy) : List FeedPolicy := sortBy (fun a b => host.text.collates a.asset b.asset) feeds

def normalizeFeeds (feeds : List FeedPolicy) : Except TypeError (List FeedPolicy) := do
  let normal ← each (normalizeFeed host) feeds
  .ok (sortFeeds host normal)

def normalizeChange (change : CatalogPolicyChange) : Except TypeError CatalogPolicyChange := do
  let upserts ← normalizeFeeds host change.upserts
  .ok ⟨change.baseVersion,change.kind,upserts,sort (distinct (change.removals.map (normalizeAsset host)))⟩
end

inductive GuardrailSeverity where
  | error | warning
  deriving DecidableEq

structure GuardrailFinding where
  code : String
  severity : GuardrailSeverity
  message : String
  asset : Option String
  deriving DecidableEq

structure CatalogDiff where
  (added removed modified unchanged : List String)
  deriving DecidableEq

structure CatalogValidation where
  (findings errors warnings : List GuardrailFinding)
  diff : CatalogDiff
  highImpact : Bool
  nextFeeds : List FeedPolicy

def canonicalNumber : JsNumber → JsNumber
  | .finite q => .finite q
  | _ => .nan

def canonicalJson (feed : FeedPolicy) : FeedPolicy := {feed with
  minSources := canonicalNumber feed.minSources
  maxDeviationBps := canonicalNumber feed.maxDeviationBps
  stalenessSeconds := canonicalNumber feed.stalenessSeconds
  freshnessWarnSeconds := feed.freshnessWarnSeconds.map canonicalNumber
  quoteUnit := feed.quoteUnit.map (fun unit => {unit with
    scaleDecimals := canonicalNumber unit.scaleDecimals
    displayDecimals := canonicalNumber unit.displayDecimals})}

def byAsset (feeds : List FeedPolicy) : InsertionMap String FeedPolicy := .collect FeedPolicy.asset id feeds

def diffPolicies (before after : List FeedPolicy) : CatalogDiff :=
  let beforeMap := collect FeedPolicy.asset canonicalJson before
  let afterMap := collect FeedPolicy.asset canonicalJson after
  {
    added := sort ((afterMap.entries.filter (fun entry => beforeMap.get entry.1 = none)).map fst)
    removed := sort ((beforeMap.entries.map fst).filter (fun asset => afterMap.get asset = none))
    modified := sort ((afterMap.entries.filter (fun entry =>
      beforeMap.get entry.1 ≠ none ∧ beforeMap.get entry.1 ≠ some entry.2)).map fst)
    unchanged := sort ((afterMap.entries.filter (fun entry => beforeMap.get entry.1 = some entry.2)).map fst)}

-- /^[A-Z0-9]{2,12}$/
def isTicker (asset : String) : Bool :=
  decide (2 ≤ asset.toList.length) && decide (asset.toList.length ≤ 12) &&
    asset.toList.all (fun c => (65 ≤ c.toNat ∧ c.toNat ≤ 90) ∨ (48 ≤ c.toNat ∧ c.toNat ≤ 57))

def includes (s part : String) : Bool :=
  (range (s.toList.length + 1)).any (fun position => part.toList.isPrefixOf (s.toList.drop position))

def validateFeed (feed : FeedPolicy) : List GuardrailFinding :=
  let push (code message : String) : GuardrailFinding := ⟨code,.error,message,some feed.asset⟩
  (if !isTicker feed.asset then [push "INVALID_ASSET" ("Asset \"" ++ feed.asset ++ "\" is not a valid upper-case ticker")] else []) ++
  (feed.sources.filter (fun source => source ∉ catalogSources)).map (fun source =>
    push "UNKNOWN_SOURCE" ("Source \"" ++ source ++ "\" is not a registered oracle provider")) ++
  (if feed.sources.length < Guardrails.minSourceCount then [push "INSUFFICIENT_SOURCES" ("Feed declares " ++ toString feed.sources.length ++
    " source(s); the floor is " ++ toString Guardrails.minSourceCount)] else []) ++
  (if !feed.minSources.isInteger || feed.minSources.lt (.finite Guardrails.minSourceCount) then
    [push "MIN_SOURCES_BELOW_FLOOR" ("minSources must be an integer >= " ++ toString Guardrails.minSourceCount)] else []) ++
  (if (JsNumber.finite feed.sources.length).lt feed.minSources then
    [push "MIN_SOURCES_EXCEEDS_SOURCES" "minSources exceeds the declared source count"] else []) ++
  (if outside (.finite Guardrails.minDeviationBps) (.finite Guardrails.maxDeviationBps) feed.maxDeviationBps then
    [push "DEVIATION_OUT_OF_BOUNDS" ("maxDeviationBps must be an integer between " ++ toString Guardrails.minDeviationBps ++ " and " ++
      toString Guardrails.maxDeviationBps)] else []) ++
  (if outside (.finite Guardrails.minStalenessSeconds) (.finite Guardrails.maxStalenessSeconds) feed.stalenessSeconds then
    [push "STALENESS_OUT_OF_BOUNDS" ("stalenessSeconds must be an integer between " ++ toString Guardrails.minStalenessSeconds ++ " and " ++
      toString Guardrails.maxStalenessSeconds)] else []) ++
  (if feed.freshnessProfile.all (fun profile => profile = "" ∨ warnSeconds profile = none) then
    [push "UNKNOWN_FRESHNESS_PROFILE" "freshnessProfile must be realtime, standard, or delayed"] else []) ++
  (if feed.freshnessWarnSeconds.all (fun warn => !warn.isInteger || warn.lt 1 || feed.stalenessSeconds.le warn) then
    [push "FRESHNESS_WARNING_OUT_OF_BOUNDS" "freshnessWarnSeconds must be at least 1 and less than stalenessSeconds"] else []) ++
  (validateQuoteUnit (feed.quoteUnit.getD defaultQuoteUnit)).map (fun error =>
    push (if includes error "scale" || includes error "displayDecimals" then "INVALID_QUOTE_SCALE" else "INVALID_QUOTE_UNIT") error)

section
variable (host : Host)

def projectFeeds (current : List FeedPolicy) (change : CatalogPolicyChange) : List FeedPolicy :=
  let feeds := change.removals.foldl (fun feeds asset => feeds.remove asset) (byAsset current)
  let feeds := change.upserts.foldl (fun feeds feed => feeds.set feed.asset feed) feeds
  sortFeeds host feeds.values

-- What is found about the feeds to be written, `seen` being the assets before them.
def upsertFindings (removals : List String) : List String → List FeedPolicy → List GuardrailFinding
  | _,[] => []
  | seen,feed :: rest =>
    (if feed.asset ∈ seen then
      [⟨"DUPLICATE_ASSET",.error,"Asset " ++ feed.asset ++ " appears more than once",some feed.asset⟩] else []) ++
    (if feed.asset ∈ removals then
      [⟨"CONFLICTING_CHANGE",.error,"Asset " ++ feed.asset ++ " is both upserted and removed",some feed.asset⟩] else []) ++
    validateFeed feed ++ upsertFindings removals (feed.asset :: seen) rest

-- The warnings for a feed that changes. With every one of them the change is of high impact.
def loosenings (asset : String) (before after : FeedPolicy) : List GuardrailFinding :=
  let warn (code message : String) : GuardrailFinding := ⟨code,.warning,message,some asset⟩
  let rises (old new unit : String) : String := " rises from " ++ old ++ unit ++ " to " ++ new ++ unit
  let beforeQuote := before.quoteUnit.getD defaultQuoteUnit
  let afterQuote := after.quoteUnit.getD defaultQuoteUnit
  let droppedSources := before.sources.filter (fun source => source ∉ after.sources)
  (if before.enabled && !after.enabled then [warn "FEED_DISABLED" ("Feed " ++ asset ++ " is being disabled")] else []) ++
  (if !before.enabled && after.enabled then [warn "FEED_ENABLED" ("Feed " ++ asset ++ " is being re-enabled")] else []) ++
  (if before.maxDeviationBps.lt after.maxDeviationBps then [warn "DEVIATION_LOOSENED" ("Feed " ++ asset ++ " deviation threshold rises from " ++
    host.number before.maxDeviationBps ++ " to " ++ host.number after.maxDeviationBps ++ " bps")] else []) ++
  (if before.stalenessSeconds.lt after.stalenessSeconds then [warn "STALENESS_LOOSENED" ("Feed " ++ asset ++ " staleness bound" ++
    rises (host.number before.stalenessSeconds) (host.number after.stalenessSeconds) "s")] else []) ++
  (if after.freshnessProfile ≠ before.freshnessProfile ∨ (before.freshnessWarnSeconds.getD 0).lt (after.freshnessWarnSeconds.getD 0) then
    [warn "FRESHNESS_PROFILE_CHANGED" ("Feed " ++ asset ++ " freshness profile or warning boundary changes")] else []) ++
  (if after.minSources.lt before.minSources then [warn "MIN_SOURCES_REDUCED" ("Feed " ++ asset ++ " minimum sources drops from " ++
    host.number before.minSources ++ " to " ++ host.number after.minSources)] else []) ++
  (if droppedSources ≠ [] ∧ after.enabled = true then
    [warn "SOURCE_SET_REDUCED" ("Feed " ++ asset ++ " no longer aggregates " ++ ", ".intercalate droppedSources)] else []) ++
  (if beforeQuote.currency ≠ afterQuote.currency ∨ beforeQuote.denomination ≠ afterQuote.denomination ∨
      ¬ beforeQuote.scaleDecimals.same afterQuote.scaleDecimals then
    [warn "QUOTE_SCALE_CHANGED" ("Feed " ++ asset ++
      " quote currency, denomination, or storage scale changes; consumers must review historical interpretation")] else [])

def changeErrors (version : Nat) (current : List FeedPolicy) (change : CatalogPolicyChange) (nextFeeds : List FeedPolicy)
    (diff : CatalogDiff) : List GuardrailFinding :=
  let error (code message : String) : GuardrailFinding := ⟨code,.error,message,none⟩
  let touched := change.upserts.length + change.removals.length
  (if ¬ change.baseVersion.same (.finite version) then [error "STALE_BASE_VERSION" ("Change was authored against policy version " ++
    host.number change.baseVersion ++ ", but version " ++ toString version ++ " is live")] else []) ++
  (if touched = 0 then [error "EMPTY_CHANGE" "Change contains no upserts and no removals"] else []) ++
  (if touched > Guardrails.maxFeedsPerChange then
    [error "TOO_MANY_CHANGES" ("Change touches more than " ++ toString Guardrails.maxFeedsPerChange ++ " feeds")] else []) ++
  upsertFindings change.removals [] change.upserts ++
  (change.removals.filter (fun asset => asset ∉ current.map FeedPolicy.asset)).map (fun asset =>
    ⟨"UNKNOWN_FEED",.error,"Cannot remove " ++ asset ++ ": it is not part of the live policy",some asset⟩) ++
  (if nextFeeds.length = 0 then [error "EMPTY_CATALOG" "A governed change cannot leave the catalog with no feeds"] else []) ++
  (if !nextFeeds.any FeedPolicy.enabled then [error "NO_ENABLED_FEEDS" "A governed change cannot disable every feed"] else []) ++
  (if diff.added.length + diff.removed.length + diff.modified.length = 0 then
    [error "NO_OP_CHANGE" "Change produces the live policy byte-for-byte"] else [])

def changeWarnings (current nextFeeds : List FeedPolicy) (diff : CatalogDiff) : List GuardrailFinding :=
  diff.modified.flatMap (fun asset =>
    match (byAsset current).get asset,nextFeeds.find? (fun feed => feed.asset = asset) with
    | some before,some after => loosenings host asset before after
    | _,_ => [])

def validateCatalogChange (version : Nat) (current : List FeedPolicy) (rawChange : CatalogPolicyChange) : Except TypeError CatalogValidation := do
  let change ← normalizeChange host rawChange
  let nextFeeds := projectFeeds host current change
  let diff := diffPolicies current nextFeeds
  let warnings := changeWarnings host current nextFeeds diff
  let findings := changeErrors host version current change nextFeeds diff ++ warnings
  .ok {
    findings := findings
    errors := findings.filter (fun finding => finding.severity = .error)
    warnings := findings.filter (fun finding => finding.severity = .warning)
    diff := diff
    highImpact := change.kind = .rollback ∨ diff.added.length > 0 ∨ diff.removed.length > 0 ∨ warnings ≠ []
    nextFeeds := nextFeeds}

structure OnChainPlan where
  actions : List OnChainAction
  (offChainParameters missingSourceAddresses : List String)
  digest : String

def enabledSources (feeds : List FeedPolicy) : List String := distinct ((feeds.filter FeedPolicy.enabled).flatMap FeedPolicy.sources)

def enabledThresholds (feeds : List FeedPolicy) : List JsNumber := distinct ((feeds.filter FeedPolicy.enabled).map FeedPolicy.maxDeviationBps)

def parametersChanged (before after : List FeedPolicy) (key : FeedPolicy → JsNumber) : Bool :=
  let beforeByAsset := collect FeedPolicy.asset key before
  after.any (fun feed => !(beforeByAsset.get feed.asset).any (fun old => old.same (key feed)))

def addressOf (sourceAddresses : InsertionMap String String) (source : String) : Option String :=
  (sourceAddresses.get source).filter (fun address => address ≠ "")

def trustActions (before after : List FeedPolicy) : List OnChainAction :=
  let before := byAsset before
  let after := byAsset after
  after.entries.filterMap (fun (asset,feed) =>
    match before.get asset with
    | none => if feed.enabled then some (.setTrustedAsset asset true) else none
    | some previous => if previous.enabled ≠ feed.enabled then some (.setTrustedAsset asset feed.enabled) else none) ++
  before.entries.filterMap (fun (asset,feed) =>
    if after.get asset = none ∧ feed.enabled = true then some (.setTrustedAsset asset false) else none)

def thresholdActions (before after : List FeedPolicy) : List OnChainAction :=
  match enabledThresholds after with
  | [thresholdBps] => if enabledThresholds before ≠ [thresholdBps] then [.setDeviationThreshold thresholdBps] else []
  | _ => []

def buildOnChainPlan (current nextFeeds : List FeedPolicy) (sourceAddresses : InsertionMap String String) : OnChainPlan :=
  let sourcesBefore := enabledSources current
  let sourcesAfter := enabledSources nextFeeds
  let gained := (sort sourcesAfter).filter (fun source => source ∉ sourcesBefore)
  let lost := (sort sourcesBefore).filter (fun source => source ∉ sourcesAfter)
  let actions := trustActions current nextFeeds ++
    gained.filterMap (fun source => (addressOf sourceAddresses source).map (fun address => .addSource address source)) ++
    lost.filterMap (fun source => (addressOf sourceAddresses source).map .removeSource) ++ thresholdActions current nextFeeds
  let offChainParameters := sort (
    (if (enabledThresholds nextFeeds).length > 1 then ["maxDeviationBps (per feed)"] else []) ++
    (if parametersChanged current nextFeeds FeedPolicy.minSources then ["minSources"] else []) ++
    (if parametersChanged current nextFeeds FeedPolicy.stalenessSeconds then ["stalenessSeconds"] else []))
  let sortedActions := sortBy (fun a b => host.text.collates (host.actionText a) (host.actionText b)) actions
  {
    actions := sortedActions
    offChainParameters := offChainParameters
    missingSourceAddresses := sort ((gained ++ lost).filter (fun source => addressOf sourceAddresses source = none))
    digest := host.digestOf sortedActions offChainParameters}
end

theorem normalizeFeed_settles (done : normalizeFeed host raw = .ok feed) : normalizeFeed host feed = .ok feed := by
  obtain ⟨_,_,⟨⟩⟩ := bind_ok.mp done
  have asset : normalizeAsset host (normalizeAsset host raw.asset) = normalizeAsset host raw.asset := host.text.upper_settles _
  have sources := normal_settles (f := normalizeSource host) host.text.lower_settles raw.sources
  simp [normalizeFeed,warningBound,asset,sources,Option.some_or,Option.getD_some,ok_bind]

theorem normalizeFeeds_mem (done : normalizeFeeds host current = .ok feeds) (mem : feed ∈ feeds) : ∃ raw ∈ current, normalizeFeed host raw = .ok feed := by
  obtain ⟨_,made,⟨⟩⟩ := bind_ok.mp done
  exact each_mem made (mem_sortBy.mp mem)

theorem normalizeFeeds_settles (done : normalizeFeeds host current = .ok feeds) : normalizeFeeds host feeds = .ok feeds := by
  have settled : each (normalizeFeed host) feeds = .ok feeds := by
    apply each_same
    intro _ mem
    obtain ⟨_,_,made⟩ := normalizeFeeds_mem done mem
    exact normalizeFeed_settles made
  simp only [normalizeFeeds,settled,ok_bind]
  obtain ⟨_,_,⟨⟩⟩ := bind_ok.mp done
  exact congrArg _ (sortBy_sortBy (fun _ _ => host.text.collates_total _ _) (fun _ _ _ => host.text.collates_trans _ _ _))

theorem normalizeChange_settles (done : normalizeChange host given = .ok change) : normalizeChange host change = .ok change := by
  obtain ⟨_,made,⟨⟩⟩ := bind_ok.mp done
  have removals := normal_settles (f := normalizeAsset host) host.text.upper_settles given.removals
  simp [normalizeChange,normalizeFeeds_settles made,ok_bind,removals]

def projected (current : List FeedPolicy) (change : CatalogPolicyChange) : InsertionMap String FeedPolicy :=
  change.upserts.foldl (fun feeds feed => feeds.set feed.asset feed) (change.removals.foldl (fun feeds asset => feeds.remove asset) (byAsset current))

theorem projectFeeds_projected : projectFeeds host current change = sortFeeds host (projected current change).values := rfl

section
variable {feeds : InsertionMap String FeedPolicy} {removals : List String} {upserts : List FeedPolicy}

theorem removed_exact :
    (removals.foldl (fun feeds asset => feeds.remove asset) feeds).get asset = if asset ∈ removals then none else feeds.get asset := by
  induction removals generalizing feeds with
  | nil => simp
  | cons removal _ ih =>
    rw [foldl_cons,ih,get_remove]
    by_cases here : asset = removal <;> simp [here]

theorem removed_get (got : (removals.foldl (fun feeds asset => feeds.remove asset) feeds).get asset = some feed) :
    feeds.get asset = some feed := by
  rw [removed_exact] at got
  split at got
  · cases got
  · exact got

theorem upserted_other (other : asset ∉ upserts.map FeedPolicy.asset) :
    (upserts.foldl (fun feeds feed => feeds.set feed.asset feed) feeds).get asset = feeds.get asset := by
  induction upserts generalizing feeds with
  | nil => rfl
  | cons _ _ ih =>
    simp only [map_cons,mem_cons,not_or] at other
    rw [foldl_cons,ih other.2,get_set_ne other.1]

theorem upserted_named (named : asset ∈ upserts.map FeedPolicy.asset) :
    ∃ feed ∈ upserts, feed.asset = asset ∧ (upserts.foldl (fun feeds feed => feeds.set feed.asset feed) feeds).get asset = some feed := by
  induction upserts generalizing feeds with
  | nil => cases named
  | cons upsert rest ih =>
    by_cases again : asset ∈ rest.map FeedPolicy.asset
    · obtain ⟨feed,among,got⟩ := ih again
      exact ⟨feed,mem_cons_of_mem _ among,got⟩
    · have here : asset = upsert.asset := by simpa [again] using named
      refine ⟨upsert,mem_cons_self,here.symm,?_⟩
      rw [foldl_cons,upserted_other again,here,get_set]

theorem upserted_get
    (got : (upserts.foldl (fun feeds feed => feeds.set feed.asset feed) feeds).get asset = some feed) :
    (feed ∈ upserts ∧ feed.asset = asset) ∨ feeds.get asset = some feed := by
  induction upserts generalizing feeds with
  | nil => exact .inr got
  | cons _ _ ih =>
    rcases ih got with ⟨mem,here⟩ | before
    · exact .inl ⟨mem_cons_of_mem _ mem,here⟩
    · rcases get_set_some.mp before with ⟨rfl,rfl⟩ | ⟨_,before⟩
      · exact .inl ⟨mem_cons_self,rfl⟩
      · exact .inr before

end

theorem projected_get (got : (projected current change).get asset = some feed) :
    feed.asset = asset ∧ (feed ∈ change.upserts ∨ (byAsset current).get asset = some feed) := by
  rcases upserted_get got with ⟨mem,here⟩ | before
  · exact ⟨here,.inl mem⟩
  · have old := removed_get before
    obtain ⟨x,_,here,rfl⟩ := collect_mem old
    exact ⟨here,.inr old⟩

theorem projectFeeds_distinct : ((projectFeeds host current change).map FeedPolicy.asset).Nodup := by
  have keys : (projected current change).values.map FeedPolicy.asset = (projected current change).entries.map fst := by
    rw [values,map_map]
    apply map_congr_left
    intro _ mem
    exact (projected_get (get_exact.mpr mem)).1
  rw [projectFeeds_projected,sortFeeds,(sortBy_perm.map _).nodup_iff,keys]
  exact (projected current change).distinct

theorem byAsset_projectFeeds : (byAsset (projectFeeds host current change)).get asset = some feed ↔ (projected current change).get asset = some feed := by
  rw [byAsset,collect_exact projectFeeds_distinct,projectFeeds_projected,sortFeeds,mem_sortBy,mem_values]
  constructor
  · rintro ⟨⟨k,got⟩,rfl⟩
    rw [(projected_get got).1]
    exact got
  · intro got
    exact ⟨⟨asset,got⟩,(projected_get got).1⟩

theorem mem_projectFeeds (mem : feed ∈ projectFeeds host current change) : feed ∈ change.upserts ∨ feed ∈ current := by
  rw [projectFeeds_projected,sortFeeds,mem_sortBy,mem_values] at mem
  obtain ⟨_,got⟩ := mem
  rcases (projected_get got).2 with written | old
  · exact .inl written
  · obtain ⟨x,among,_,rfl⟩ := collect_mem old
    exact .inr among

theorem find_byAsset (distinct : (feeds.map FeedPolicy.asset).Nodup) :
    feeds.find? (fun feed => feed.asset = asset) = (byAsset feeds).get asset := by
  apply Option.ext
  intro feed
  rw [byAsset,collect_exact distinct]
  constructor
  · intro got
    exact ⟨mem_of_find?_eq_some got,by simpa using find?_some got⟩
  · rintro ⟨mem,rfl⟩
    cases got : feeds.find? (fun other => other.asset = feed.asset) with
    | none => exact absurd (decide_eq_true rfl) (find?_eq_none.mp got feed mem)
    | some other =>
      have same : other.asset = feed.asset := by simpa using find?_some got
      exact congrArg some (inj_on_of_nodup_map distinct (mem_of_find?_eq_some got) mem same)

theorem canonical_get : (collect FeedPolicy.asset canonicalJson feeds).get asset = ((byAsset feeds).get asset).map canonicalJson :=
  InsertionMap.collect_value

theorem mem_added : asset ∈ (diffPolicies current feeds).added ↔ (byAsset current).get asset = none ∧ (byAsset feeds).get asset ≠ none := by
  simp only [diffPolicies,mem_sort,mem_map,mem_filter,decide_eq_true_eq]
  constructor
  · rintro ⟨⟨_,_⟩,⟨mem,new⟩,rfl⟩
    rw [← get_exact,canonical_get] at mem
    rw [canonical_get] at new
    exact ⟨by simpa using new,fun none => by simp [none] at mem⟩
  · rintro ⟨new,held⟩
    obtain ⟨after,got⟩ := Option.ne_none_iff_exists'.mp held
    refine ⟨(asset,canonicalJson after),⟨?_,by simp [canonical_get,new]⟩,rfl⟩
    rw [← get_exact,canonical_get,got]
    rfl

theorem mem_removed : asset ∈ (diffPolicies current feeds).removed ↔ (byAsset current).get asset ≠ none ∧ (byAsset feeds).get asset = none := by
  simp only [diffPolicies,mem_sort,mem_map,mem_filter,decide_eq_true_eq]
  constructor
  · rintro ⟨⟨⟨_,_⟩,mem,rfl⟩,gone⟩
    rw [← get_exact,canonical_get] at mem
    rw [canonical_get] at gone
    exact ⟨fun none => by simp [none] at mem,by simpa using gone⟩
  · rintro ⟨held,gone⟩
    obtain ⟨before,got⟩ := Option.ne_none_iff_exists'.mp held
    refine ⟨⟨(asset,canonicalJson before),?_,rfl⟩,by simp [canonical_get,gone]⟩
    rw [← get_exact,canonical_get,got]
    rfl

theorem mem_modified : asset ∈ (diffPolicies current feeds).modified ↔ ∃ before after,
    (byAsset current).get asset = some before ∧ (byAsset feeds).get asset = some after ∧ canonicalJson before ≠ canonicalJson after := by
  simp only [diffPolicies,mem_sort,mem_map,mem_filter,decide_eq_true_eq]
  constructor
  · rintro ⟨⟨key,_⟩,⟨mem,old,changed⟩,rfl⟩
    rw [← get_exact,canonical_get,Option.map_eq_some_iff] at mem
    obtain ⟨after,got,rfl⟩ := mem
    rw [canonical_get] at old changed
    cases held : (byAsset current).get key with
    | none => simp [held] at old
    | some before => exact ⟨before,after,rfl,got,by simpa [held] using changed⟩
  · rintro ⟨before,after,held,got,changed⟩
    refine ⟨(asset,canonicalJson after),⟨?_,by simp [canonical_get,held],by simpa [canonical_get,held] using changed⟩,rfl⟩
    rw [← get_exact,canonical_get,got]
    rfl

theorem validateFeed_errors : ∀ finding ∈ validateFeed feed, finding.severity = .error := by
  intro _ mem
  simp only [validateFeed,mem_append,mem_map,mem_ite_nil_right,mem_singleton,or_assoc] at mem
  rcases mem with ⟨_,rfl⟩ | ⟨_,_,rfl⟩ | ⟨_,rfl⟩ | ⟨_,rfl⟩ | ⟨_,rfl⟩ | ⟨_,rfl⟩ | ⟨_,rfl⟩ | ⟨_,rfl⟩ | ⟨_,rfl⟩ | ⟨_,_,rfl⟩ <;> rfl

theorem upsertFindings_errors : ∀ finding ∈ upsertFindings removals seen feeds, finding.severity = .error := by
  induction feeds generalizing seen with
  | nil => simp [upsertFindings]
  | cons _ _ ih =>
    intro finding mem
    simp only [upsertFindings,mem_append,mem_ite_nil_right,mem_singleton,or_assoc] at mem
    rcases mem with ⟨_,rfl⟩ | ⟨_,rfl⟩ | inside | later
    · rfl
    · rfl
    · exact validateFeed_errors finding inside
    · exact ih finding later

theorem changeErrors_errors :
    ∀ finding ∈ changeErrors host version current change feeds diff, finding.severity = .error := by
  intro finding mem
  simp only [changeErrors,mem_append,mem_map,mem_ite_nil_right,mem_singleton,or_assoc] at mem
  rcases mem with ⟨_,rfl⟩ | ⟨_,rfl⟩ | ⟨_,rfl⟩ | inside | ⟨_,_,rfl⟩ | ⟨_,rfl⟩ | ⟨_,rfl⟩ | ⟨_,rfl⟩
  case inr.inr.inr.inl => exact upsertFindings_errors finding inside
  all_goals rfl

theorem changeWarnings_warnings : ∀ finding ∈ changeWarnings host current feeds diff, finding.severity = .warning := by
  intro _ mem
  obtain ⟨_,_,among⟩ := mem_flatMap.mp mem
  split at among
  · simp only [loosenings,mem_append,mem_ite_nil_right,mem_singleton,or_assoc] at among
    rcases among with ⟨_,rfl⟩ | ⟨_,rfl⟩ | ⟨_,rfl⟩ | ⟨_,rfl⟩ | ⟨_,rfl⟩ | ⟨_,rfl⟩ | ⟨_,rfl⟩ | ⟨_,rfl⟩ <;> rfl
  · cases among

theorem validation_parts (normal : normalizeChange host change = .ok change)
    (done : validateCatalogChange host version current change = .ok validation) :
    validation.nextFeeds = projectFeeds host current change ∧
    validation.diff = diffPolicies current (projectFeeds host current change) ∧
    validation.errors = changeErrors host version current change (projectFeeds host current change)
      (diffPolicies current (projectFeeds host current change)) ∧
    (validation.highImpact = true ↔ change.kind = .rollback ∨ validation.diff.added ≠ [] ∨ validation.diff.removed ≠ [] ∨
      changeWarnings host current (projectFeeds host current change) validation.diff ≠ []) := by
  simp only [validateCatalogChange,normal,ok_bind,Except.ok.injEq] at done
  subst done
  refine ⟨rfl,rfl,?_,?_⟩
  · rw [filter_append,filter_eq_self.mpr,filter_eq_nil_iff.mpr,append_nil]
    · intro finding mem
      simp [changeWarnings_warnings finding mem]
    · intro finding mem
      simp [changeErrors_errors finding mem]
  · simp [length_pos_iff]

theorem upsertFindings_nil (none : upsertFindings removals seen feeds = []) : ∀ feed ∈ feeds, validateFeed feed = [] := by
  induction feeds generalizing seen with
  | nil => simp
  | cons _ _ ih =>
    simp only [upsertFindings,append_eq_nil_iff] at none
    rw [forall_mem_cons]
    exact ⟨none.1.2,ih none.2⟩

theorem accepted_parts (none : changeErrors host version current change feeds diff = []) :
    change.baseVersion = .finite version ∧ (∀ feed ∈ change.upserts, validateFeed feed = []) ∧ ∃ feed ∈ feeds, feed.enabled = true := by
  simp only [changeErrors,append_eq_nil_iff] at none
  obtain ⟨⟨⟨⟨⟨⟨⟨live,_⟩,_⟩,upserts⟩,_⟩,_⟩,enabled⟩,_⟩ := none
  refine ⟨?_,upsertFindings_nil upserts,?_⟩
  · simp [JsNumber.same] at live
    exact live.1
  · simpa using enabled

def LoosensFeed (old new : FeedPolicy) : Prop :=
  new.enabled ≠ old.enabled ∨ old.maxDeviationBps.lt new.maxDeviationBps = true ∨ old.stalenessSeconds.lt new.stalenessSeconds = true ∨
  (old.freshnessWarnSeconds.getD 0).lt (new.freshnessWarnSeconds.getD 0) = true ∨ new.minSources.lt old.minSources = true ∨
  (new.enabled = true ∧ ∃ source ∈ old.sources, source ∉ new.sources) ∨ new.freshnessProfile ≠ old.freshnessProfile ∨
  (new.quoteUnit.getD defaultQuoteUnit).currency ≠ (old.quoteUnit.getD defaultQuoteUnit).currency ∨
  (new.quoteUnit.getD defaultQuoteUnit).denomination ≠ (old.quoteUnit.getD defaultQuoteUnit).denomination ∨
  (new.quoteUnit.getD defaultQuoteUnit).scaleDecimals ≠ (old.quoteUnit.getD defaultQuoteUnit).scaleDecimals

-- A feed is added or removed, or one that stays is loosened.
def Loosens (before after : List FeedPolicy) : Prop :=
  (∃ asset, (byAsset before).get asset = none ∧ (byAsset after).get asset ≠ none) ∨
  (∃ asset, (byAsset before).get asset ≠ none ∧ (byAsset after).get asset = none) ∨
  ∃ asset old new, (byAsset before).get asset = some old ∧ (byAsset after).get asset = some new ∧ LoosensFeed old new

theorem not_loosens_same : ¬ LoosensFeed feed feed := by
  simp [LoosensFeed,JsNumber.lt_irrefl]

theorem loosens_warned (loosens : LoosensFeed before after) : loosenings host asset before after ≠ [] := by
  intro none
  simp only [loosenings,append_eq_nil_iff,ite_eq_right_iff,cons_ne_nil,imp_false,and_assoc] at none
  obtain ⟨_,_,deviation,staleness,freshness,sources,dropped,quote⟩ := none
  simp only [not_or,not_not] at freshness quote
  rcases loosens with _ | raised | raised | raised | lowered | ⟨active,_,old,gone⟩ | profile | currency | denomination | scale
  · cases before.enabled <;> cases afterOn : after.enabled <;> simp_all
  · exact deviation raised
  · exact staleness raised
  · exact freshness.2 raised
  · exact sources lowered
  · refine dropped ⟨?_,active⟩
    exact ne_nil_of_mem (mem_filter.mpr ⟨old,by simpa using gone⟩)
  · exact profile freshness.1
  · exact currency quote.1.symm
  · exact denomination quote.2.1.symm
  · have same := quote.2.2
    simp only [JsNumber.same,decide_eq_true_eq] at same
    exact scale same.1.symm

theorem canonicalNumber_inj (whole : b.isInteger = true) (same : canonicalNumber a = canonicalNumber b) : a = b := by
  cases b with
  | finite =>
    cases a with
    | finite => exact same
    | nan | infinite negative => cases same
  | nan | infinite negative => cases whole

theorem outside_integer (inside : ¬ outside low high n = true) : n.isInteger = true := by
  cases whole : n.isInteger with
  | true => rfl
  | false => simp [outside,whole] at inside

theorem valid_integers (valid : validateFeed feed = []) :
    (feed.minSources.isInteger = true ∧ feed.maxDeviationBps.isInteger = true ∧ feed.stalenessSeconds.isInteger = true) ∧
    (∃ warn, feed.freshnessWarnSeconds = some warn ∧ warn.isInteger = true) ∧
    (feed.quoteUnit.getD defaultQuoteUnit).scaleDecimals.isInteger = true ∧ (feed.quoteUnit.getD defaultQuoteUnit).displayDecimals.isInteger = true := by
  simp only [validateFeed,append_eq_nil_iff,ite_eq_right_iff,cons_ne_nil,imp_false,map_eq_nil_iff,and_assoc] at valid
  obtain ⟨_,_,_,minimum,_,deviation,staleness,_,warning,quote⟩ := valid
  simp only [validateQuoteUnit,append_eq_nil_iff,ite_eq_right_iff,cons_ne_nil,imp_false,and_assoc] at quote
  obtain ⟨_,_,scale,display,_⟩ := quote
  simp only [Bool.or_eq_true,not_or] at display
  refine ⟨⟨?_,outside_integer deviation,outside_integer staleness⟩,?_,outside_integer scale,outside_integer display.1⟩
  · cases whole : feed.minSources.isInteger with
    | true => rfl
    | false => simp [whole] at minimum
  · cases held : feed.freshnessWarnSeconds with
    | none => simp [held] at warning
    | some warn =>
      refine ⟨warn,rfl,?_⟩
      cases whole : warn.isInteger with
      | true => rfl
      | false => simp [held,whole] at warning

theorem canonicalJson_inj (valid : validateFeed after = []) (same : canonicalJson before = canonicalJson after) : before = after := by
  obtain ⟨⟨minimum,deviation,staleness⟩,⟨_,held,whole⟩,scale,display⟩ := valid_integers valid
  obtain ⟨_,_,minSources,maxDeviationBps,stalenessSeconds,_,_,quoteUnit,_⟩ := before
  obtain ⟨_,_,minSources',maxDeviationBps',stalenessSeconds',_,_,quoteUnit',_⟩ := after
  simp only [canonicalJson,FeedPolicy.mk.injEq] at same held
  obtain ⟨rfl,rfl,sameMinimum,sameDeviation,sameStaleness,rfl,sameWarn,sameQuote,rfl⟩ := same
  subst held
  obtain ⟨_,rfl,sameOther⟩ := Option.map_eq_some_iff.mp sameWarn
  have quotes : quoteUnit = quoteUnit' := by
    cases quoteUnit' with
    | none => simpa using sameQuote
    | some unit' =>
      obtain ⟨unit,rfl,sameUnit⟩ := Option.map_eq_some_iff.mp sameQuote
      obtain ⟨_,_,scaleDecimals,displayDecimals,_⟩ := unit
      obtain ⟨_,_,scaleDecimals',displayDecimals',_⟩ := unit'
      simp only [QuoteUnit.mk.injEq] at sameUnit
      obtain ⟨rfl,rfl,sameScale,sameDisplay,rfl⟩ := sameUnit
      obtain rfl : scaleDecimals = scaleDecimals' := canonicalNumber_inj scale sameScale
      obtain rfl : displayDecimals = displayDecimals' := canonicalNumber_inj display sameDisplay
      rfl
  obtain rfl : minSources = minSources' := canonicalNumber_inj minimum sameMinimum
  obtain rfl : maxDeviationBps = maxDeviationBps' := canonicalNumber_inj deviation sameDeviation
  obtain rfl : stalenessSeconds = stalenessSeconds' := canonicalNumber_inj staleness sameStaleness
  rw [canonicalNumber_inj whole sameOther,quotes]

-- A change that loosens the policy is of high impact.
theorem loosens_highImpact (normal : normalizeChange host change = .ok change)
    (done : validateCatalogChange host version current change = .ok validation) (none : validation.errors = [])
    (loosens : Loosens current (projectFeeds host current change)) : validation.highImpact = true := by
  obtain ⟨_,diff,errors,highImpact⟩ := validation_parts normal done
  rw [none] at errors
  obtain ⟨_,valid,_⟩ := accepted_parts errors.symm
  rw [highImpact,diff]
  rcases loosens with ⟨asset,added⟩ | ⟨asset,removed⟩ | ⟨asset,old,new,held,got,feed⟩
  · exact .inr (.inl (ne_nil_of_mem (mem_added.mpr added)))
  · exact .inr (.inr (.inl (ne_nil_of_mem (mem_removed.mpr removed))))
  · have changed : canonicalJson old ≠ canonicalJson new := by
      intro same
      have alike : old = new := by
        rcases (projected_get (byAsset_projectFeeds.mp got)).2 with written | kept
        · exact canonicalJson_inj (valid new written) same
        · exact Option.some.inj (held.symm.trans kept)
      subst alike
      exact not_loosens_same feed
    have modified := mem_modified.mpr ⟨old,new,held,got,changed⟩
    refine .inr (.inr (.inr ?_))
    obtain ⟨finding,mem⟩ := exists_mem_of_ne_nil _ (loosens_warned feed)
    have listed : finding ∈ changeWarnings host current (projectFeeds host current change)
        (diffPolicies current (projectFeeds host current change)) := by
      refine mem_flatMap.mpr ⟨asset,modified,?_⟩
      rw [held,find_byAsset projectFeeds_distinct,got]
      exact mem
    exact ne_nil_of_mem listed

end StellarPriceOracle.FeedCatalog
