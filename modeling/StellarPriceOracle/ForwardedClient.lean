import StellarPriceOracle.Library.JsNumber
import StellarPriceOracle.Library.IpAddress
import StellarPriceOracle.Library.Runs

-- packages/ws-guard/src/index.ts: the identity under which a client is rate limited.
namespace StellarPriceOracle.ForwardedClient
open CharText
open IpAddress (mask)
open List

abbrev Text := CharText

def value (base : Nat) (text : Text) : Nat := text.foldl (fun n c => n * base + (hexDigit c).getD 0) 0

def ipv4Octet (result : Nat) (part : Text) : Option Nat :=
  if digits part && part.length ≤ 3 then
    if value 10 part > 255 then none else some (result * 256 + value 10 part)
  else none

def ipv4ToLong (ip : Text) : Option Nat :=
  let parts := ip.splitOn '.'
  if parts.length ≠ 4 then none else (parts.foldlM ipv4Octet 0).map (· % 2^32)

def doubleColons : Text → Nat
  | ':' :: ':' :: rest => 1 + doubleColons rest
  | _ :: rest => doubleColons rest
  | [] => 0

def splitDouble : Text → Text × Text
  | ':' :: ':' :: rest => ([],rest)
  | c :: rest => (c :: (splitDouble rest).1,(splitDouble rest).2)
  | [] => ([],[])

section
variable (text : Text)

def colonParts : List Text := if text = [] then [] else text.splitOn ':'

-- An embedded IPv4 suffix becomes two groups, written in decimal and read in hexadecimal.
def embedIpv4 (parts : List Text) : Option (List Text) :=
  let last := parts.getLast?.getD []
  if '.' ∈ last then (ipv4ToLong last).map (fun long =>
    parts.dropLast ++ [Nat.toDigits 10 (long / 2^16),Nat.toDigits 10 (long % 2^16)])
  else some parts

-- `/^[0-9a-fA-F]{1,4}$/`
def ipv6Group (group : Text) : Option Nat :=
  if !group.isEmpty && group.length ≤ 4 && group.all (fun c => (hexDigit c).isSome) then some (value 16 group) else none

def ipv6Spelled (ip : Text) : Text :=
  let ip := ip.takeWhile (· ≠ '%')
  let ip := if [':',':'].isPrefixOf ip then '0' :: ip else ip
  if [':',':'].isSuffixOf ip then ip ++ ['0'] else ip

def ipv6ToGroups (ip : Text) : Option (List Nat) :=
  if ':' ∉ ip then none else
    let ip := ipv6Spelled ip
    if doubleColons ip > 1 then none else do
      let short := doubleColons ip = 1
      let head ← embedIpv4 (if short then colonParts (splitDouble ip).1 else ip.splitOn ':')
      let tail ← embedIpv4 (if short then colonParts (splitDouble ip).2 else [])
      let missing : Int := 8 - head.length - tail.length
      if short then if missing < 0 then none else some ()
      else if missing ≠ 0 then none else some ()
      let groups ← (head ++ replicate missing.toNat ['0'] ++ tail).mapM ipv6Group
      if groups.length ≠ 8 then none else some groups

inductive Family where
  | v4
  | v6
  deriving DecidableEq

structure Cidr where
  family : Family
  address : Text
  bits : Nat
  deriving DecidableEq

def parsePrefix (longest : Nat) (part : Option Text) : Option Nat :=
  match part.filter (fun part => !part.isEmpty) with
  | none => some longest
  | some part => (parseInt part).bind (fun bits => if bits < 0 ∨ bits > longest then none else some bits.toNat)

def parseCidr (cidr : Text) : Option Cidr :=
  let parts := (trim cidr).splitOn '/'
  let addressPart := parts[0]?.getD []
  if addressPart = [] then none
  else if '.' ∈ addressPart then do
    let _ ← ipv4ToLong addressPart
    let bits ← parsePrefix 32 parts[1]?
    some ⟨.v4,addressPart,bits⟩
  else do
    let _ ← ipv6ToGroups addressPart
    let bits ← parsePrefix 128 parts[1]?
    some ⟨.v6,addressPart,bits⟩

-- `/^::ffff:(\d+\.\d+\.\d+\.\d+)$/i`, in both of the source's normalisations.
def normalizeIpv4 : Text → Text
  | ip@(':' :: ':' :: a :: b :: c :: d :: ':' :: rest) =>
    if [a,b,c,d].all (fun letter => letter = 'f' ∨ letter = 'F') && dotted rest then rest else ip
  | ip => ip

def normalizeIpv6ForComparison (ip : Text) : Text := normalizeIpv4 ip

def ipMatchesCidr (ip cidr : Text) : Bool :=
  match parseCidr cidr with
  | none => false
  | some parsed =>
    match parsed.family with
    | .v4 =>
      match ipv4ToLong (normalizeIpv4 ip),ipv4ToLong parsed.address with
      | some ipLong,some netLong => parsed.bits = 0 || ipLong &&& mask 32 parsed.bits = netLong &&& mask 32 parsed.bits
      | _,_ => false
    | .v6 =>
      match ipv6ToGroups (normalizeIpv6ForComparison ip),ipv6ToGroups parsed.address with
      | some ipGroups,some netGroups =>
        let fullGroups := parsed.bits / 16
        let remainderBits := parsed.bits % 16
        ipGroups.take fullGroups = netGroups.take fullGroups && (remainderBits = 0 ||
          ipGroups.getD fullGroups 0 &&& mask 16 remainderBits = netGroups.getD fullGroups 0 &&& mask 16 remainderBits)
      | _,_ => false

def isIpInAnyCidr (ip : Text) (cidrs : List Text) : Bool := cidrs.any (ipMatchesCidr ip)

def quoted : Bool := text.head? = some '"' && text.getLast? = some '"'

def inner : Text := (text.drop 1).dropLast

def param (part : Text) : Option (Text × Text) :=
  if '=' ∉ part then none else
    let key := (trim (part.takeWhile (· ≠ '='))).map Char.toLower
    let paramValue := trim ((part.dropWhile (· ≠ '=')).drop 1)
    some (key,if quoted paramValue then inner paramValue else paramValue)

def forParam (element : Text) : Text :=
  ((trim element).splitOn ';').foldl (fun entry part =>
    match param part with
    | some (key,paramValue) => if key = ['f','o','r'] then paramValue else entry
    | none => entry) []

def parseForwardedHeader (value : Text) : List Text := ((value.splitOn ',').map forParam).filter (fun host => !host.isEmpty)

def bracketed : Bool := text.head? = some '[' && ']' ∈ text

def unbracket : Text := (text.takeWhile (· ≠ ']')).drop 1

-- `/^[0-9.]+$/`
def hostDigits : Bool := !text.isEmpty && text.all (fun c => c.isDigit || c = '.')

-- `/^[0-9.]+:\d+$/`
def hostPort : Bool :=
  match text.splitOn ':' with
  | [host,port] => hostDigits host && digits port
  | _ => false

def beforeLastColon : Option Text :=
  if ':' ∈ text then some ((text.reverse.dropWhile (· ≠ ':')).drop 1).reverse else none

def stripPort : Text :=
  if ':' ∉ text ∨ hostPort text = true then
    match beforeLastColon text with
    | some host => if hostDigits host then host else text
    | none => text
  else text

end

def unwrapForwardedHost (host : Text) : Text :=
  let value := trim host
  if bracketed value then unbracket value
  else if quoted value then
    if bracketed (inner value) then unbracket (inner value) else stripPort (inner value)
  else stripPort value

inductive Header where
  | absent
  | text (value : Text)
  | array (values : List Text)

structure WsGuardConfig where
  trustedProxyCidrs : List Text
  maxForwardedHops : JsNumber

structure IncomingMessage where
  remoteAddress : Option Text
  (xForwardedFor forwarded : Header)

-- `Forwarded` counts only as one non-empty string.
def Header.single : Header → Option Text
  | .text value => if value = [] then none else some value
  | _ => none

def Header.joined : Header → Option Text
  | .array (value :: values) => some ([','].intercalate (value :: values))
  | header => header.single

def hops (req : IncomingMessage) : List Text :=
  match req.forwarded.single with
  | some value => (parseForwardedHeader value).map unwrapForwardedHost
  | none =>
    match req.xForwardedFor.joined with
    | some value => (value.splitOn ',').map unwrapForwardedHost
    | none => []

def limitHops (maxHops : JsNumber) (hops : List Text) : List Text := hops.take (maxHops.sliceEnd hops.length)

def unknown : Text := "unknown".toList

def peerOf (req : IncomingMessage) : Text := (req.remoteAddress.filter (fun address => !address.isEmpty)).getD unknown

def resolveClientIp (config : WsGuardConfig) (req : IncomingMessage) : Text :=
  let peer := peerOf req
  let trusted := config.trustedProxyCidrs
  if trusted = [] ∨ peer = unknown ∨ isIpInAnyCidr peer trusted = false then peer else
    let chain := limitHops config.maxForwardedHops (hops req)
    match chain.reverse.find? (fun hop => !isIpInAnyCidr hop trusted) with
    | some hop => hop
    | none => chain.head?.getD peer

def Lists (header : Header) (entries : List Text) : Prop :=
  ∃ text, header.joined = some text ∧ (text.splitOn ',').map trim = entries

def plainChar (c : Char) : Bool :=
  (48 ≤ c.toNat && c.toNat ≤ 57) || (65 ≤ c.toNat && c.toNat ≤ 90) || (97 ≤ c.toNat && c.toNat ≤ 122) ||
    c = '.' || c = ':' || c = '%' || c = '-' || c = '_'

-- An address without brackets, quotes or a port. One colon alone is no address.
structure Plain (text : Text) : Prop where
  written : text ≠ []
  chars : ∀ c ∈ text, plainChar c = true
  portless : text.count ':' ≠ 1

def LastOutside (trusted : List Text) (hops : List Text) (hop : Text) : Prop :=
  isIpInAnyCidr hop trusted = false ∧ ∃ before after, hops = before ++ hop :: after ∧ ∀ proxy ∈ after, isIpInAnyCidr proxy trusted = true

section
variable {config : WsGuardConfig} {req : IncomingMessage} {trusted chain entries attacker proxies : List Text} {client peer text : Text}

theorem stripPort_portless (portless : text.count ':' ≠ 1) : stripPort text = text := by
  have unsplit : hostPort text = false := by
    have length := splitOn_length ':' text
    unfold hostPort
    split
    · rename_i parts
      rw [parts] at length
      exact absurd (Nat.succ.inj length).symm portless
    · rfl
  by_cases colon : ':' ∈ text
  · simp [stripPort,colon,unsplit]
  · simp [stripPort,colon,beforeLastColon]

theorem unwrap_plain (plain : Plain (trim text)) : unwrapForwardedHost text = trim text := by
  obtain ⟨written,chars,portless⟩ := plain
  obtain ⟨first,_,spelled⟩ := exists_cons_of_ne_nil written
  have plainFirst := chars first (by simp [spelled])
  have noBracket : bracketed (trim text) = false := by
    simp only [bracketed,spelled,head?_cons]
    rcases Classical.em (first = '[') with rfl | other
    · exact absurd plainFirst (by decide)
    · simp [other]
  have noQuote : quoted (trim text) = false := by
    simp only [quoted,spelled,head?_cons]
    rcases Classical.em (first = '"') with rfl | other
    · exact absurd plainFirst (by decide)
    · simp [other]
  simp [unwrapForwardedHost,noBracket,noQuote,stripPort_portless portless,Bool.false_eq_true]

theorem plainChar_shown (plain : plainChar c = true) : strWhiteSpace c = false ∧ c ≠ ',' := by
  constructor
  · have shown : 32 < c.toNat ∧ c.toNat < 127 := by
      simp only [plainChar,Bool.or_eq_true,Bool.and_eq_true,decide_eq_true_eq] at plain
      rcases plain with ((((_ | rfl) | rfl) | rfl) | rfl) | rfl
      · omega
      all_goals decide
    simp only [strWhiteSpace,Bool.or_eq_false_iff,Bool.and_eq_false_iff,decide_eq_false_iff_not]
    omega
  · rintro rfl
    exact absurd plain (by decide)

theorem trim_plain (plain : Plain text) : trim text = text := by
  have kept : ∀ l : Text, (∀ c ∈ l, plainChar c = true) → l.dropWhile strWhiteSpace = l := by
    intro l chars
    cases l with
    | nil => rfl
    | cons c => rw [dropWhile_cons,(plainChar_shown (chars c mem_cons_self)).1,if_neg Bool.false_ne_true]
  rw [trim,kept _ plain.chars,kept _ (by simpa using plain.chars),reverse_reverse]

theorem plain_listed (mem : entries ≠ []) (plain : ∀ entry ∈ entries, Plain entry) : Lists (.text ([','].intercalate entries)) entries := by
  obtain ⟨first,rest,rfl⟩ := exists_cons_of_ne_nil mem
  have shown : [','].intercalate (first :: rest) ≠ [] := by
    obtain ⟨c,_,rfl⟩ := exists_cons_of_ne_nil (plain first mem_cons_self).written
    cases rest <;> simp [intercalate]
  refine ⟨_,if_neg shown,?_⟩
  rw [splitOn_intercalate ',' (fun entry member comma => (plainChar_shown ((plain entry member).chars _ comma)).2 rfl) mem]
  conv_rhs => rw [← map_id (first :: rest)]
  exact map_congr_left (fun entry member => trim_plain (plain entry member))

theorem hops_listed (alone : req.forwarded.single = none) (listed : Lists req.xForwardedFor entries) (plain : ∀ entry ∈ entries, Plain entry) :
    hops req = entries := by
  obtain ⟨_,joined,rfl⟩ := listed
  simp only [hops,alone,joined]
  apply map_congr_left
  intro _ mem
  exact unwrap_plain (plain _ (mem_map_of_mem mem))

theorem outside_no_text (digitless : ipv4ToLong (normalizeIpv4 text) = none) (colonless : ipv6ToGroups (normalizeIpv6ForComparison text) = none) :
    isIpInAnyCidr text cidrs = false := by
  rw [isIpInAnyCidr,any_eq_false]
  intro cidr _
  unfold ipMatchesCidr
  cases parseCidr cidr with
  | none => simp
  | some parsed => cases family : parsed.family <;> simp [family,digitless,colonless]

theorem unknown_outside : isIpInAnyCidr unknown cidrs = false :=
  outside_no_text (by decide) (by decide)

theorem empty_outside : isIpInAnyCidr [] cidrs = false :=
  outside_no_text (by decide) (by decide)

theorem peerOf_trusted (socket : req.remoteAddress = some peer) (proxied : isIpInAnyCidr peer trusted = true) :
    peerOf req = peer ∧ peer ≠ unknown := by
  refine ⟨?_,?_⟩
  · cases peer with
    | nil => simp [empty_outside] at proxied
    | cons => simp [peerOf,socket,Option.filter]
  · rintro rfl
    simp [unknown_outside] at proxied

theorem lastOutside_find : LastOutside trusted chain client ↔
    chain.reverse.find? (fun hop => !isIpInAnyCidr hop trusted) = some client := by
  rw [find?_eq_some_iff_append]
  constructor
  · rintro ⟨outside,before,after,rfl,inside⟩
    refine ⟨by simp [outside],after.reverse,before.reverse,by simp,?_⟩
    simpa using inside
  · rintro ⟨outside,after,before,reversed,inside⟩
    refine ⟨by simpa using outside,before.reverse,after.reverse,?_,by simpa using inside⟩
    rw [← reverse_reverse chain,reversed]
    simp

theorem resolve_outside (socket : req.remoteAddress = some peer) (proxied : isIpInAnyCidr peer config.trustedProxyCidrs = true)
    (outside : isIpInAnyCidr client config.trustedProxyCidrs = false) :
    resolveClientIp config req = client ↔ LastOutside config.trustedProxyCidrs (limitHops config.maxForwardedHops (hops req)) client := by
  obtain ⟨same,known⟩ := peerOf_trusted socket proxied
  have conf : config.trustedProxyCidrs ≠ [] := by
    intro none
    simp [none,isIpInAnyCidr] at proxied
  rw [lastOutside_find]
  simp only [resolveClientIp,same,conf,known,proxied,false_or,Bool.true_eq_false,if_false]
  cases got : (limitHops config.maxForwardedHops (hops req)).reverse.find? (fun hop => !isIpInAnyCidr hop config.trustedProxyCidrs) with
  | some => simp
  | none =>
    rw [find?_eq_none] at got
    simp only [reduceCtorEq,iff_false]
    rintro rfl
    cases first : (limitHops config.maxForwardedHops (hops req)).head? with
    | none => simp [first,proxied] at outside
    | some hop =>
      have proxy := got hop (mem_reverse.mpr (mem_of_mem_head? first))
      simp [first] at outside proxy
      simp [outside] at proxy

theorem take_past {before after : List Text} (reached : before.length < kept) :
    (before ++ client :: after).take kept = before ++ client :: after.take (kept - before.length - 1) := by
  obtain ⟨_,rfl⟩ := Nat.exists_eq_add_of_lt reached
  simp [take_append,Nat.add_assoc,take_of_length_le]

theorem lastOutside_cut (outside : isIpInAnyCidr client trusted = false) (inside : ∀ proxy ∈ proxies, isIpInAnyCidr proxy trusted = true) :
    LastOutside trusted ((attacker ++ client :: proxies).take kept) client ↔
      attacker.length < kept ∨ LastOutside trusted (attacker.take kept) client := by
  rcases Nat.lt_or_ge attacker.length kept with reached | cut
  · refine ⟨fun _ => .inl reached,fun _ => ⟨outside,attacker,_,take_past reached,?_⟩⟩
    intro proxy mem
    exact inside proxy (mem_of_mem_take mem)
  · rw [take_append_of_le_length cut]
    simp [Nat.not_lt.mpr cut]

theorem lastOutside_kept (outside : isIpInAnyCidr client trusted = false) :
    LastOutside trusted (chain.take kept) client ↔ ∃ before after, chain = before ++ client :: after ∧ before.length < kept ∧
      ∀ proxy ∈ after.take (kept - before.length - 1), isIpInAnyCidr proxy trusted = true := by
  constructor
  · intro last
    obtain ⟨_,before,after,cut,inside⟩ := last
    have reached : before.length < kept := by
      have length := congrArg List.length cut
      rw [length_take,length_append,length_cons] at length
      omega
    have whole : chain = before ++ client :: (after ++ chain.drop kept) := by
      rw [← cons_append,← append_assoc,← cut,take_append_drop]
    have same : after = (after ++ chain.drop kept).take (kept - before.length - 1) := by
      have front := (take_past reached).symm.trans ((congrArg (take kept) whole.symm).trans cut)
      exact (cons.inj (append_cancel_left front)).2.symm
    exact ⟨before,_,whole,reached,same ▸ inside⟩
  · intro kept
    obtain ⟨before,after,rfl,reached,inside⟩ := kept
    exact ⟨outside,before,_,take_past reached,inside⟩

-- The client's own text must not fill the hops that are kept. A `Forwarded` header is harmless
-- where it names the client among the hosts that are kept, with proxies only behind it.
def Spared (config : WsGuardConfig) (req : IncomingMessage) (attacker : List Text) (client : Text) (proxies : List Text) : Prop :=
  match req.forwarded.single with
  | none =>
    let kept := config.maxForwardedHops.sliceEnd (attacker.length + 1 + proxies.length)
    attacker.length < kept ∨ LastOutside config.trustedProxyCidrs (attacker.take kept) client
  | some text =>
    let kept := config.maxForwardedHops.sliceEnd (parseForwardedHeader text).length
    ∃ before host after, parseForwardedHeader text = before ++ host :: after ∧ before.length < kept ∧ unwrapForwardedHost host = client ∧
      ∀ proxy ∈ after.take (kept - before.length - 1), isIpInAnyCidr (unwrapForwardedHost proxy) config.trustedProxyCidrs = true

theorem client_resolved_exact (socket : req.remoteAddress = some peer) (proxied : isIpInAnyCidr peer config.trustedProxyCidrs = true)
    (listed : Lists req.xForwardedFor (attacker ++ client :: proxies)) (plain : ∀ entry ∈ attacker ++ client :: proxies, Plain entry)
    (outside : isIpInAnyCidr client config.trustedProxyCidrs = false)
    (inside : ∀ proxy ∈ proxies, isIpInAnyCidr proxy config.trustedProxyCidrs = true) :
    resolveClientIp config req = client ↔ Spared config req attacker client proxies := by
  rw [resolve_outside socket proxied outside]
  unfold Spared
  cases alone : req.forwarded.single with
  | some text =>
    simp only [limitHops,lastOutside_kept outside,hops,alone,map_eq_append_iff,map_eq_cons_iff,length_map]
    constructor
    · rintro ⟨_,_,⟨before,_,named,rfl,host,after,rfl,rfl,rfl⟩,reached,inside⟩
      rw [length_map] at reached inside
      exact ⟨before,host,after,named,reached,rfl,by simpa [← map_take] using inside⟩
    · rintro ⟨before,host,after,named,reached,rfl,inside⟩
      refine ⟨_,_,⟨before,_,named,rfl,host,after,rfl,rfl,rfl⟩,?_⟩
      rw [length_map]
      exact ⟨reached,by simpa [← map_take] using inside⟩
  | none =>
    rw [hops_listed alone listed plain,limitHops,lastOutside_cut outside inside,length_append,length_cons,
      Nat.add_assoc,Nat.add_comm 1]

end

namespace Sample
def config : WsGuardConfig := ⟨["10.0.0.0/8".toList],64⟩
def peer : Text := "10.1.2.3".toList
def proxy : Text := "10.0.0.2".toList
def client : Text := "198.51.100.7".toList
def forged (digit : Char) : Text := [digit,'.',digit,'.',digit,'.',digit]
def request (entries : List Text) : IncomingMessage := ⟨some peer,.text ([','].intercalate entries),.absent⟩

theorem proxied : isIpInAnyCidr peer config.trustedProxyCidrs = true := by decide +kernel
theorem outside : isIpInAnyCidr client config.trustedProxyCidrs = false := by decide +kernel
theorem plain_client : Plain client := ⟨by decide,all_eq_true.mp (by decide),by decide⟩
theorem plain_forged (shown : digit ∈ ['6','7']) : Plain (forged digit) := by
  rcases mem_pair.mp shown with rfl | rfl <;> exact ⟨by decide,all_eq_true.mp (by decide),by decide⟩
end Sample

theorem one_forged_hop_ignored : Lists (Sample.request [Sample.forged '6',Sample.client,Sample.proxy]).xForwardedFor [Sample.forged '6',Sample.client,Sample.proxy] ∧
    resolveClientIp Sample.config (Sample.request [Sample.forged '6',Sample.client,Sample.proxy]) = Sample.client := by
  have plain : ∀ entry ∈ [Sample.forged '6',Sample.client,Sample.proxy], Plain entry := by
    intro _ member
    rcases mem_cons.mp member with rfl | member
    · exact Sample.plain_forged (by decide)
    rcases mem_pair.mp member with rfl | rfl
    · exact Sample.plain_client
    · exact ⟨by decide,all_eq_true.mp (by decide),by decide⟩
  have listed := plain_listed (by decide) plain
  have inside : ∀ proxy ∈ [Sample.proxy], isIpInAnyCidr proxy Sample.config.trustedProxyCidrs = true := by decide +kernel
  have spared : Spared Sample.config (Sample.request [Sample.forged '6',Sample.client,Sample.proxy]) [Sample.forged '6'] Sample.client [Sample.proxy] :=
    .inl (by decide)
  exact ⟨listed,(client_resolved_exact rfl Sample.proxied listed plain Sample.outside inside).mpr spared⟩

namespace Sample
def flood (digit : Char) : List Text := replicate 64 (forged digit) ++ [client]

theorem plain_flood (shown : digit ∈ ['6','7']) : ∀ entry ∈ flood digit, Plain entry := by
  intro _ member
  rcases Runs.mem_snoc.mp member with chosen | last
  · exact eq_of_mem_replicate chosen ▸ plain_forged shown
  · exact last ▸ plain_client

theorem flood_listed (shown : digit ∈ ['6','7']) : Lists (request (flood digit)).xForwardedFor (flood digit) :=
  plain_listed (by simp [flood]) (plain_flood shown)
end Sample

-- 64 entries of the client's own fill the hops, and the proxy's address is cut off.
theorem forged_hops_choose_identity :
    isIpInAnyCidr Sample.peer Sample.config.trustedProxyCidrs = true ∧ isIpInAnyCidr Sample.client Sample.config.trustedProxyCidrs = false ∧
    (Lists (Sample.request (Sample.flood '6')).xForwardedFor (Sample.flood '6') ∧ (∀ entry ∈ Sample.flood '6', Plain entry) ∧
      resolveClientIp Sample.config (Sample.request (Sample.flood '6')) = Sample.forged '6') ∧
    (Lists (Sample.request (Sample.flood '7')).xForwardedFor (Sample.flood '7') ∧ (∀ entry ∈ Sample.flood '7', Plain entry) ∧
      resolveClientIp Sample.config (Sample.request (Sample.flood '7')) = Sample.forged '7') := by
  refine ⟨Sample.proxied,Sample.outside,⟨Sample.flood_listed (by decide),Sample.plain_flood (by decide),?_⟩,
    Sample.flood_listed (by decide),Sample.plain_flood (by decide),?_⟩
  · decide +kernel
  · decide +kernel

end StellarPriceOracle.ForwardedClient
