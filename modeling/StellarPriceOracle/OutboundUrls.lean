import StellarPriceOracle.ForwardedClient

-- packages/ssrf-guard: which addresses an outbound request may name.
namespace StellarPriceOracle.OutboundUrls
open CharText IpAddress Guarded
open ForwardedClient (Text)
open List
open Ipv6
open Ipv4 (octets)

inductive UrlHost where
  | domain (name : Text)
  | literal (address : Literal)

structure Url where
  protocol : Text
  host : UrlHost
  port : Option Nat

def Url.hostname (url : Url) : Text :=
  match url.host with
  | .domain name => name
  | .literal (.v4 ip) => ip.serialize
  | .literal (.v6 ip) => '[' :: ip.serialize ++ [']']

-- The platform's `new URL`, `net.isIP`, `toLowerCase` and the text of a number.
structure Platform where
  parseUrl : Text → Option Url
  isIP : Text → Nat
  toLowerCase : Text → Text
  numberText : JsNumber → Text
  isIP_v4 : ∀ ip : Ipv4, isIP ip.serialize = 4
  isIP_v6 : ∀ ip : Ipv6, isIP ip.serialize = 6
  lower_ascii : ∀ text : Text, (∀ c ∈ text, c.toNat < 128) → toLowerCase text = text.map Char.toLower

def blockedV4Ranges : List (Text × Nat) :=
  [("0.0.0.0".toList,8),("10.0.0.0".toList,8),("100.64.0.0".toList,10),("127.0.0.0".toList,8),("169.254.0.0".toList,16),
    ("172.16.0.0".toList,12),("192.0.0.0".toList,24),("192.0.2.0".toList,24),("192.168.0.0".toList,16),("198.18.0.0".toList,15),
    ("198.51.100.0".toList,24),("203.0.113.0".toList,24),("224.0.0.0".toList,4),("240.0.0.0".toList,4)]

def int32 (n : Int) : Int := (n + 2^31) % 2^32 - 2^31
def uint32 (n : Option Int) : Nat := (n.getD 0 % 2^32).toNat

def shiftIn (acc : Option Int) (octet : Text) : Option Int := (parseInt octet).map (int32 (acc.getD 0 * 256) + ·)

def ipv4ToLong (ip : Text) : Nat := uint32 ((ip.splitOn '.').foldl shiftIn (some 0))

def inV4Range (ip range : Text) (bits : Nat) : Bool :=
  let mask := if bits = 0 then 0 else mask 32 bits
  ipv4ToLong ip &&& mask = ipv4ToLong range &&& mask

-- `/^::ffff:(\d+\.\d+\.\d+\.\d+)$/`
def mappedV4 : Text → Option Text
  | ':' :: ':' :: 'f' :: 'f' :: 'f' :: 'f' :: ':' :: rest => if dotted rest then some rest else none
  | _ => none

section
variable (platform : Platform)

def isPrivateUnmapped (ip : Text) : Bool :=
  let family := platform.isIP ip
  if family = 4 then blockedV4Ranges.any (fun (range,bits) => inV4Range ip range bits)
  else if family = 6 then
    let normalized := platform.toLowerCase ip
    normalized = "::1".toList || normalized = "::".toList || "fc".toList.isPrefixOf normalized || "fd".toList.isPrefixOf normalized ||
      "fe80".toList.isPrefixOf normalized || "ff".toList.isPrefixOf normalized
  else true

-- The recursive call gets digits and dots only, which are no mapped address again.
def isPrivateIp (ip : Text) : Bool :=
  if platform.isIP ip = 6 then isPrivateUnmapped platform ((mappedV4 (platform.toLowerCase ip)).getD ip)
  else isPrivateUnmapped platform ip

structure SsrfPolicy where
  requireHttps : Option Bool
  allowedHosts : Option (List Text)
  (allowPrivateIps allowLocalHostnames : Option Bool)

inductive SsrfReason where
  | malformedUrl
  | protocol
  | httpsRequired
  | allowlist
  | forbiddenHost
  | privateIp
  | deploymentAllowlist
  | dnsEmpty
  | redirectLimit
  deriving DecidableEq

structure SsrfError where
  (message url : Text)
  reason : SsrfReason
  deriving DecidableEq

def forbiddenHostnames : List Text :=
  ["localhost","metadata","metadata.google.internal","kubernetes","kubernetes.default","kubernetes.default.svc","ip6-localhost",
    "ip6-loopback","host.docker.internal","host.containers.internal"].map String.toList

def forbiddenSuffixes : List Text :=
  [".localhost",".local",".localdomain",".internal",".intranet",".lan",".home.arpa",".cluster.local",".svc"].map String.toList

def normalizeHost (host : Text) : Text :=
  let lower := platform.toLowerCase host
  if lower.getLast? = some '.' then lower.dropLast else lower

def isForbiddenHostname (hostname : Text) : Bool :=
  let host := normalizeHost platform hostname
  decide (host ∈ forbiddenHostnames) || forbiddenSuffixes.any (fun suffix => suffix.isSuffixOf host)

def normalizeHosts (hosts : Option (List Text)) : List Text := (hosts.getD []).map (normalizeHost platform)

def lineTerminator (c : Char) : Bool := c.toNat = 10 || c.toNat = 13 || c.toNat = 0x2028 || c.toNat = 0x2029

def ipLiteralOf (host : Text) : Text :=
  let inner := (host.drop 1).dropLast
  if host = '[' :: inner ++ [']'] ∧ inner.all (fun c => !lineTerminator c) = true then inner else host

def saysHost (host : Text) (what : String) : Text := "Host \"".toList ++ host ++ what.toList

def validateOutboundUrl (rawUrl : Text) (policy : SsrfPolicy) : Except SsrfError Url := do
  let parsed ← someOr (platform.parseUrl rawUrl) ⟨"Malformed outbound URL".toList,rawUrl,.malformedUrl⟩
  require (parsed.protocol = "http:".toList ∨ parsed.protocol = "https:".toList)
    ⟨"Blocked protocol \"".toList ++ parsed.protocol ++ "\"".toList,rawUrl,.protocol⟩
  require (policy.requireHttps = some true → parsed.protocol = "https:".toList)
    ⟨"HTTPS is required for outbound URLs".toList,rawUrl,.httpsRequired⟩
  let host := normalizeHost platform parsed.hostname
  let ipLiteral := ipLiteralOf host
  let allow := normalizeHosts platform policy.allowedHosts
  require (allow = [] ∨ host ∈ allow) ⟨saysHost host "\" is not in the allowlist",rawUrl,.allowlist⟩
  let allowLocalHostnames := (policy.allowLocalHostnames <|> policy.allowPrivateIps).getD false
  require (allowLocalHostnames = true ∨ isForbiddenHostname platform host = false)
    ⟨saysHost host "\" names an internal service",rawUrl,.forbiddenHost⟩
  require (platform.isIP ipLiteral = 0 ∨ policy.allowPrivateIps = some true ∨ isPrivateIp platform ipLiteral = false)
    ⟨saysHost host "\" is in a private range",rawUrl,.privateIp⟩
  .ok parsed

end

def reservedV4 : List (Ipv4 × Nat) :=
  [(⟨0,0,0,0⟩,8),(⟨10,0,0,0⟩,8),(⟨100,64,0,0⟩,10),(⟨127,0,0,0⟩,8),(⟨169,254,0,0⟩,16),(⟨172,16,0,0⟩,12),(⟨192,0,0,0⟩,24),(⟨192,0,2,0⟩,24),
    (⟨192,168,0,0⟩,16),(⟨198,18,0,0⟩,15),(⟨198,51,100,0⟩,24),(⟨203,0,113,0⟩,24),(⟨224,0,0,0⟩,4),(⟨240,0,0,0⟩,4)]

def BlockedV4 (n : Nat) : Prop := ∃ reserved ∈ reservedV4, InPrefix 32 reserved.1.value reserved.2 n

def InV6 (group bits : Nat) (ip : Ipv6) : Prop := InPrefix 128 (group * 2^112) bits ip.value

def MappedBlocked (ip : Ipv6) : Prop := ip.value / 2^32 = 0xffff ∧ BlockedV4 (ip.value % 2^32)

def Blocked : Literal → Prop
  | .v4 ip => BlockedV4 ip.value
  | .v6 ip => ip.value = 0 ∨ ip.value = 1 ∨ InV6 0xfc00 7 ip ∨ InV6 0xfe80 10 ip ∨ InV6 0xff00 8 ip ∨ MappedBlocked ip

-- Mapped addresses are written without dots, and fe80::/10 has more first groups than one.
def Missed : Literal → Prop
  | .v4 _ => False
  | .v6 ip => MappedBlocked ip ∨ InV6 0xfe80 10 ip ∧ ¬ InV6 0xfe80 16 ip

section
variable {platform : Platform} {ip : Ipv6} {v4 : Ipv4} {address : Literal} {url : Url} {rawUrl : Text} {policy : SsrfPolicy}

theorem octet_read : ∀ n : Fin 256, parseInt (Nat.toDigits 10 n) = some (n : Int) ∧ '.' ∉ Nat.toDigits 10 n ∧
    digits (Nat.toDigits 10 n) = true ∧ (Nat.toDigits 10 n).all (fun c => decide (c ∈ "0123456789abcdef".toList)) = true := by
  decide +kernel

theorem octet_written (n : Fin 256) (mem : c ∈ Nat.toDigits 10 n) : c ∈ "0123456789abcdef".toList :=
  of_decide_eq_true (all_eq_true.mp (octet_read n).2.2.2 c mem)

theorem serialize_split : v4.serialize.splitOn '.' = v4.octets.map (Nat.toDigits 10) := by
  refine splitOn_intercalate '.' ?_ (by simp [octets])
  simp only [octets,map_cons,map_nil,forall_mem_cons]
  exact ⟨(octet_read _).2.1,(octet_read _).2.1,(octet_read _).2.1,(octet_read _).2.1,by simp⟩

theorem uint32_shift : uint32 (some (int32 n + d)) = ((n + d) % 2^32).toNat := by
  simp only [uint32,int32,Option.getD_some]
  congr 1
  omega

theorem int32_small (nonneg : 0 ≤ n) (small : n < 2^31) : int32 n = n := by
  unfold int32
  omega

theorem shiftIn_octet (acc : Int) (n : Fin 256) : shiftIn (some acc) (Nat.toDigits 10 n) = some (int32 (acc * 256) + (n : Int)) := by
  rw [shiftIn,(octet_read n).1,Option.map_some,Option.getD_some]

theorem ipv4ToLong_serialize (v4 : Ipv4) : ipv4ToLong v4.serialize = v4.value := by
  rw [ipv4ToLong,serialize_split]
  obtain ⟨a,b,c,d⟩ := v4
  have := a.isLt
  have := b.isLt
  have := c.isLt
  simp only [octets,Ipv4.value,map_cons,map_nil,foldl_cons,foldl_nil,shiftIn_octet]
  rw [uint32_shift,int32_small (n := 0 * 256) (by decide) (by decide),int32_small (n := (0 * 256 + (a : Int)) * 256) (by omega) (by omega),
    int32_small (by omega) (by omega)]
  omega

theorem blockedV4Ranges_reserved : blockedV4Ranges = reservedV4.map (fun reserved => (reserved.1.serialize,reserved.2)) := by
  decide +kernel

theorem inV4Range_inPrefix (v4 base : Ipv4) (bits : Nat) : inV4Range v4.serialize base.serialize bits = true ↔ InPrefix 32 base.value bits v4.value := by
  simp only [inV4Range,ipv4ToLong_serialize,decide_eq_true_eq]
  split
  · rename_i all
    have small := v4.value_lt
    have based := base.value_lt
    subst all
    rw [InPrefix,Nat.div_eq_of_lt small,Nat.div_eq_of_lt based]
    simp
  · exact masked_inPrefix v4.value_lt base.value_lt

theorem private_v4 (platform : Platform) : isPrivateIp platform v4.serialize = true ↔ BlockedV4 v4.value := by
  simp [isPrivateIp,isPrivateUnmapped,platform.isIP_v4,blockedV4Ranges_reserved,inV4Range_inPrefix,BlockedV4]

theorem written_ascii (written : Written c) : c.toNat < 128 ∧ c.toLower = c ∧ c ≠ '.' ∧ lineTerminator c = false := by
  have all : (':' :: "0123456789abcdef".toList).all (fun c => decide (c.toNat < 128 ∧ c.toLower = c ∧ c ≠ '.' ∧ lineTerminator c = false)) = true := by
    decide
  have each := fun c (mem : c ∈ ':' :: "0123456789abcdef".toList) => of_decide_eq_true (all_eq_true.mp all c mem)
  rcases written with rfl | digit
  · exact each _ mem_cons_self
  · exact each c (mem_cons_of_mem _ digit)

theorem lower_fixed (fixed : ∀ c ∈ text, c.toNat < 128 ∧ c.toLower = c) : platform.toLowerCase text = text := by
  rw [platform.lower_ascii _ (fun c member => (fixed c member).1)]
  conv_rhs => rw [← map_id text]
  exact map_congr_left (fun c member => (fixed c member).2)

theorem written_fixed (written : Written c) : c.toNat < 128 ∧ c.toLower = c :=
  ⟨(written_ascii written).1,(written_ascii written).2.1⟩

theorem lower_v6 : platform.toLowerCase ip.serialize = ip.serialize :=
  lower_fixed (fun _ member => written_fixed (serialize_written member))

theorem mappedV4_v6 : mappedV4 ip.serialize = none := by
  have dotless : '.' ∉ ip.serialize := fun member => (written_ascii (serialize_written member)).2.2.1 rfl
  unfold mappedV4
  split
  · rename_i _ text
    refine if_neg (fun matched => dotless ?_)
    rw [text]
    simp [dotted_dot matched]
  · rfl

theorem private_v6 : isPrivateIp platform ip.serialize = true ↔
    ip.serialize = "::1".toList ∨ ip.serialize = "::".toList ∨ "fc".toList <+: ip.serialize ∨ "fd".toList <+: ip.serialize ∨
      "fe80".toList <+: ip.serialize ∨ "ff".toList <+: ip.serialize := by
  simp [isPrivateIp,isPrivateUnmapped,platform.isIP_v6,lower_v6,mappedV4_v6,or_assoc]

theorem caught_v6 (blocked : Blocked (.v6 ip)) (shown : ¬ Missed (.v6 ip)) : isPrivateIp platform ip.serialize = true := by
  obtain ⟨a,b,c,d,e,f,g,h,all,small,_⟩ := ip.spelled
  have value : ip.value = ((((((a * 2^16 + b) * 2^16 + c) * 2^16 + d) * 2^16 + e) * 2^16 + f) * 2^16 + g) * 2^16 + h := by
    simp [value,all]
  have start {text : Text} (long : 2^12 ≤ a) (first : text <+: hex a) : text <+: ip.serialize :=
    first.trans (serialize_start all (by omega))
  rw [private_v6]
  rcases blocked with _ | _ | unique | linkLocal | multicast | mapped
  · have zeros : ip.groups = [0,0,0,0,0,0,0,0] := by
      rw [all]
      simp
      omega
    refine .inr (.inl ?_)
    rw [serialize,zeros]
    decide
  · have zeros : ip.groups = [0,0,0,0,0,0,0,1] := by
      rw [all]
      simp
      omega
    refine .inl ?_
    rw [serialize,zeros]
    decide
  · rw [InV6,inPrefix_leading all (by decide)] at unique
    have long : 2^12 ≤ a := by omega
    have top : a / 4096 = 15 := by omega
    rcases (by omega : a / 256 % 16 = 12 ∨ a / 256 % 16 = 13) with next | next
    · exact .inr (.inr (.inl (start long (by rw [hex_four small long,top,next]; exact ⟨_,rfl⟩))))
    · exact .inr (.inr (.inr (.inl (start long (by rw [hex_four small long,top,next]; exact ⟨_,rfl⟩)))))
  · have exact : InV6 0xfe80 16 ip := Classical.byContradiction (fun other => shown (.inr ⟨linkLocal,other⟩))
    rw [InV6,inPrefix_leading all (by decide)] at exact
    have same : a = 0xfe80 := by omega
    refine .inr (.inr (.inr (.inr (.inl (start (by omega) ?_)))))
    rw [same]
    decide
  · rw [InV6,inPrefix_leading all (by decide)] at multicast
    have long : 2^12 ≤ a := by omega
    have top : a / 4096 = 15 := by omega
    have next : a / 256 % 16 = 15 := by omega
    exact .inr (.inr (.inr (.inr (.inr (start long (by rw [hex_four small long,top,next]; exact ⟨_,rfl⟩))))))
  · exact absurd (.inl mapped) shown

theorem missed_passes (missed : Missed (.v6 ip)) : isPrivateIp platform ip.serialize = false := by
  obtain ⟨a,b,c,d,e,f,g,h,all,small,_⟩ := ip.spelled
  have value : ip.value = ((((((a * 2^16 + b) * 2^16 + c) * 2^16 + d) * 2^16 + e) * 2^16 + f) * 2^16 + g) * 2^16 + h := by
    simp [value,all]
  rw [Bool.eq_false_iff,ne_eq,private_v6]
  rcases missed with ⟨_,_⟩ | ⟨linkLocal,other⟩
  · have groups : ip.groups = [0,0,0,0,0,0xffff,g,h] := by
      rw [all]
      simp
      omega
    have compressed : compress [0,0,0,0,0,0xffff,g,h] = some 0 := by
      by_cases high : g = 0 <;> by_cases low : h = 0 <;>
        simp [compress,longest,zeros,List.range,List.range.loop,high,low]
    obtain ⟨rest,text⟩ : "::ffff".toList <+: ip.serialize := by
      rw [serialize,groups,compressed]
      exact ⟨_,rfl⟩
    simp [← text]
  · rw [InV6,inPrefix_leading all (by decide)] at linkLocal other
    have long : 2^12 ≤ a := by omega
    have top : a / 4096 = 15 := by omega
    have next : a / 256 % 16 = 14 := by omega
    obtain ⟨rest,text⟩ := serialize_start all (by omega)
    have eight : ∀ digit < 16, hexChar digit = '8' → digit = 8 := by decide
    have zero : ∀ digit < 16, hexChar digit = '0' → digit = 0 := by decide
    rw [hex_four small long,top,next] at text
    have apart : ¬ (hexChar (a / 16 % 16) = '8' ∧ hexChar (a % 16) = '0') := by
      rintro ⟨third,last⟩
      have := eight _ (Nat.mod_lt _ (by decide)) third
      have := zero _ (Nat.mod_lt _ (by decide)) last
      omega
    simp [← text,hexChar] at apart ⊢
    grind

theorem written_v4 (member : c ∈ v4.serialize) : Written c ∨ c = '.' := by
  simp only [Ipv4.serialize,octets,map_cons,map_nil,intercalate,intersperse,flatten_cons,flatten_nil,
    mem_append,mem_singleton,not_mem_nil,or_false] at member
  rcases member with octet | dot | octet | dot | octet | dot | octet
  all_goals first
    | exact .inr dot
    | exact .inl (.inr (octet_written _ octet))

theorem v4_end : v4.serialize.getLast? ≠ some '.' := by
  intro dot
  have text : v4.serialize = (['.'].intercalate ([v4.a,v4.b,v4.c].map (fun n => Nat.toDigits 10 n.val)) ++ ['.']) ++ Nat.toDigits 10 v4.d := by
    simp [Ipv4.serialize,octets,intercalate]
  have written : Nat.toDigits 10 v4.d ≠ [] := by
    intro empty
    have := (octet_read v4.d).2.2.1
    simp [digits,empty] at this
  rw [text,getLast?_append_of_ne_nil _ written] at dot
  exact (octet_read v4.d).2.1 (mem_of_getLast? dot)

theorem literal_host (literal : url.host = .literal address) : ipLiteralOf (normalizeHost platform url.hostname) = address.serialize := by
  cases address with
  | v4 ip =>
    have hostname : url.hostname = ip.serialize := by simp only [Url.hostname,literal]
    have lower : platform.toLowerCase ip.serialize = ip.serialize := by
      refine lower_fixed (fun c member => ?_)
      rcases written_v4 member with written | rfl
      · exact written_fixed written
      · decide
    rw [hostname,normalizeHost,lower,if_neg (v4_end)]
    refine if_neg (fun bracketed => ?_)
    have bracket : '[' ∈ ip.serialize := by
      rw [bracketed.1]
      simp
    rcases written_v4 bracket with written | dot
    · exact absurd written (by simp [Written])
    · exact absurd dot (by decide)
  | v6 ip =>
    have hostname : url.hostname = '[' :: ip.serialize ++ [']'] := by simp only [Url.hostname,literal]
    have lower : platform.toLowerCase ('[' :: ip.serialize ++ [']']) = '[' :: ip.serialize ++ [']'] := by
      refine lower_fixed (fun c member => ?_)
      simp only [cons_append,mem_cons,mem_append,not_mem_nil,or_false] at member
      rcases member with rfl | inside | rfl
      · decide
      · exact written_fixed (serialize_written inside)
      · decide
    have oneLine : ip.serialize.all (fun c => !lineTerminator c) = true := by
      rw [all_eq_true]
      intro c member
      rw [(written_ascii (serialize_written member)).2.2.2,Bool.not_false]
    rw [hostname,normalizeHost,lower,if_neg (by rw [getLast?_concat]; decide)]
    simp [ipLiteralOf,oneLine,Literal.serialize]

theorem isIP_literal : platform.isIP address.serialize ≠ 0 := by
  cases address with
  | v4 => simp [Literal.serialize,platform.isIP_v4]
  | v6 => simp [Literal.serialize,platform.isIP_v6]

theorem accepted_parsed (accepted : validateOutboundUrl platform rawUrl policy = .ok url) : platform.parseUrl rawUrl = some url := by
  simp only [validateOutboundUrl,bind_ok,someOr_ok,require_ok,Except.ok.injEq] at accepted
  obtain ⟨_,parsed,_,_,_,_,_,_,_,_,_,_,rfl⟩ := accepted
  exact parsed

theorem accepted_public (unset : policy.allowPrivateIps ≠ some true) (accepted : validateOutboundUrl platform rawUrl policy = .ok url)
    (literal : url.host = .literal address) : isPrivateIp platform address.serialize = false := by
  simp only [validateOutboundUrl,bind_ok,someOr_ok,require_ok,Except.ok.injEq] at accepted
  obtain ⟨_,_,_,_,_,_,_,_,_,_,_,guarded,rfl⟩ := accepted
  rw [literal_host literal] at guarded
  rcases guarded with none | allowed | safe
  · exact absurd none (isIP_literal)
  · exact absurd allowed unset
  · exact safe

theorem missed_exact (platform : Platform) : Missed address ↔ Blocked address ∧ isPrivateIp platform address.serialize = false := by
  cases address with
  | v4 => simp [Missed,Blocked,Literal.serialize,← private_v4 platform]
  | v6 =>
    constructor
    · intro missed
      refine ⟨?_,missed_passes missed⟩
      rcases missed with mapped | ⟨linkLocal,_⟩
      · exact .inr (.inr (.inr (.inr (.inr mapped))))
      · exact .inr (.inr (.inr (.inl linkLocal)))
    · rintro ⟨blocked,passed⟩
      by_contra shown
      rw [Literal.serialize,caught_v6 blocked shown] at passed
      cases passed

-- An accepted literal is outside the blocked ranges exactly if the guard's texts show it.
theorem accepted_safe_exact (unset : policy.allowPrivateIps ≠ some true) (accepted : validateOutboundUrl platform rawUrl policy = .ok url)
    (literal : url.host = .literal address) : ¬ Blocked address ↔ ¬ Missed address := by
  rw [missed_exact platform]
  simp [accepted_public unset accepted literal]

end

namespace Sample
def isIP (text : Text) : Nat := if dotted text then 4 else if ':' ∈ text then 6 else 0

theorem isIP_v4 (v4 : Ipv4) : isIP v4.serialize = 4 := by
  refine if_pos ?_
  rw [dotted,serialize_split]
  simp [octets,(octet_read _).2.2.1]

theorem isIP_v6 (ip : Ipv6) : isIP ip.serialize = 6 := by
  have dotless : ¬ dotted ip.serialize = true :=
    fun matched => (written_ascii (serialize_written (dotted_dot matched))).2.2.1 rfl
  rw [isIP,if_neg dotless,if_pos ip.serialize_colon]

theorem small_groups : ∀ group ∈ [0,0,0,0,0,0xffff,0x7f00,1], group < 2^16 := by decide
theorem small_link : ∀ group ∈ [0xfebf,0,0,0,0,0,0,1], group < 2^16 := by decide

def mappedLoopback : Ipv6 := ⟨[0,0,0,0,0,0xffff,0x7f00,1],rfl,small_groups⟩
def linkLocal : Ipv6 := ⟨[0xfebf,0,0,0,0,0,0,1],rfl,small_link⟩
def publicIp : Ipv4 := ⟨8,8,8,8⟩

def hosts : List (Text × Literal) :=
  [("http://8.8.8.8/".toList,.v4 publicIp),("http://[::ffff:127.0.0.1]/".toList,.v6 mappedLoopback),("http://[FEBF::1]/".toList,.v6 linkLocal)]

def parseUrl (rawUrl : Text) : Option Url := (hosts.lookup rawUrl).map (fun address => ⟨"http:".toList,.literal address,none⟩)

def platform : Platform := ⟨parseUrl,isIP,map Char.toLower,fun _ => [],isIP_v4,isIP_v6,fun _ _ => rfl⟩

def policy : SsrfPolicy := ⟨none,none,none,none⟩

def accepts (rawUrl : Text) (address : Literal) : Prop :=
  ∃ url, validateOutboundUrl platform rawUrl policy = .ok url ∧ url.host = .literal address

theorem accepted (rawUrl : Text) (mem : hosts.lookup rawUrl = some address)
    (passes : (validateOutboundUrl platform rawUrl policy).toBool = true) : accepts rawUrl address := by
  obtain ⟨url,accepted⟩ := ok_of_toBool passes
  have parsed : parseUrl rawUrl = some url := accepted_parsed accepted
  rw [parseUrl,mem] at parsed
  exact ⟨url,accepted,congrArg Url.host (Option.some.inj parsed).symm⟩
end Sample

open Sample

theorem public_literal_safe : accepts "http://8.8.8.8/".toList (.v4 publicIp) ∧ ¬ Blocked (.v4 publicIp) := by
  obtain ⟨url,accepted,literal⟩ := accepted "http://8.8.8.8/".toList rfl (by decide +kernel)
  exact ⟨⟨url,accepted,literal⟩,(accepted_safe_exact (by decide) accepted literal).mpr (by simp [Missed])⟩

-- The loopback address is refused in one spelling only; a link-local one is accepted.
theorem blocked_literals_accepted :
    accepts "http://[::ffff:127.0.0.1]/".toList (.v6 mappedLoopback) ∧ Blocked (.v6 mappedLoopback) ∧
      mappedLoopback.serialize = "::ffff:7f00:1".toList ∧ isPrivateIp platform "::ffff:127.0.0.1".toList = true ∧
      isPrivateIp platform "::ffff:7f00:1".toList = false ∧
      accepts "http://[FEBF::1]/".toList (.v6 linkLocal) ∧ Blocked (.v6 linkLocal) := by
  refine ⟨accepted _ rfl (by decide +kernel),?_,by decide +kernel,by decide +kernel,by decide +kernel,accepted _ rfl (by decide +kernel),?_⟩
  · exact .inr (.inr (.inr (.inr (.inr ⟨by decide,⟨(⟨127,0,0,0⟩,8),by decide,by decide⟩⟩))))
  · exact .inr (.inr (.inr (.inl (show InPrefix 128 _ 10 _ by decide))))

end StellarPriceOracle.OutboundUrls
