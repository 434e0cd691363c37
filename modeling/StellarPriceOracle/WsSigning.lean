import StellarPriceOracle.Library.InsertionMap
import StellarPriceOracle.Library.JsText
import StellarPriceOracle.Library.Runs

namespace StellarPriceOracle.WsSigning
open Guarded
open CharText (parseInt hexDigit)
open Runs (Run Transition replay)

-- api/src/governance/ws-signing.ts. Times are in milliseconds.
def signatureTtlMs : Nat := 30000

inductive KeyAlgorithm where
  | hmacSha256
  | hmacSha512
  deriving DecidableEq

-- The text of the algorithm, which is what `createHmac` is asked for.
def KeyAlgorithm.text : KeyAlgorithm → String
  | .hmacSha256 => "hmac-sha256"
  | .hmacSha512 => "hmac-sha512"

inductive Thrown where
  | invalidUrl
  | invalidDigest (algorithm : String)
  deriving DecidableEq

-- `searchParams`, none where the constructor throws, and the HMAC in hexadecimal over the digests of `getHashes`.
-- Their names are those of hash functions, `sha256` or `RSA-SHA512`: neither of the two texts is one.
structure Host where
  searchParams : String → Option (List (String × String))
  hashes : List String
  hmac : String → String → String → String
  unlisted : ∀ algorithm : KeyAlgorithm, algorithm.text ∉ hashes

def createHmac (host : Host) (algorithm secret text : String) : Except Thrown String := do
  require (algorithm ∈ host.hashes) (.invalidDigest algorithm)
  .ok (host.hmac algorithm secret text)

def queryParam (params : List (String × String)) (name fallback : String) : String :=
  match params.find? (fun entry => entry.1 = name) with
  | none => fallback
  | some (_,value) => if value = "" then fallback else value

structure Handshake where
  (ts nonce sig : String)
  deriving DecidableEq

def readHandshake (host : Host) (url : Option String) : Option Handshake :=
  (host.searchParams (url.getD "")).map (fun params =>
    ⟨queryParam params "ts" "0",queryParam params "nonce" "",queryParam params "sig" ""⟩)

def Handshake.timestamp (h : Handshake) : Option Int := (parseInt h.ts.toList).filter (fun n => decide (n ≠ 0))

-- `Buffer.from(text, 'hex')` ends before the first pair that is not hexadecimal.
def hexBytes : List Char → List Nat
  | a :: b :: rest =>
    match hexDigit a,hexDigit b with
    | some high,some low => (16 * high + low) :: hexBytes rest
    | _,_ => []
  | _ => []

abbrev Nonces := InsertionMap String Int

-- An entry is older than the cutoff when its time plus the lifetime has passed.
def pruneNonces (used : Nonces) (now : Int) : Nonces :=
  used.filter (fun nonce => (used.get nonce).any (fun ts => !decide (ts < now - signatureTtlMs)))

structure Verdict where
  valid : Bool
  error : Option String
  deriving DecidableEq

-- The answer or the exception, with the nonces as the call leaves them.
abbrev Outcome := Except Thrown Verdict × Nonces

def refused (error : String) : Except Thrown Verdict := .ok ⟨false,some error⟩

section
variable (host : Host) (secret : String) (algorithm : KeyAlgorithm)

def signPayload (timestamp : Int) (nonce body : String) : Except Thrown String :=
  createHmac host algorithm.text secret (toString timestamp ++ "." ++ nonce ++ "." ++ body)

-- `now` is the caller's reading and `again` the one of `pruneNonces`.
def checkSigned (used : Nonces) (now again timestamp : Int) (h : Handshake) : Outcome :=
  if (now - timestamp).natAbs > signatureTtlMs then (refused "Timestamp out of acceptable range (±30s)",used)
  else
    let used := pruneNonces used again
    if (used.get h.nonce).isSome then (refused "Nonce already used (replay detected)",used)
    else match signPayload host secret algorithm timestamp h.nonce "" with
      | .error thrown => (.error thrown,used)
      | .ok expected =>
        if hexBytes h.sig.toList = hexBytes expected.toList then (.ok ⟨true,none⟩,used.set h.nonce now)
        else (refused "Invalid signature",used)

def checkHandshake (used : Nonces) (now again : Int) (h : Handshake) : Outcome :=
  match h.timestamp with
  | none => (refused "Missing ts, nonce, or sig query parameters",used)
  | some timestamp =>
    if h.nonce = "" ∨ h.sig = "" then (refused "Missing ts, nonce, or sig query parameters",used)
    else checkSigned host secret algorithm used now again timestamp h

def verifyWsSignature (used : Nonces) (now again : Int) (url : Option String) : Outcome :=
  if secret = "" then (.ok ⟨true,none⟩,used)
  else match readHandshake host url with
    | none => (.error .invalidUrl,used)
    | some h => checkHandshake host secret algorithm used now again h

end

structure Call where
  (now again : Int)
  url : Option String
  algorithm : KeyAlgorithm

-- The nonces of one process and the last reading of its clock.
structure Server where
  clock : Int
  used : Nonces

def Server.start (clock : Int) : Server := ⟨clock,.empty⟩

inductive Invalid where
  | clockWentBack
  deriving DecidableEq

section
variable (host : Host) (secret : String)

def answer (s : Server) (call : Call) : Outcome :=
  verifyWsSignature host secret call.algorithm s.used call.now call.again call.url

def step (s : Server) (call : Call) : Except Invalid Server := do
  require (s.clock ≤ call.now ∧ call.now ≤ call.again) .clockWentBack
  .ok ⟨call.again,(answer host secret s call).2⟩

def validated : Outcome → Bool
  | (.ok verdict,_) => verdict.valid
  | _ => false

-- The handshake that a call reports valid.
def admitted (t : Transition Server Call) : Option Handshake :=
  if validated (answer host secret t.before t.input) then readHandshake host t.input.url else none

end

section
variable {host : Host}

theorem signPayload_throws : signPayload host secret algorithm timestamp nonce body = .error (.invalidDigest algorithm.text) := by
  rw [signPayload,createHmac,require,if_neg (host.unlisted algorithm)]
  rfl

theorem checkSigned_invalid : validated (checkSigned host secret algorithm used now again timestamp h) = false := by
  simp only [checkSigned,signPayload_throws]
  split
  · rfl
  · split <;> rfl

theorem checkHandshake_invalid : validated (checkHandshake host secret algorithm used now again h) = false := by
  unfold checkHandshake
  split
  · rfl
  · split
    · rfl
    · exact checkSigned_invalid

-- With a secret every call is refused or throws.
theorem answer_invalid (configured : secret ≠ "") : validated (answer host secret s call) = false := by
  rw [answer,verifyWsSignature,if_neg configured]
  split
  · rfl
  · exact checkHandshake_invalid

-- No handshake is reported valid twice: none is, as long as the digest is asked for by a name that is none.
theorem handshakes_admitted_once (configured : secret ≠ "") (path : Run (step host secret) (Server.start clock) ts s) :
    (ts.filterMap (admitted host secret)).Nodup := by
  induction path with
  | nil => exact List.nodup_nil
  | @snoc ts s call next prior taken ih =>
    have none : admitted host secret ⟨s,call,next⟩ = none := by
      simp [admitted,answer_invalid configured]
    simpa [List.filterMap_append,none] using ih

end

namespace Sample

def sig : String := "f5df4a1e237c61d2296463cddee67bd9640627dda46d8da0a8fd1ee4d9ccab3b"

def url : String := "/?ts=1700000030000&nonce=n1&sig=" ++ sig

def host : Host where
  searchParams := fun _ => some [("ts","1700000030000"),("nonce","n1"),("sig",sig)]
  hashes := ["sha256","sha512"]
  hmac := fun _ _ _ => sig
  unlisted := by
    intro algorithm
    cases algorithm <;> decide

def call (now : Int) : Call := ⟨now,now,some url,.hmacSha256⟩

end Sample

open Sample

theorem repeated_handshake_refused : ∃ ts s, Run (step host "secret") (Server.start 0) ts s ∧
    ts.map Transition.input = [call 1700000000000,call 1700000030001] ∧
    ts.map (fun t => (answer host "secret" t.before t.input).1) =
      [.error (.invalidDigest "hmac-sha256"),.error (.invalidDigest "hmac-sha256")] ∧
    (ts.filterMap (admitted host "secret")).Nodup := by
  have observed : (replay (step host "secret") (Server.start 0) [call 1700000000000,call 1700000030001]).map
      (fun r => r.1.map (fun t => (answer host "secret" t.before t.input).1)) =
        .ok [.error (.invalidDigest "hmac-sha256"),.error (.invalidDigest "hmac-sha256")] := by decide +kernel
  obtain ⟨ts,s,path,inputs,answers⟩ := Runs.replay_steps observed
  exact ⟨ts,s,path,inputs,answers,handshakes_admitted_once (by decide) path⟩

end StellarPriceOracle.WsSigning
