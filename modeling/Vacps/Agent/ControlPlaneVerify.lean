import Vacps.Contracts.Web
import Vacps.Agent.Server
import Vacps.Library.Throwing

/- security/control-plane-verify.ts, security/request-target.ts, security/http-auth.ts and
   server/inbound-request.ts of the agent: a request as it arrives, the check of its control-plane
   signature and the hook of server/app.ts that makes it. -/
set_option autoImplicit false

namespace Vacps.Server

open Library (returned_bind)
open Library.Base64 (Bytes encode octets value standard)

def MAX_CLOCK_SKEW_SECONDS : Nat := 5 * 60

-- What the native server hands over; the headers are an object, with one value a name.
structure ServerRequest where
  method : String
  url : String
  headers : Headers
  body : String

structure HostRequest where
  method : String
  path : String
  query : String
  headers : Headers
  body : String

-- The url is cut at its first question mark.
def adaptInboundRequest (request : ServerRequest) : HostRequest where
  method := request.method
  path := String.ofList (request.url.toList.takeWhile fun char => char ≠ '?')
  query := String.ofList ((request.url.toList.dropWhile fun char => char ≠ '?').drop 1)
  headers := request.headers
  body := request.body

def requestTargetFromParts (path query : String) : String :=
  let normalizedPath := if path = "" then "/" else path
  if query = "" then normalizedPath
  else
    let q := if query.toList.head? = some '?' then String.ofList (query.toList.drop 1) else query
    if q = "" then normalizedPath else normalizedPath ++ "?" ++ q

def normalizePath (path : String) : String :=
  let p := path.toList.takeWhile fun char => char ≠ '?'
  let p := if 1 < p.length ∧ p.getLast? = some '/' then p.dropLast else p
  if p = [] then "/" else String.ofList p

-- Of two names that differ in case the later entry stands.
def setHeader (out : Headers) (field : String × String) : Headers :=
  let name := field.1.toLower
  if out.any fun old => old.1 == name then out.map fun old => if old.1 = name then (name, field.2) else old
  else out ++ [(name, field.2)]

def headerMap (headers : Headers) : Headers := headers.foldl setHeader []

def requiredHeader (headers : Headers) (name : String) : Except String String :=
  match (headers.lookup name).filter fun value => value != "" with
  | some direct => .ok (trim direct)
  | none =>
      match headers.find? fun (field, value) => field.toLower == name.toLower && value != "" with
      | some (_, value) => .ok (trim value)
      | none => .error s!"Missing {name} header."

def base64UrlEncode (bytes : Bytes) : String :=
  let base64 := (encode bytes).map fun char => if char = '+' then '-' else if char = '/' then '_' else char
  String.ofList (base64.reverse.dropWhile fun char => char = '=').reverse

def isBlank (char : Char) : Bool := char == ' ' || char == '\n' || char == '\r' || char == '\t'

-- EVP_DecodeBlock reads padding as zeros; the bytes it stands for are cut off at the end.
def base64UrlDecode (text : String) : Option Bytes :=
  let cleaned := (text.toList.filter fun char => !isBlank char).map standard
  if !cleaned.all fun char => (value char).isSome || char == '=' then none
  else
    let padded := cleaned ++ List.replicate ((4 - cleaned.length % 4) % 4) '='
    let bytes := octets (padded.map fun char => (value char).getD 0)
    let pad := (padded.reverse.take 2).takeWhile fun char => char == '='
    some (bytes.take (bytes.length - pad.length))

def timely (timestamp : String) (now : Int) : Bool :=
  match safeInteger timestamp with
  | none => false
  | some parsed => |now / 1000 - parsed| ≤ MAX_CLOCK_SKEW_SECONDS

structure SignedRequest where
  backendId : String
  timestamp : String
  nonce : String
  signature : String
deriving DecidableEq, Repr

def signedHeaders (expectedBackendId : String) (now : Int) (headers : Headers) : Except String SignedRequest := do
  let backendId ← requiredHeader headers "x-vps-control-backend-id"
  if backendId ≠ expectedBackendId then throw "Control-plane signature targets a different backend."
  let timestamp ← requiredHeader headers "x-vps-control-timestamp"
  let nonce ← requiredHeader headers "x-vps-control-nonce"
  let signature ← requiredHeader headers "x-vps-control-signature"
  if !timely timestamp now then throw "Control-plane signature timestamp is invalid or expired."
  if !isBase64Url 16 128 nonce then throw "Control-plane nonce is invalid."
  if !isBase64Url 86 86 signature then throw "Control-plane signature is invalid."
  pure ⟨backendId, timestamp, nonce, signature⟩

def canonicalRequest (web : Web) (request : HostRequest) (signed : SignedRequest) : String :=
  "\n".intercalate ["vacps-request-v2", "control", request.method.toUpper,
    requestTargetFromParts request.path request.query, signed.backendId, signed.timestamp, signed.nonce,
    base64UrlEncode (web.sha256 (utf8 request.body))]

structure VerifiedRequest where
  nonce : String
  backendId : String
deriving DecidableEq, Repr

def nativeCall {α : Type} (result : Option α) : Except String α :=
  match result with
  | none => .error "runtime_error"
  | some value => .ok value

theorem native_returned {α : Type} (result : Option α) (value : α) (returned : nativeCall result = .ok value) :
    result = some value := by
  cases result with
  | none => cases returned
  | some here => exact congrArg some (Except.ok.inj returned)

def verifyControlPlaneRequest (web : Web) (now : Int) (publicKeyB64 expectedBackendId : String) (request : HostRequest) :
    Except String VerifiedRequest := do
  let signed ← signedHeaders expectedBackendId now request.headers
  let canonical := canonicalRequest web request signed
  let pub ← nativeCall (base64UrlDecode publicKeyB64)
  let sig ← nativeCall (base64UrlDecode signed.signature)
  let verified ← nativeCall (web.ed25519Verify pub (utf8 canonical) sig)
  if verified then pure ⟨signed.nonce, signed.backendId⟩ else throw "Control-plane signature is invalid."

def isPublicHttpPath (path : String) : Bool := path == "/health"

structure AuthConfig where
  BACKEND_ID : String
  CONTROL_PLANE_PUBLIC_KEY : Option String
  ALLOW_INSECURE_NO_AUTH : Bool

def allowUnsignedWhenNoKey (config : AuthConfig) : Bool :=
  (truthy config.CONTROL_PLANE_PUBLIC_KEY).isNone && config.ALLOW_INSECURE_NO_AUTH

-- What the preValidation hook has decided when it comes to claimNonce, if it does.
inductive Validation where
  | passed
  | refused (refusal : Refusal)
  | claims (signed : SignedRequest)

-- The request as the hook hands it to the verifier.
def hookRequest (inbound : ServerRequest) : HostRequest :=
  let raw := adaptInboundRequest inbound
  { raw with method := raw.method.toUpper, headers := headerMap raw.headers }

def preValidation (web : Web) (config : AuthConfig) (now : Int) (inbound : ServerRequest) : Validation :=
  let raw := adaptInboundRequest inbound
  if isPublicHttpPath (normalizePath raw.path) then .passed
  else
    match truthy config.CONTROL_PLANE_PUBLIC_KEY with
    | none =>
        if allowUnsignedWhenNoKey config then .passed
        else .refused ⟨401, "unauthorized",
          "CONTROL_PLANE_PUBLIC_KEY is required; unsigned requests are not accepted."⟩
    | some pub =>
        match signedHeaders config.BACKEND_ID now (hookRequest inbound).headers,
            verifyControlPlaneRequest web now pub config.BACKEND_ID (hookRequest inbound) with
        | .ok signed, .ok _ => .claims signed
        | _, .error message => .refused ⟨401, "unauthorized", message⟩
        | .error message, _ => .refused ⟨401, "unauthorized", message⟩

def replayed : Refusal := ⟨401, "replayed_request", "A control-plane request may only be used once."⟩

-- What the four headers of a request say once every check on them has passed.
structure SignedHeadersRead (expectedBackendId : String) (now : Int) (headers : Headers) (signed : SignedRequest) :
    Prop where
  backendId : requiredHeader headers "x-vps-control-backend-id" = .ok signed.backendId
  timestamp : requiredHeader headers "x-vps-control-timestamp" = .ok signed.timestamp
  nonce : requiredHeader headers "x-vps-control-nonce" = .ok signed.nonce
  audience : signed.backendId = expectedBackendId
  timely : timely signed.timestamp now = true

theorem signed_headers_read (expectedBackendId : String) (now : Int) (headers : Headers) (signed : SignedRequest)
    (read : signedHeaders expectedBackendId now headers = .ok signed) :
    SignedHeadersRead expectedBackendId now headers signed := by
  obtain ⟨backendId, backend, read⟩ := returned_bind _ _ _ read
  by_cases other : backendId ≠ expectedBackendId
  · rw [if_pos other] at read
    cases read
  rw [if_neg other] at read
  obtain ⟨timestamp, stamped, read⟩ := returned_bind _ _ _ read
  obtain ⟨nonce, named, read⟩ := returned_bind _ _ _ read
  obtain ⟨signature, -, read⟩ := returned_bind _ _ _ read
  by_cases late : (!timely timestamp now) = true
  · rw [if_pos late] at read
    cases read
  rw [if_neg late] at read
  by_cases malformed : (!isBase64Url 16 128 nonce) = true
  · rw [if_pos malformed] at read
    cases read
  rw [if_neg malformed] at read
  by_cases unsigned : (!isBase64Url 86 86 signature) = true
  · rw [if_pos unsigned] at read
    cases read
  rw [if_neg unsigned] at read
  rw [← Except.ok.inj read]
  exact ⟨backend, stamped, named, not_not.mp other, by simpa using late⟩

-- A claim goes ahead only for a request whose headers passed and whose signature is genuine.
theorem claims_verified (web : Web) (config : AuthConfig) (now : Int) (inbound : ServerRequest) (signed : SignedRequest)
    (claims : preValidation web config now inbound = .claims signed) :
    SignedHeadersRead config.BACKEND_ID now (hookRequest inbound).headers signed ∧
      ∃ publicKey ∈ truthy config.CONTROL_PLANE_PUBLIC_KEY, ∃ pub ∈ base64UrlDecode publicKey,
        ∃ sig ∈ base64UrlDecode signed.signature,
          web.ed25519Verify pub (utf8 (canonicalRequest web (hookRequest inbound) signed)) sig = some true := by
  unfold preValidation at claims
  by_cases isPublic : isPublicHttpPath (normalizePath (adaptInboundRequest inbound).path) = true
  · rw [if_pos isPublic] at claims
    cases claims
  rw [if_neg isPublic] at claims
  cases key : truthy config.CONTROL_PLANE_PUBLIC_KEY with
  | none =>
      rw [key] at claims
      dsimp only at claims
      split at claims <;> cases claims
  | some publicKey =>
      rw [key] at claims
      change (match signedHeaders config.BACKEND_ID now (hookRequest inbound).headers,
        verifyControlPlaneRequest web now publicKey config.BACKEND_ID (hookRequest inbound) with
        | .ok signed, .ok _ => Validation.claims signed
        | _, .error message => .refused ⟨401, "unauthorized", message⟩
        | .error message, _ => .refused ⟨401, "unauthorized", message⟩) = .claims signed at claims
      cases headers : signedHeaders config.BACKEND_ID now (hookRequest inbound).headers with
      | error message =>
          have fails : verifyControlPlaneRequest web now publicKey config.BACKEND_ID (hookRequest inbound) =
              .error message := by
            simp only [verifyControlPlaneRequest, headers]
            rfl
          rw [headers, fails] at claims
          cases claims
      | ok read =>
          cases verified : verifyControlPlaneRequest web now publicKey config.BACKEND_ID (hookRequest inbound) with
          | error message =>
              rw [headers, verified] at claims
              cases claims
          | ok identity =>
              rw [headers, verified] at claims
              cases claims
              obtain ⟨again, same, rest⟩ := returned_bind _ _ _ verified
              rw [headers] at same
              cases same
              obtain ⟨pub, decodedKey, rest⟩ := returned_bind _ _ _ rest
              obtain ⟨sig, decodedSignature, rest⟩ := returned_bind _ _ _ rest
              obtain ⟨genuine, called, rest⟩ := returned_bind _ _ _ rest
              refine ⟨signed_headers_read _ _ _ _ headers, publicKey, rfl, pub, native_returned _ _ decodedKey, sig,
                native_returned _ _ decodedSignature, ?_⟩
              cases genuine with
              | false => cases rest
              | true => exact native_returned _ _ called

theorem claims_timely (web : Web) (config : AuthConfig) (now : Int) (inbound : ServerRequest) (signed : SignedRequest)
    (claims : preValidation web config now inbound = .claims signed) : timely signed.timestamp now = true :=
  (claims_verified web config now inbound signed claims).1.timely

end Vacps.Server
