import Vacps.Contracts.Web
import Vacps.ControlPlane.ScheduleService
import Vacps.Library.Throwing

/- security/request-signatures.ts of the control worker: the verifier of agent requests and the signer
   of requests to the agents. -/
set_option autoImplicit false

namespace Vacps.Signatures

open Library.Base64 (Bytes encode octets value standard)
open ControlPlane (AppError)
open Library (returned_bind)

def MAX_CLOCK_SKEW_SECONDS : Nat := 5 * 60

-- A key that WebCrypto does not take or a URL that does not parse throws the platform's own error.
inductive SignatureError where
  | app (error : AppError)
  | platform
deriving DecidableEq, Repr

abbrev Checked (α : Type) : Type := Except SignatureError α

def refuse {α : Type} (code message : String) (status : Nat) : Checked α := .error (.app ⟨code, message, status⟩)

def platformCall {α : Type} (result : Option α) : Checked α :=
  match result with
  | none => .error .platform
  | some value => .ok value

structure Request where
  method : String
  url : String
  headers : Headers
  body : String

structure SignedRequestIdentity where
  backendId : String
  nonce : String
deriving DecidableEq, Repr

def base64UrlEncode (bytes : Bytes) : String :=
  let btoa := encode bytes
  String.ofList (((btoa.map fun char => if char = '+' then '-' else char).map fun char =>
    if char = '/' then '_' else char).filter fun char => char ≠ '=')

-- With the alphabet checked and the padding right, atob fails only on a single left-over letter.
def base64UrlDecode (text : String) : Checked Bytes :=
  let chars := text.toList
  if !(chars.all fun char => char.isAlphanum || char == '_' || char == '-') || chars.isEmpty || chars.length % 4 = 1 then
    refuse "invalid_signature_encoding" "Signature encoding is invalid." 401
  else .ok (octets (chars.filterMap fun char => value (standard char)))

def sha256Base64Url (web : Web) (text : String) : String := base64UrlEncode (web.sha256 (utf8 text))

-- pathname + search; fragments excluded.
def requestTargetOf (web : Web) (url : String) : Checked String := do
  let parsed ← platformCall (web.url url)
  pure (parsed.pathname ++ parsed.search)

def canonicalRequest (web : Web) (issuer method url backendId timestamp nonce body : String) : Checked String := do
  let target ← requestTargetOf web url
  pure ("\n".intercalate ["vacps-request-v2", issuer, method.toUpper, target, backendId, timestamp, nonce,
    sha256Base64Url web body])

def requiredHeader (request : Request) (name : String) : Checked String :=
  match (request.headers.get name).map trim with
  | none => refuse "missing_agent_signature" s!"Missing {name} header." 401
  | some value =>
      if value = "" then refuse "missing_agent_signature" s!"Missing {name} header." 401 else .ok value

-- Whether a timestamp is within the skew of a clock reading in milliseconds.
def timely (timestamp : String) (now : Int) : Bool :=
  match safeInteger timestamp with
  | none => false
  | some parsed => |now / 1000 - parsed| ≤ MAX_CLOCK_SKEW_SECONDS

def requiredTimestamp (now : Int) (request : Request) (name : String) : Checked String := do
  let value ← requiredHeader request name
  if timely value now then pure value
  else refuse "expired_agent_signature" "Agent signature timestamp is invalid or expired." 401

def requiredNonce (request : Request) (name : String) : Checked String := do
  let value ← requiredHeader request name
  if isBase64Url 16 128 value then pure value
  else refuse "invalid_agent_nonce" "Agent signature nonce is invalid." 401

def requiredBase64Url (request : Request) (name : String) (length : Nat) : Checked String := do
  let value ← requiredHeader request name
  if isBase64Url length length value then pure value
  else refuse "invalid_agent_signature" "Agent signature is invalid." 401

-- What a request claims about itself in its headers.
structure SignedRequest where
  backendId : String
  timestamp : String
  nonce : String
  signature : String
deriving DecidableEq, Repr

def signedHeaders (now : Int) (request : Request) : Checked SignedRequest := do
  let backendId ← requiredHeader request "x-vacps-id"
  let timestamp ← requiredTimestamp now request "x-vacps-timestamp"
  let nonce ← requiredNonce request "x-vacps-nonce"
  let signature ← requiredBase64Url request "x-vacps-signature" 86
  pure ⟨backendId, timestamp, nonce, signature⟩

def verifyAgentRequestSignature (web : Web) (now : Int) (request : Request) (publicKey : String)
    (body : Option String) : Checked SignedRequestIdentity := do
  let signed ← signedHeaders now request
  let signedBody := body.getD request.body
  let key ← base64UrlDecode publicKey
  let signature ← base64UrlDecode signed.signature
  let canonical ← canonicalRequest web "agent" request.method request.url signed.backendId signed.timestamp
    signed.nonce signedBody
  let verified ← platformCall (web.ed25519Verify key (utf8 canonical) signature)
  if verified then pure ⟨signed.backendId, signed.nonce⟩
  else refuse "invalid_agent_signature" "Agent signature is invalid." 401

def createControlPlaneSignatureHeaders (web : Web) (now : Int) (random : Bytes) (privateKey : Option String)
    (method url body backendId : String) : Checked Headers :=
  match privateKey with
  | none => refuse "control_plane_identity_unconfigured" "Control-plane signing key is not configured." 503
  | some privateKey =>
      if privateKey = "" then
        refuse "control_plane_identity_unconfigured" "Control-plane signing key is not configured." 503
      else if trim backendId = "" then
        refuse "control_plane_backend_id_required" "Control-plane signatures require an explicit target backend id." 500
      else do
        let timestamp := toString (now / 1000)
        let nonce := base64UrlEncode random
        let key ← base64UrlDecode privateKey
        let canonical ← canonicalRequest web "control" method url backendId timestamp nonce body
        let signature ← platformCall (web.ed25519Sign key (utf8 canonical))
        pure [("x-vps-control-backend-id", backendId), ("x-vps-control-timestamp", timestamp),
          ("x-vps-control-nonce", nonce), ("x-vps-control-signature", base64UrlEncode signature)]

theorem required_timestamp_timely (now : Int) (request : Request) (name timestamp : String)
    (read : requiredTimestamp now request name = .ok timestamp) : timely timestamp now = true := by
  obtain ⟨value, -, checked⟩ := returned_bind _ _ _ read
  by_cases near : timely value now = true
  · rw [if_pos near] at checked
    exact (Except.ok.inj checked) ▸ near
  · rw [if_neg near] at checked
    cases checked

theorem signed_headers_timely (now : Int) (request : Request) (signed : SignedRequest)
    (read : signedHeaders now request = .ok signed) : timely signed.timestamp now = true := by
  obtain ⟨backendId, -, read⟩ := returned_bind _ _ _ read
  obtain ⟨timestamp, header, read⟩ := returned_bind _ _ _ read
  obtain ⟨nonce, -, read⟩ := returned_bind _ _ _ read
  obtain ⟨signature, -, read⟩ := returned_bind _ _ _ read
  rw [← Except.ok.inj read]
  exact required_timestamp_timely now request "x-vacps-timestamp" timestamp header

-- A request that verifies is the one its headers name.
theorem verify_reads (web : Web) (now : Int) (request : Request) (publicKey : String) (body : Option String)
    (identity : SignedRequestIdentity)
    (verified : verifyAgentRequestSignature web now request publicKey body = .ok identity) :
    ∃ signed, signedHeaders now request = .ok signed ∧ identity = ⟨signed.backendId, signed.nonce⟩ := by
  obtain ⟨signed, read, rest⟩ := returned_bind _ _ _ verified
  obtain ⟨key, -, rest⟩ := returned_bind _ _ _ rest
  obtain ⟨signature, -, rest⟩ := returned_bind _ _ _ rest
  obtain ⟨canonical, -, rest⟩ := returned_bind _ _ _ rest
  obtain ⟨genuine, -, rest⟩ := returned_bind _ _ _ rest
  cases genuine with
  | false => cases rest
  | true => exact ⟨signed, read, (Except.ok.inj rest).symm⟩

end Vacps.Signatures
