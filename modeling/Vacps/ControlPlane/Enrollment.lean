import Vacps.ControlPlane.AgentNonces
import Vacps.Library.Async

/- registry/registration-repository.ts, registry/registration-token-repository.ts, registry/repository.ts and the routes
   of index.ts over them: how agents come to be known to the control plane. A call is one request; each statement of
   D1 is a step of its own, and any of them may fail before or after it took effect. -/
set_option autoImplicit false

namespace Vacps.Enrollment

open Library
open Signatures (Request SignedRequestIdentity SignatureError AgentRequestNonce verifyAgentRequestSignature sha256Base64Url)

structure RegistrationToken where
  token_hash : String
  expires_at : String
  consumed_at : Option String
  created_at : String
deriving DecidableEq, Repr

inductive RegistrationStatus where
  | pending
  | approved
  | rejected
deriving DecidableEq, Repr

-- tags_json and ips_json are kept as the lists they spell.
structure RegistrationRow where
  id : String
  backend_id : String
  name : String
  base_url : String
  tags : List String
  agent_version : String
  status : RegistrationStatus
  rejection_reason : Option String
  requested_at : String
  updated_at : String
  decision_at : Option String
  ip : Option String
  ips : List String
  location : Option String
  public_key : Option String
deriving DecidableEq, Repr

structure BackendRow where
  id : String
  name : String
  base_url : String
  tags : List String
  enabled : Bool
  last_checked_at : Option String
  created_at : String
  updated_at : String
deriving DecidableEq, Repr

-- registerBackendSchema; what the schema says of the public key.
structure RegisterBackendInput where
  backendId : String
  name : String
  baseUrl : String
  tags : List String
  publicIps : List String
  agentVersion : String
  publicKey : String
  key_form : isBase64Url 43 43 publicKey = true

structure RegistrationNetworkDetails where
  ip : Option String
  ips : Option (List String)
  location : Option String
deriving DecidableEq, Repr

inductive EnrollOp where
  | readClock
  | randomUUID
  | randomToken
  | insertToken (row : RegistrationToken)
  | consumeToken (token_hash now : String)
  | deleteExpiredTokens (now : String)
  | selectPublicKey (backend_id : String)
  | selectByBackend (backend_id : String)
  | selectRegistration (id : String)
  | insertRegistration (row : RegistrationRow)
  -- The two UPDATEs of request(): of a row that is approved, and of any other.
  | refresh (again : Bool) (id : String) (input : RegisterBackendInput) (network : RegistrationNetworkDetails) (ips : List String)
      (now : String)
  | approve (id now : String)
  | reject (id : String) (reason : Option String) (now : String)
  | deleteRegistration (backend_id : String)
  | insertNonce (row : AgentRequestNonce)
  | deleteNonces (backend_id : String)
  | deleteExpiredNonces (now : String)
  | selectBackend (id : String)
  | insertBackend (row : BackendRow)
  | updateBackend (id name base_url : String) (tags : List String) (now : String)
  | recordStatus (id now : String)
  | deleteBackend (id : String)
  -- BackendClient#status, by the backend id the agent answers with, and ManagedTunnelService#remove.
  | status (registration : RegistrationRow)
  | removeTunnel (backendId : String)

abbrev EnrollOp.Result : EnrollOp → Type
  | .readClock => Int
  | .randomUUID => String
  | .randomToken => String
  | .consumeToken _ _ => Nat
  | .selectPublicKey _ => Option (Option String)
  | .selectByBackend _ => Option RegistrationRow
  | .selectRegistration _ => Option RegistrationRow
  | .selectBackend _ => Option BackendRow
  | .status _ => String
  | _ => Unit

inductive Fault where
  | none
  | refused
  | lost
deriving DecidableEq, Repr

-- `issued` and `inserted` remember what the two INSERTs ever put in.
structure EnrollmentState where
  clock : Nat → Int
  uuids : Nat → String
  tokens : Nat → String
  answers : Nat → Except SignatureError String
  faults : Nat → Fault
  performed : Nat
  registration_tokens : Table String RegistrationToken RegistrationToken.token_hash
  backend_registrations : Table String RegistrationRow RegistrationRow.backend_id
  agent_request_nonces : Table (String × String) AgentRequestNonce AgentRequestNonce.key
  backends : Table String BackendRow BackendRow.id
  issued : List String
  inserted : List RegistrationRow

def isRemote : EnrollOp → Bool
  | .readClock => false
  | .randomUUID => false
  | .randomToken => false
  | _ => true

def refreshed (again : Bool) (input : RegisterBackendInput) (network : RegistrationNetworkDetails) (ips : List String)
    (now : String) (row : RegistrationRow) : RegistrationRow :=
  let row :=
    { row with
      name := input.name
      base_url := input.baseUrl
      tags := input.tags
      agent_version := input.agentVersion
      public_key := some input.publicKey
      updated_at := now
      ip := network.ip
      ips := ips
      location := network.location }
  if again then { row with status := .pending, rejection_reason := none, requested_at := now, decision_at := none } else row

theorem refreshed_keeps (again : Bool) (input : RegisterBackendInput) (network : RegistrationNetworkDetails) (ips : List String)
    (now : String) (row : RegistrationRow) :
    (refreshed again input network ips now row).backend_id = row.backend_id ∧
      (refreshed again input network ips now row).id = row.id ∧
      (refreshed again input network ips now row).public_key = some input.publicKey := by
  cases again <;> exact ⟨rfl, rfl, rfl⟩

def taken (rows : Table String RegistrationRow RegistrationRow.backend_id) (row : RegistrationRow) : Bool :=
  rows.rows.any fun old => old.id = row.id || old.backend_id = row.backend_id

theorem untaken_fresh (rows : Table String RegistrationRow RegistrationRow.backend_id) (row : RegistrationRow)
    (free : taken rows row = false) : rows.find? row.backend_id = none := by
  refine (rows.find_none_iff row.backend_id).mpr ?_
  intro member
  obtain ⟨old, inside, same⟩ := List.mem_map.mp member
  have other := List.any_eq_false.mp free old inside
  simp [same] at other

def unique : SignatureError := .platform

namespace EnrollmentState

variable (state : EnrollmentState)

def updated (id : String) (change : RegistrationRow → RegistrationRow) (keeps : ∀ row, (change row).backend_id = row.backend_id) :
    EnrollmentState :=
  { state with backend_registrations := state.backend_registrations.update (fun row => decide (row.id = id)) change keeps }

end EnrollmentState

-- What an operation does when nothing fails.
def EnrollOp.perform : (op : EnrollOp) → EnrollmentState → Except SignatureError op.Result × EnrollmentState
  | .readClock, state => (.ok (state.clock state.performed), state)
  | .randomUUID, state => (.ok (state.uuids state.performed), state)
  | .randomToken, state => (.ok (state.tokens state.performed), state)
  | .insertToken row, state =>
      if free : state.registration_tokens.find? row.token_hash = none then
        (.ok (), { state with
          registration_tokens := state.registration_tokens.insert row free
          issued := row.token_hash :: state.issued })
      else (.error unique, state)
  | .consumeToken token_hash now, state =>
      let claimed := fun row : RegistrationToken => decide (row.token_hash = token_hash ∧ row.consumed_at = none ∧ now < row.expires_at)
      (.ok (state.registration_tokens.rows.countP claimed),
        { state with
          registration_tokens := state.registration_tokens.update claimed (fun row => { row with consumed_at := some now }) fun _ => rfl })
  | .deleteExpiredTokens now, state =>
      (.ok (), { state with registration_tokens := state.registration_tokens.delete fun row => decide (row.expires_at ≤ now) })
  | .selectPublicKey backend_id, state => (.ok ((state.backend_registrations.find? backend_id).map fun row => row.public_key), state)
  | .selectByBackend backend_id, state => (.ok (state.backend_registrations.find? backend_id), state)
  | .selectRegistration id, state => (.ok (state.backend_registrations.rows.find? fun row => decide (row.id = id)), state)
  | .insertRegistration row, state =>
      if free : taken state.backend_registrations row = false then
        (.ok (), { state with
          backend_registrations := state.backend_registrations.insert row (untaken_fresh _ row free)
          inserted := row :: state.inserted })
      else (.error unique, state)
  | .refresh again id input network ips now, state =>
      (.ok (), state.updated id (refreshed again input network ips now) fun row => (refreshed_keeps again input network ips now row).1)
  | .approve id now, state =>
      (.ok (), state.updated id
        (fun row => { row with status := .approved, rejection_reason := none, decision_at := some now, updated_at := now }) fun _ => rfl)
  | .reject id reason now, state =>
      (.ok (), state.updated id
        (fun row => { row with status := .rejected, rejection_reason := reason, decision_at := some now, updated_at := now }) fun _ => rfl)
  | .deleteRegistration backend_id, state =>
      (.ok (), { state with
        backend_registrations := state.backend_registrations.delete fun row => decide (row.backend_id = backend_id) })
  | .insertNonce row, state =>
      if free : state.agent_request_nonces.find? row.key = none then
        (.ok (), { state with agent_request_nonces := state.agent_request_nonces.insert row free })
      else (.error unique, state)
  | .deleteNonces backend_id, state =>
      (.ok (), { state with agent_request_nonces := state.agent_request_nonces.delete fun row => decide (row.backend_id = backend_id) })
  | .deleteExpiredNonces now, state =>
      (.ok (), { state with agent_request_nonces := state.agent_request_nonces.delete fun row => decide (row.expires_at ≤ now) })
  | .selectBackend id, state => (.ok (state.backends.find? id), state)
  | .insertBackend row, state =>
      if free : state.backends.find? row.id = none then (.ok (), { state with backends := state.backends.insert row free })
      else (.error unique, state)
  | .updateBackend id name base_url tags now, state =>
      (.ok (), { state with
        backends := state.backends.update (fun row => decide (row.id = id))
          (fun row => { row with name := name, base_url := base_url, tags := tags, updated_at := now }) fun _ => rfl })
  | .recordStatus id now, state =>
      (.ok (), { state with
        backends := state.backends.update (fun row => decide (row.id = id))
          (fun row => { row with last_checked_at := some now, updated_at := now }) fun _ => rfl })
  | .deleteBackend id, state => (.ok (), { state with backends := state.backends.delete fun row => decide (row.id = id) })
  | .status _, state => (state.answers state.performed, state)
  | .removeTunnel _, state => ((state.answers state.performed).map fun _ => (), state)

def EnrollOp.fault (op : EnrollOp) (state : EnrollmentState) : Fault := if isRemote op then state.faults state.performed else .none

-- An operation that is refused leaves everything; of one that is lost only the answer is.
def EnrollOp.exec (op : EnrollOp) (state : EnrollmentState) : Except SignatureError op.Result × EnrollmentState :=
  let next := { state with performed := state.performed + 1 }
  match op.fault state with
  | .none => ((op.perform state).1, { (op.perform state).2 with performed := state.performed + 1 })
  | .refused => (.error .platform, next)
  | .lost => (.error .platform, { (op.perform state).2 with performed := state.performed + 1 })

abbrev Route (α : Type) : Type := Async EnrollOp EnrollOp.Result SignatureError α

def call (op : EnrollOp) : Route op.Result := Async.perform op

def refuse {α : Type} (code message : String) (status : Nat) : Route α := .fail (.app ⟨code, message, status⟩)

def lift {α : Type} (result : Except SignatureError α) : Route α :=
  match result with
  | .ok value => .ret value
  | .error error => .fail error

-- new Date().toISOString()
def isoNow : Route String := do
  let now ← call .readClock
  lift (Signatures.platformCall ((timeClip now).map toISOString))

def REGISTRATION_TOKEN_TTL_MS : Int := 10 * 60 * 1000

section routes

variable (web : Web)

def issue : Route String := do
  let now ← call .readClock
  let token ← call .randomToken
  let expiresAt ← lift (Signatures.platformCall ((timeClip (now + REGISTRATION_TOKEN_TTL_MS)).map toISOString))
  let createdAt ← lift (Signatures.platformCall ((timeClip now).map toISOString))
  call (.insertToken ⟨sha256Base64Url web token, expiresAt, none, createdAt⟩)
  pure token

def invalidToken {α : Type} : Route α := refuse "invalid_registration_token" "Registration token is invalid or expired." 401

def consume (token : String) : Route Unit := do
  if isBase64Url 43 43 token = true then
    let now ← isoNow
    let changes ← call (.consumeToken (sha256Base64Url web token) now)
    if changes ≠ 1 then invalidToken else pure ()
  else invalidToken

def purgeExpiredTokens : Route Unit := do
  let now ← isoNow
  call (.deleteExpiredTokens now)

def purgeExpiredNonces : Route Unit := do
  let now ← isoNow
  call (.deleteExpiredNonces now)

def getPublicKey (backendId : String) : Route String := do
  let row ← call (.selectPublicKey backendId)
  match truthy row.join with
  | some key => pure key
  | none =>
      refuse "agent_identity_not_enrolled" ("Agent identity for backend '" ++ backendId ++ "' is not enrolled.") 401

def get (id : String) : Route RegistrationRow := do
  let row ← call (.selectRegistration id)
  match row with
  | some row => pure row
  | none => refuse "registration_not_found" ("Registration '" ++ id ++ "' was not found.") 404

def mergeIps (lists : List (List String)) : List String := lists.flatten.eraseDups.take 33

def request (input : RegisterBackendInput) (network : RegistrationNetworkDetails) : Route RegistrationRow := do
  let now ← isoNow
  let ips := mergeIps [input.publicIps, network.ips.getD [], (truthy network.ip).toList]
  let existing ← call (.selectByBackend input.backendId)
  match existing with
  | none => do
      let id ← call .randomUUID
      call (.insertRegistration ⟨id, input.backendId, input.name, input.baseUrl, input.tags, input.agentVersion, .pending, none,
        now, now, none, network.ip, ips, network.location, some input.publicKey⟩)
      get id
  | some existing =>
      if (truthy existing.public_key).any fun key => key ≠ input.publicKey then
        refuse "backend_identity_mismatch"
          ("Backend '" ++ input.backendId ++ "' is enrolled with a different Agent identity.") 409
      else do
        call (.refresh (existing.status ≠ .approved) existing.id input network ips now)
        get existing.id

def claimNonce (backendId nonce : String) : Route Unit := do
  let now ← call .readClock
  let claimed ← Async.attempt (do
    let expiry ← lift (Signatures.platformCall ((timeClip (now + 5 * 60 * 1000)).map toISOString))
    call (.insertNonce ⟨backendId, nonce, expiry⟩))
  match claimed with
  | .ok _ => pure ()
  | .error _ => refuse "replayed_agent_request" "Agent request has already been used." 401

def getBackend (id : String) : Route BackendRow := do
  let row ← call (.selectBackend id)
  match row with
  | some row => pure row
  | none => refuse "backend_not_found" ("Backend '" ++ id ++ "' was not found.") 404

def updateBackend (id name baseUrl : String) (tags : List String) : Route BackendRow := do
  let _ ← getBackend id
  let now ← isoNow
  call (.updateBackend id name baseUrl tags now)
  getBackend id

def createBackend (registration : RegistrationRow) : Route BackendRow := do
  let now ← isoNow
  let inserted ← Async.attempt (call (.insertBackend ⟨registration.backend_id, registration.name, registration.base_url,
    registration.tags, true, none, now, now⟩))
  match inserted with
  | .ok _ => getBackend registration.backend_id
  | .error _ => refuse "backend_exists" ("Backend '" ++ registration.backend_id ++ "' already exists.") 409

def recordStatus (id : String) : Route Unit := do
  let now ← isoNow
  call (.recordStatus id now)

-- An agent's own request: POST /registrations, with its parsed body.
structure Registering where
  request : Request
  input : RegisterBackendInput
  body : String
  registrationToken : Option String
  network : RegistrationNetworkDetails

def isNotFound : SignatureError → Bool
  | .app error => error.code == "backend_not_found"
  | .platform => false

def identityMismatch {α : Type} : Route α :=
  refuse "backend_identity_mismatch" "Registration backend ID does not match." 409

-- A spent token is let through for an agent that proves the identity it is enrolled with.
def spendToken (input : RegisterBackendInput) (token : String) : Route Unit := do
  let consumed ← Async.attempt (consume web token)
  match consumed with
  | .ok _ => pure ()
  | .error error => do
      let enrolledPublicKey ← Async.attempt (getPublicKey input.backendId)
      if enrolledPublicKey.toOption ≠ some input.publicKey then .fail error else pure ()

def refreshBackend (registration : RegistrationRow) : Route Unit := do
  let updated ← Async.attempt (updateBackend registration.backend_id registration.name registration.base_url registration.tags)
  match updated with
  | .ok _ => pure ()
  | .error error => if isNotFound error then pure () else .fail error

def register (asked : Registering) : Route RegistrationRow := do
  let publicKey ← match asked.registrationToken with
    | some _ => pure asked.input.publicKey
    | none => getPublicKey asked.input.backendId
  let now ← call .readClock
  let identity ← lift (verifyAgentRequestSignature web now asked.request publicKey (some asked.body))
  if identity.backendId ≠ asked.input.backendId then identityMismatch
  else do
    match asked.registrationToken with
    | some token => spendToken web asked.input token
    | none => pure ()
    claimNonce identity.backendId identity.nonce
    let registration ← request asked.input asked.network
    if registration.status = .approved then refreshBackend registration
    pure registration

def approve (id : String) : Route RegistrationRow := do
  let registration ← get id
  if registration.status = .rejected then
    refuse "registration_rejected" "A rejected registration must request approval again." 409
  else do
    let backendId ← call (.status registration)
    if backendId ≠ registration.backend_id then
      refuse "backend_identity_mismatch" "The agent health response does not match the requested Backend ID." 409
    else do
      let known ← Async.attempt (getBackend registration.backend_id)
      let backend ← match known with
        | .ok backend => pure backend
        | .error _ => createBackend registration
      recordStatus backend.id
      let now ← isoNow
      call (.approve id now)
      get id

def reject (id : String) (reason : Option String) : Route RegistrationRow := do
  let now ← isoNow
  call (.reject id reason now)
  get id

def removeNode (backendId : String) : Route Unit := do
  call (.removeTunnel backendId)
  call (.deleteNonces backendId)
  call (.deleteRegistration backendId)
  call (.deleteBackend backendId)

inductive EnrollCall where
  | register (asked : Registering)
  | issue
  | approve (id : String)
  | reject (id : String) (reason : Option String)
  -- DELETE /registrations/:id and DELETE /backends/:id
  | deleteRegistration (id : String)
  | deleteBackend (id : String)
  | purgeExpired

def EnrollCall.body : EnrollCall → Route Unit
  | .register asked => do
      let _ ← Enrollment.register web asked
  | .issue => do
      let _ ← Enrollment.issue web
  | .approve id => do
      let _ ← Enrollment.approve id
  | .reject id reason => do
      let _ ← Enrollment.reject id reason
  | .deleteRegistration id => do
      let registration ← get id
      removeNode registration.backend_id
  | .deleteBackend id => removeNode id
  | .purgeExpired => do
      purgeExpiredTokens
      purgeExpiredNonces

end routes

end Vacps.Enrollment
