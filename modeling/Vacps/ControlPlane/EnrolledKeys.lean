import Vacps.ControlPlane.Enrollment

/- Where the keys of the registrations come from, whatever requests interleave: what each request for a registration
   has shown before it writes, and the invariant of the tables that follows. -/
set_option autoImplicit false

namespace Vacps.Enrollment

open Library
open Signatures (SignatureError verifyAgentRequestSignature sha256Base64Url)

-- What lets a request write: the token it spent, or the enrolled key it was signed with.
inductive Authority where
  | token (token_hash : String)
  | key (enrolled : String)
deriving DecidableEq, Repr

structure EnrollPlace where
  call : EnrollCall
  seen : Option String
  proved : Option String
  authority : Option Authority
  existing : Option RegistrationRow

def answered {α : Type} (result : Except SignatureError (Option α)) : Option α :=
  match result with
  | .ok value => value
  | .error _ => none

def changes (result : Except SignatureError Nat) : Nat :=
  match result with
  | .ok count => count
  | .error _ => 0

section places

variable (web : Web)

-- The request carries the backend it names and verifies under the key.
def signedWith (asked : Registering) (now : Int) (key : String) : Bool :=
  match verifyAgentRequestSignature web now asked.request key (some asked.body) with
  | .ok identity => identity.backendId = asked.input.backendId
  | .error _ => false

namespace EnrollPlace

variable (place : EnrollPlace)

def grant (authority : Authority) : EnrollPlace := { place with authority := place.authority.or (some authority) }

def prove (asked : Registering) (key : String) : EnrollPlace :=
  let proven := { place with proved := some key }
  if asked.registrationToken.isNone then proven.grant (.key key) else proven

def clocked (asked : Registering) (now : Int) : EnrollPlace :=
  let key := if asked.registrationToken.isSome then some asked.input.publicKey else place.seen
  match key.filter (signedWith web asked now) with
  | some key => place.prove asked key
  | none => place

def looked (asked : Registering) (found : Option String) : EnrollPlace :=
  let seeing := { place with seen := found }
  if asked.registrationToken.isSome ∧ found = some asked.input.publicKey ∧ place.proved = some asked.input.publicKey then
    seeing.grant (.key asked.input.publicKey)
  else seeing

def spent (token_hash : String) (count : Nat) : EnrollPlace := if count = 1 then place.grant (.token token_hash) else place

end EnrollPlace

-- What a request for a registration may do next. It writes only what it has shown it may write.
def registering (asked : Registering) (place : EnrollPlace) (op : EnrollOp) (state : EnrollmentState) : Option EnrollPlace :=
  match op with
  | .readClock => some (place.clocked web asked (state.clock state.performed))
  | .selectPublicKey backend_id =>
      if backend_id = asked.input.backendId then
        some (place.looked asked (truthy (answered ((EnrollOp.selectPublicKey backend_id).exec state).1).join))
      else none
  | .consumeToken token_hash now =>
      if asked.registrationToken.map (sha256Base64Url web) = some token_hash ∧ place.proved = some asked.input.publicKey then
        some (place.spent token_hash (changes ((EnrollOp.consumeToken token_hash now).exec state).1))
      else none
  | .selectByBackend backend_id =>
      if backend_id = asked.input.backendId then
        some { place with existing := answered ((EnrollOp.selectByBackend backend_id).exec state).1 }
      else none
  | .insertRegistration row =>
      if row.backend_id = asked.input.backendId ∧ row.public_key = some asked.input.publicKey ∧ place.authority.isSome then some place
      else none
  | .refresh _ id input _ _ _ =>
      if input.publicKey = asked.input.publicKey ∧ place.authority.isSome ∧ ∃ row ∈ place.existing, row.id = id ∧
          row.backend_id = asked.input.backendId ∧ ∀ key ∈ truthy row.public_key, key = asked.input.publicKey then some place
      else none
  | .randomUUID => some place
  | .selectRegistration _ => some place
  | .insertNonce _ => some place
  | .selectBackend _ => some place
  | .updateBackend _ _ _ _ _ => some place
  | _ => none

-- The other requests enroll nobody.
def enrolls : EnrollOp → Bool
  | .insertRegistration _ => true
  | .refresh _ _ _ _ _ _ => true
  | _ => false

def enrollNext (asked : EnrollCall) (place : EnrollPlace) (op : EnrollOp) (state : EnrollmentState) : Option EnrollPlace :=
  match asked with
  | .register asked => registering web asked place op state
  | _ => if enrolls op then none else some place

def EnrollCall.entry (call : EnrollCall) : EnrollPlace := ⟨call, none, none, none, none⟩

theorem clocked_kept (place : EnrollPlace) (asked : Registering) (now : Int) :
    (place.clocked web asked now).call = place.call ∧ (place.clocked web asked now).seen = place.seen ∧
      (place.clocked web asked now).existing = place.existing ∧
      ∀ authority ∈ place.authority, (place.clocked web asked now).authority = some authority := by
  simp only [EnrollPlace.clocked]
  generalize (if asked.registrationToken.isSome then some asked.input.publicKey else place.seen).filter _ = key
  cases key with
  | none => exact ⟨rfl, rfl, rfl, fun authority held => held⟩
  | some key =>
      simp only [EnrollPlace.prove]
      split
      · refine ⟨rfl, rfl, rfl, ?_⟩
        intro authority held
        have held_ : place.authority = some authority := held
        simp [EnrollPlace.grant, held_]
      · exact ⟨rfl, rfl, rfl, fun authority held => held⟩

-- A step of a request keeps whose request it is and what it has been granted.
theorem next_kept (asked : EnrollCall) (place : EnrollPlace) (op : EnrollOp) (state : EnrollmentState) (there : EnrollPlace)
    (moved : enrollNext web asked place op state = some there) :
    there.call = place.call ∧ ∀ authority ∈ place.authority, there.authority = some authority := by
  have granted : ∀ (authority : Authority) (old : Authority), old ∈ place.authority → (place.grant authority).authority = some old := by
    intro authority old held
    have held_ : place.authority = some old := held
    simp [EnrollPlace.grant, held_]
  cases asked with
  | register asked =>
      cases op with
      | readClock =>
          cases moved
          exact ⟨(clocked_kept web place asked _).1, (clocked_kept web place asked _).2.2.2⟩
      | selectPublicKey backend_id =>
          simp only [enrollNext, registering] at moved
          split at moved
          · cases moved
            simp only [EnrollPlace.looked]
            split
            · exact ⟨rfl, granted (.key asked.input.publicKey)⟩
            · exact ⟨rfl, fun authority held => held⟩
          · cases moved
      | consumeToken token_hash now =>
          simp only [enrollNext, registering] at moved
          split at moved
          · cases moved
            simp only [EnrollPlace.spent]
            split
            · exact ⟨rfl, granted (.token token_hash)⟩
            · exact ⟨rfl, fun authority held => held⟩
          · cases moved
      | selectByBackend backend_id =>
          simp only [enrollNext, registering] at moved
          split at moved
          · cases moved
            exact ⟨rfl, fun authority held => held⟩
          · cases moved
      | insertRegistration row =>
          simp only [enrollNext, registering] at moved
          split at moved
          · cases moved
            exact ⟨rfl, fun authority held => held⟩
          · cases moved
      | refresh again id input network ips now =>
          simp only [enrollNext, registering] at moved
          split at moved
          · cases moved
            exact ⟨rfl, fun authority held => held⟩
          · cases moved
      | randomUUID => cases moved; exact ⟨rfl, fun authority held => held⟩
      | selectRegistration id => cases moved; exact ⟨rfl, fun authority held => held⟩
      | insertNonce row => cases moved; exact ⟨rfl, fun authority held => held⟩
      | selectBackend id => cases moved; exact ⟨rfl, fun authority held => held⟩
      | updateBackend id name base_url tags now => cases moved; exact ⟨rfl, fun authority held => held⟩
      | _ => cases moved
  | _ =>
      simp only [enrollNext] at moved
      split at moved
      · cases moved
      · cases moved
        exact ⟨rfl, fun authority held => held⟩

section requests

variable (asked : Registering)

def quiet : EnrollOp → Bool
  | .readClock => true
  | .randomUUID => true
  | .selectRegistration _ => true
  | .insertNonce _ => true
  | .selectBackend _ => true
  | .updateBackend _ _ _ _ _ => true
  | _ => false

-- The signature has been verified under the key the request brings, or it needs no more than that.
def Shown (place : EnrollPlace) : Prop := asked.registrationToken.isSome = true ∧ place.proved = some asked.input.publicKey

def Granted (existing : Option RegistrationRow) (place : EnrollPlace) : Prop :=
  place.authority.isSome = true ∧ place.existing = existing

theorem authority_stays (place there : EnrollPlace) (kept : ∀ authority ∈ place.authority, there.authority = some authority)
    (held : place.authority.isSome = true) : there.authority.isSome = true := by
  obtain ⟨authority, same⟩ := Option.isSome_iff_exists.mp held
  rw [kept authority same]
  rfl

theorem shown_clocked (place : EnrollPlace) (now : Int) (shown : Shown asked place) : Shown asked (place.clocked web asked now) := by
  refine ⟨shown.1, ?_⟩
  have other : asked.registrationToken.isNone = false := by
    obtain ⟨token, same⟩ := Option.isSome_iff_exists.mp shown.1
    rw [same]
    rfl
  simp only [EnrollPlace.clocked, shown.1, if_true]
  cases verified : (some asked.input.publicKey).filter (signedWith web asked now) with
  | none => exact shown.2
  | some key =>
      have same : asked.input.publicKey = key := by
        rw [Option.filter_some] at verified
        split at verified
        · exact Option.some_inj.mp verified
        · cases verified
      simp [EnrollPlace.prove, other, same]

theorem quiet_shown (place : EnrollPlace) (op : EnrollOp) (state : EnrollmentState) (shown : Shown asked place)
    (calm : quiet op = true) : ∃ there, registering web asked place op state = some there ∧ Shown asked there := by
  cases op with
  | readClock => exact ⟨_, rfl, shown_clocked web asked place _ shown⟩
  | randomUUID => exact ⟨place, rfl, shown⟩
  | selectRegistration id => exact ⟨place, rfl, shown⟩
  | insertNonce row => exact ⟨place, rfl, shown⟩
  | selectBackend id => exact ⟨place, rfl, shown⟩
  | updateBackend id name base_url tags now => exact ⟨place, rfl, shown⟩
  | _ => cases calm

theorem quiet_granted (existing : Option RegistrationRow) (place : EnrollPlace) (op : EnrollOp) (state : EnrollmentState)
    (granted : Granted existing place) (calm : quiet op = true) :
    ∃ there, registering web asked place op state = some there ∧ Granted existing there := by
  cases op with
  | readClock =>
      obtain ⟨_, _, read, kept⟩ := clocked_kept web place asked (state.clock state.performed)
      exact ⟨_, rfl, authority_stays place _ kept granted.1, read.trans granted.2⟩
  | randomUUID => exact ⟨place, rfl, granted⟩
  | selectRegistration id => exact ⟨place, rfl, granted⟩
  | insertNonce row => exact ⟨place, rfl, granted⟩
  | selectBackend id => exact ⟨place, rfl, granted⟩
  | updateBackend id name base_url tags now => exact ⟨place, rfl, granted⟩
  | _ => cases calm

theorem uses_lift {α : Type} (allowed : EnrollOp → Prop) (result : Except SignatureError α) : (lift result).Uses allowed := by
  cases result <;> exact trivial

theorem uses_iso (allowed : EnrollOp → Prop) (reads : allowed .readClock) : isoNow.Uses allowed :=
  uses_bind allowed _ _ (uses_perform allowed .readClock reads) fun _ => uses_lift allowed _

theorem uses_get (id : String) (allowed : EnrollOp → Prop) (reads : allowed (.selectRegistration id)) : (get id).Uses allowed := by
  refine uses_bind allowed _ _ (uses_perform allowed _ reads) fun row => ?_
  cases row <;> exact trivial

theorem uses_get_backend (id : String) (allowed : EnrollOp → Prop) (reads : allowed (.selectBackend id)) :
    (getBackend id).Uses allowed := by
  refine uses_bind allowed _ _ (uses_perform allowed _ reads) fun row => ?_
  cases row <;> exact trivial

theorem uses_claim (backendId nonce : String) : (claimNonce backendId nonce).Uses fun op => quiet op = true := by
  refine uses_bind _ _ _ (uses_perform _ EnrollOp.readClock rfl) fun now => ?_
  refine uses_bind _ _ _ (uses_attempt _ _ (uses_bind _ _ _ (uses_lift _ _) fun expiry => uses_perform _ _ rfl)) fun claimed => ?_
  cases claimed <;> exact trivial

theorem uses_refresh_backend (registration : RegistrationRow) : (refreshBackend registration).Uses fun op => quiet op = true := by
  have update : (updateBackend registration.backend_id registration.name registration.base_url registration.tags).Uses
      fun op => quiet op = true :=
    uses_bind _ _ _ (uses_get_backend _ _ rfl) fun _ => uses_bind _ _ _ (uses_iso _ rfl) fun now =>
      uses_bind _ _ _ (uses_perform _ _ rfl) fun _ => uses_get_backend _ _ rfl
  refine uses_bind _ _ _ (uses_attempt _ _ update) fun updated => ?_
  cases updated with
  | ok backend => exact trivial
  | error error =>
      dsimp only
      split <;> exact trivial

theorem granted_follows {α : Type} (existing : Option RegistrationRow) (place : EnrollPlace) (program : Route α)
    (uses : program.Uses fun op => quiet op = true) (granted : Granted existing place) :
    program.Follows EnrollOp.exec (registering web asked) place fun there _ => Granted existing there :=
  follows_within (fun op => quiet op = true) EnrollOp.exec (registering web asked) (Granted existing)
    (fun place op state => quiet_granted web asked existing place op state) program uses place granted

theorem shown_follows {α : Type} (place : EnrollPlace) (program : Route α) (uses : program.Uses fun op => quiet op = true)
    (shown : Shown asked place) :
    program.Follows EnrollOp.exec (registering web asked) place fun there _ => Shown asked there :=
  follows_within (fun op => quiet op = true) EnrollOp.exec (registering web asked) (Shown asked)
    (fun place op state => quiet_shown web asked place op state) program uses place shown

theorem consume_follows (place : EnrollPlace) (token : String) (named : asked.registrationToken = some token)
    (shown : Shown asked place) :
    (consume web token).Follows EnrollOp.exec (registering web asked) place fun there result =>
      Shown asked there ∧ (result = .ok () → there.authority.isSome = true) := by
  unfold consume
  split
  · refine follows_bind _ _ place isoNow _ _ _ (shown_follows web asked place isoNow (uses_iso _ rfl) shown) ?_ ?_
    · intro there now shown
      refine follows_call _ _ there _ _ _ ?_
      intro state
      refine ⟨_, if_pos ⟨by rw [named]; rfl, shown.2⟩, ?_, ?_⟩
      · intro count answer
        have kept : Shown asked (there.spent (sha256Base64Url web token) (changes (EnrollOp.exec (.consumeToken (sha256Base64Url web token) now) state).1)) := by
          refine ⟨shown.1, ?_⟩
          simp only [EnrollPlace.spent]
          split <;> exact shown.2
        by_cases one : count = 1
        · rw [if_neg (not_not.mpr one)]
          refine ⟨kept, fun _ => ?_⟩
          rw [answer, one]
          simp only [changes, EnrollPlace.spent, if_true, EnrollPlace.grant]
          cases there.authority <;> rfl
        · rw [if_pos one]
          exact ⟨kept, fun returned => (by cases returned)⟩
      · intro error answer
        refine ⟨⟨shown.1, ?_⟩, fun returned => (by cases returned)⟩
        simp only [EnrollPlace.spent]
        split <;> exact shown.2
    · intro there error shown
      exact ⟨shown, fun returned => (by cases returned)⟩
  · exact ⟨shown, fun returned => (by cases returned)⟩

theorem get_key_follows (place : EnrollPlace) (final : EnrollPlace → Except SignatureError String → Prop)
    (found : ∀ key, final (place.looked asked (some key)) (.ok key))
    (missing : ∀ read error, final (place.looked asked read) (.error error)) :
    (getPublicKey asked.input.backendId).Follows EnrollOp.exec (registering web asked) place final := by
  refine follows_call _ _ place _ _ _ ?_
  intro state
  refine ⟨_, if_pos rfl, ?_, fun error _ => missing _ error⟩
  intro row answer
  rw [answer]
  cases known : truthy row.join with
  | none => exact missing _ _
  | some key =>
      simp only [answered, known]
      exact found key

theorem spend_follows (place : EnrollPlace) (token : String) (named : asked.registrationToken = some token)
    (shown : Shown asked place) :
    (spendToken web asked.input token).Follows EnrollOp.exec (registering web asked) place fun there result =>
      result = .ok () → there.authority.isSome = true := by
  refine follows_bind _ _ place _ _ (fun there consumed => ∃ result, consumed = .ok result ∧ Shown asked there ∧
    (result = .ok () → there.authority.isSome = true)) _ ?_ ?_ ?_
  · exact follows_attempt _ _ place _ _ _ (consume_follows web asked place token named shown) fun there result kept =>
      ⟨result, rfl, kept⟩
  · rintro there consumed ⟨result, same, shown, granted⟩
    cases same
    cases consumed with
    | ok done => exact fun _ => granted rfl
    | error error =>
        refine follows_bind _ _ there _ _ (fun last enrolled => ∃ key, enrolled = .ok key ∧
          (key.toOption = some asked.input.publicKey → last.authority.isSome = true)) _ ?_ ?_ ?_
        · refine follows_attempt _ _ there _ _ _ (get_key_follows web asked there
            (fun last key => key.toOption = some asked.input.publicKey → last.authority.isSome = true) ?_ ?_)
            fun last key kept => ⟨key, rfl, kept⟩
          · intro key same
            have same_ : key = asked.input.publicKey := Option.some_inj.mp same
            simp only [EnrollPlace.looked, same_, shown.1, shown.2, and_self, if_true, EnrollPlace.grant]
            cases there.authority <;> rfl
          · intro read error same
            cases same
        · rintro last enrolled ⟨key, same, enough⟩
          cases same
          split
          · exact fun returned => (by cases returned)
          · rename_i equal
            exact fun _ => enough (not_not.mp equal)
        · rintro last error ⟨key, same, _⟩
          cases same
  · rintro there error ⟨result, same, _⟩
    cases same

omit web asked in
theorem exec_answer (op : EnrollOp) (state : EnrollmentState) (value : op.Result) (answer : (op.exec state).1 = .ok value) :
    (op.perform state).1 = .ok value ∧ (op.exec state).2 = { (op.perform state).2 with performed := state.performed + 1 } := by
  unfold EnrollOp.exec at answer ⊢
  cases fault : op.fault state with
  | none =>
      rw [fault] at answer
      exact ⟨answer, rfl⟩
  | refused =>
      rw [fault] at answer
      cases answer
  | lost =>
      rw [fault] at answer
      cases answer

omit web asked in
theorem select_backend_key (backend_id : String) (state : EnrollmentState) (row : RegistrationRow)
    (answer : ((EnrollOp.selectByBackend backend_id).exec state).1 = .ok (some row)) : row.backend_id = backend_id := by
  have found : state.backend_registrations.find? backend_id = some row := Except.ok.inj (exec_answer _ state _ answer).1
  exact state.backend_registrations.find_key backend_id row found

theorem request_follows (place : EnrollPlace) (granted : place.authority.isSome = true) :
    (request asked.input asked.network).Follows EnrollOp.exec (registering web asked) place fun there _ =>
      there.authority.isSome = true := by
  refine follows_bind _ _ place isoNow _ _ _
    (granted_follows web asked place.existing place isoNow (uses_iso _ rfl) ⟨granted, rfl⟩) ?_ fun there error kept => kept.1
  intro there now kept
  refine follows_call _ _ there _ _ _ ?_
  intro state
  refine ⟨_, if_pos rfl, ?_, fun error _ => kept.1⟩
  intro row answer
  rw [answer]
  cases row with
  | none =>
      refine follows_call _ _ _ _ _ _ ?_
      intro later
      refine ⟨_, rfl, ?_, fun error _ => kept.1⟩
      intro id drawn
      refine follows_call _ _ _ _ _ _ ?_
      intro last
      refine ⟨_, if_pos ⟨rfl, rfl, kept.1⟩, ?_, fun error _ => kept.1⟩
      intro _ _
      exact follows_mono _ _ _ _ _ _ (fun _ _ held => held.1) (granted_follows web asked none _ (get id) (uses_get id _ rfl) ⟨kept.1, rfl⟩)
  | some existing =>
      dsimp only
      split
      · exact kept.1
      · rename_i same
        have equal : ∀ key ∈ truthy existing.public_key, key = asked.input.publicKey := by
          intro key member
          have member_ : truthy existing.public_key = some key := member
          rw [member_] at same
          simpa using same
        refine follows_call _ _ _ _ _ _ ?_
        intro last
        have named := select_backend_key asked.input.backendId state existing answer
        refine ⟨_, if_pos ⟨rfl, kept.1, existing, rfl, rfl, named, equal⟩, ?_, fun error _ => kept.1⟩
        intro _ _
        exact follows_mono _ _ _ _ _ _ (fun _ _ held => held.1)
          (granted_follows web asked (some existing) _ (get existing.id) (uses_get _ _ rfl) ⟨kept.1, rfl⟩)

theorem signed_returned (now : Int) (key : String) (identity : Signatures.SignedRequestIdentity)
    (verified : verifyAgentRequestSignature web now asked.request key (some asked.body) = .ok identity)
    (same : identity.backendId = asked.input.backendId) : signedWith web asked now key = true := by
  simp [signedWith, verified, same]

-- A request for a registration keeps to its places, and is granted what it needs before it writes.
theorem register_follows (start : EnrollPlace) :
    (register web asked).Follows EnrollOp.exec (registering web asked) start fun _ _ => True := by
  have after : ∀ (place : EnrollPlace) (identity : Signatures.SignedRequestIdentity), place.authority.isSome = true →
      (claimNonce identity.backendId identity.nonce >>= fun _ => request asked.input asked.network >>= fun registration =>
        if registration.status = .approved then refreshBackend registration >>= fun _ => (pure registration : Route RegistrationRow)
        else pure registration).Follows EnrollOp.exec (registering web asked) place fun _ _ => True := by
    intro place identity granted
    refine follows_bind _ _ place _ _ _ _
      (granted_follows web asked place.existing place _ (uses_claim identity.backendId identity.nonce) ⟨granted, rfl⟩) ?_ fun _ _ _ => trivial
    intro there _ claimed
    refine follows_bind _ _ there _ _ _ _ (request_follows web asked there claimed.1) ?_ fun _ _ _ => trivial
    intro last registration held
    split
    · exact follows_bind _ _ last _ _ _ _
        (granted_follows web asked last.existing last _ (uses_refresh_backend registration) ⟨held, rfl⟩) (fun _ _ _ => trivial)
        fun _ _ _ => trivial
    · exact trivial
  unfold register
  cases named : asked.registrationToken with
  | none =>
      refine follows_bind _ _ start (getPublicKey asked.input.backendId) _
        (fun there key => ∀ value, key = .ok value → there.seen = some value) _
        (get_key_follows web asked start _ ?_ ?_) ?_ fun _ _ _ => trivial
      · intro key value same
        cases same
        simp only [EnrollPlace.looked]
        split <;> rfl
      · intro read error value same
        cases same
      · intro there key seen
        refine follows_call _ _ there _ _ _ ?_
        intro state
        refine ⟨_, rfl, ?_, fun _ _ => trivial⟩
        intro now clock
        cases verified : verifyAgentRequestSignature web now asked.request key (some asked.body) with
        | error error => exact trivial
        | ok identity =>
            change (if identity.backendId ≠ asked.input.backendId then identityMismatch else _ : Route RegistrationRow).Follows _ _ _ _
            split
            · exact trivial
            · rename_i same
              have reading : state.clock state.performed = now := Except.ok.inj clock
              have signed := signed_returned web asked now key identity verified (not_not.mp same)
              have granted : (there.clocked web asked (state.clock state.performed)).authority.isSome = true := by
                rw [reading, EnrollPlace.clocked, named, seen key rfl]
                simp only [Option.isSome_none, Bool.false_eq_true, if_false, Option.filter_some, signed, if_true]
                simp only [EnrollPlace.prove, named, Option.isNone_none, if_true, EnrollPlace.grant]
                cases there.authority <;> rfl
              exact after _ identity granted
  | some token =>
      refine follows_call _ _ start _ _ _ ?_
      intro state
      refine ⟨_, rfl, ?_, fun _ _ => trivial⟩
      intro now clock
      cases verified : verifyAgentRequestSignature web now asked.request asked.input.publicKey (some asked.body) with
      | error error => exact trivial
      | ok identity =>
          change (if identity.backendId ≠ asked.input.backendId then identityMismatch else _ : Route RegistrationRow).Follows _ _ _ _
          split
          · exact trivial
          · rename_i same
            have reading : state.clock state.performed = now := Except.ok.inj clock
            have signed := signed_returned web asked now asked.input.publicKey identity verified (not_not.mp same)
            have shown : Shown asked (start.clocked web asked (state.clock state.performed)) := by
              refine ⟨by rw [named]; rfl, ?_⟩
              rw [reading, EnrollPlace.clocked, named]
              simp only [Option.isSome_some, if_true, Option.filter_some, signed]
              simp [EnrollPlace.prove, named]
            exact follows_bind _ _ _ _ _ _ _ (spend_follows web asked _ token named shown)
              (fun there _ spent => after there identity (spent rfl)) fun _ _ _ => trivial

end requests

section others

def Harmless (op : EnrollOp) : Prop := enrolls op = false

theorem uses_issue : (issue web).Uses Harmless :=
  uses_bind _ _ _ (uses_perform _ EnrollOp.readClock rfl) fun _ =>
    uses_bind _ _ _ (uses_perform _ EnrollOp.randomToken rfl) fun _ =>
      uses_bind _ _ _ (uses_lift _ _) fun _ => uses_bind _ _ _ (uses_lift _ _) fun _ =>
        uses_bind _ _ _ (uses_perform _ _ rfl) fun _ => trivial

theorem uses_approve (id : String) : (approve id).Uses Harmless := by
  refine uses_bind _ _ _ (uses_get id _ rfl) fun registration => ?_
  split
  · exact trivial
  · refine uses_bind _ _ _ (uses_perform _ _ rfl) fun backendId => ?_
    split
    · exact trivial
    · refine uses_bind _ _ _ (uses_attempt _ _ (uses_get_backend _ _ rfl)) fun known => ?_
      have ending : ∀ backend : BackendRow, (recordStatus backend.id >>= fun _ => isoNow >>= fun now =>
          call (.approve id now) >>= fun _ => get id).Uses Harmless := fun backend =>
        uses_bind _ _ _ (uses_bind _ _ _ (uses_iso _ rfl) fun now => uses_perform _ _ rfl) fun _ =>
          uses_bind _ _ _ (uses_iso _ rfl) fun now => uses_bind _ _ _ (uses_perform _ _ rfl) fun _ => uses_get id _ rfl
      cases known with
      | ok backend => exact ending backend
      | error error =>
          refine uses_bind _ (createBackend registration) _ ?_ ending
          refine uses_bind _ _ _ (uses_iso _ rfl) fun now => ?_
          refine uses_bind _ _ _ (uses_attempt _ _ (uses_perform _ _ rfl)) fun inserted => ?_
          cases inserted with
          | ok done => exact uses_get_backend _ _ rfl
          | error error => exact trivial

theorem uses_remove (backendId : String) : (removeNode backendId).Uses Harmless :=
  uses_bind _ _ _ (uses_perform _ _ rfl) fun _ => uses_bind _ _ _ (uses_perform _ _ rfl) fun _ =>
    uses_bind _ _ _ (uses_perform _ _ rfl) fun _ => uses_perform _ _ rfl

theorem uses_body (asked : EnrollCall) (other : ∀ request, asked ≠ .register request) : (asked.body web).Uses Harmless := by
  have ends : ∀ {α : Type} (program : Route α), program.Uses Harmless → (program >>= fun _ => (pure () : Route Unit)).Uses Harmless :=
    fun program uses => uses_bind _ _ _ uses fun _ => trivial
  cases asked with
  | register request => exact absurd rfl (other request)
  | issue => exact ends (issue web) (uses_issue web)
  | approve id => exact ends (approve id) (uses_approve id)
  | reject id reason =>
      refine ends (reject id reason) ?_
      exact uses_bind _ _ _ (uses_iso _ rfl) fun _ => uses_bind _ _ _ (uses_perform _ _ rfl) fun _ => uses_get id _ rfl
  | deleteRegistration id => exact uses_bind _ _ _ (uses_get id _ rfl) fun registration => uses_remove registration.backend_id
  | deleteBackend id => exact uses_remove id
  | purgeExpired =>
      exact uses_bind _ _ _ (uses_bind _ _ _ (uses_iso _ rfl) fun _ => uses_perform _ _ rfl) fun _ =>
        uses_bind _ _ _ (uses_iso _ rfl) fun _ => uses_perform _ _ rfl

theorem harmless_next (asked : EnrollCall) (other : ∀ request, asked ≠ .register request) (place : EnrollPlace) (op : EnrollOp)
    (state : EnrollmentState) (safe : Harmless op) : enrollNext web asked place op state = some place := by
  rw [Harmless] at safe
  cases asked with
  | register request => exact absurd rfl (other request)
  | _ =>
      simp only [enrollNext, safe]
      rfl

end others

-- Every request keeps to its places.
theorem enroll_follows (asked : EnrollCall) :
    (asked.body web).Follows EnrollOp.exec (enrollNext web asked) asked.entry fun there _ => there.call = asked := by
  have follows : (asked.body web).Follows EnrollOp.exec (enrollNext web asked) asked.entry fun _ _ => True := by
    by_cases registers : ∃ request, asked = .register request
    · obtain ⟨request, rfl⟩ := registers
      exact follows_bind _ _ _ _ _ _ _ (register_follows web request _) (fun _ _ _ => trivial) fun _ _ _ => trivial
    · have other : ∀ request, asked ≠ .register request := fun request same => registers ⟨request, same⟩
      exact follows_within Harmless EnrollOp.exec (enrollNext web asked) (fun _ => True)
        (fun place op state _ safe => ⟨place, harmless_next web asked other place op state safe, trivial⟩) _
        (uses_body web asked other) _ trivial
  exact follows_mono _ _ _ _ _ _ (fun there result kept => kept.2) (follows_kept EnrollOp.exec (enrollNext web asked)
    EnrollPlace.call (fun place op state there moved => (next_kept web asked place op state there moved).1) _ _ _ follows)

end places

end Vacps.Enrollment
