import Mathlib.Data.List.TakeWhile
import Vacps.Contracts.Doubles
import Vacps.Contracts.Web
import Vacps.ControlPlane.QueryCursor
import Vacps.ControlPlane.SchedulePatch

/- auth/session.ts: the session cookie of the control panel. A cookie is its expiry and an HMAC of it, and nothing is
   kept of it here. -/
set_option autoImplicit false

namespace Vacps.Sessions

open Library Library.Utf16 Library.JsonText
open Library.Base64 (Bytes)
open ControlPlane (AppError)
open Cursors (property)

def SESSION_COOKIE : String := "vacps_control_session"

def SESSION_MAX_AGE_SECONDS : Nat := 12 * 60 * 60

structure Env where
  CONTROL_PANEL_PASSWORD : Option String
  CONTROL_PANEL_SESSION_SECRET : Option String

structure AuthConfiguration where
  password : String
  sessionSecret : String
deriving DecidableEq, Repr

def unavailable : AppError :=
  ⟨"control_panel_auth_unavailable", "Control panel authentication is not configured.", 503⟩

-- /\s/ matches what String#trim removes.
def requireAuthConfiguration (env : Env) : Except AppError AuthConfiguration :=
  match truthy env.CONTROL_PANEL_PASSWORD, truthy env.CONTROL_PANEL_SESSION_SECRET with
  | some password, some sessionSecret =>
      if (units password).length < 12 || password.toList.any isTrimmed || (units sessionSecret).length < 32 ||
          sessionSecret.toList.any isTrimmed then .error unavailable
      else .ok ⟨password, sessionSecret⟩
  | _, _ => .error unavailable

-- JSON.stringify of a payload.
def payloadText (exp : Nat) : Units := objectText [(units "version", naturalText 1), (units "exp", naturalText exp)]

def base64UrlEncode (bytes : Bytes) : String := String.ofList (Base64.encodeUrl bytes)

def base64UrlDecode (text : String) : Option Bytes :=
  let normalized := text.toList.map Base64.standard
  Base64.atob (normalized ++ List.replicate ((4 - normalized.length % 4) % 4) '=')

def expiry (now : Nat) : Nat := now / 1000 + SESSION_MAX_AGE_SECONDS

def encodedPayload (now : Nat) : String := base64UrlEncode (encode (payloadText (expiry now)))

def passwordText (password : String) : String := "password:" ++ password

def isSafeInteger : Double → Bool
  | .finite x => x.den == 1 && decide (|x| ≤ 2 ^ 53 - 1)
  | _ => false

def isUnexpiredSessionPayload (payload : Value) (now : Nat) : Bool :=
  match property "version" payload, property "exp" payload with
  | some (.number version), some (.number exp) =>
      decide (doubleOf version = .finite 1) && isSafeInteger (doubleOf exp) &&
        (match doubleOf exp with
        | .finite exp => decide (((now / 1000 : Nat) : Rat) < exp)
        | _ => false)
  | _, _ => false

-- String#trim
def trimmed (part : List Char) : List Char := ((part.dropWhile isTrimmed).reverse.dropWhile isTrimmed).reverse

-- The value of a cookie's part of the header, when it is that cookie's.
def cookieValue (name : String) (part : List Char) : Option (List Char) :=
  match (trimmed part).splitOn '=' with
  | key :: value => if key = name.toList then some (['='].intercalate value) else none
  | [] => none

def readCookie (header : Option String) (name : String) : Option String :=
  (truthy header).bind fun header => ((header.toList.splitOn ';').findSome? (cookieValue name)).map String.ofList

section hmac

-- HMAC with SHA-256.
variable (hmac : (key message : Bytes) → Bytes)

def sign (value secret : String) : Bytes := hmac (utf8 secret) (utf8 value)

-- crypto.subtle.verify
def verify (secret : String) (signature data : Bytes) : Bool := decide (hmac (utf8 secret) data = signature)

def passwordMatches (candidate : Units) (env : Env) : Except AppError Bool := do
  let { password, sessionSecret } ← requireAuthConfiguration env
  pure (verify hmac sessionSecret (sign hmac (passwordText password) sessionSecret) (encode (units "password:" ++ candidate)))

def createSessionCookie (env : Env) (now : Nat) : Except AppError String := do
  let { sessionSecret, .. } ← requireAuthConfiguration env
  let signature := base64UrlEncode (sign hmac (encodedPayload now) sessionSecret)
  pure (SESSION_COOKIE ++ "=" ++ encodedPayload now ++ "." ++ signature ++
    "; HttpOnly; Secure; SameSite=Lax; Path=/; Max-Age=" ++ toString SESSION_MAX_AGE_SECONDS)

def clearSessionCookie : String := SESSION_COOKIE ++ "=; HttpOnly; Secure; SameSite=Lax; Path=/; Max-Age=0"

-- The two parts of a token.
def tokenParts (token : String) : Option (String × String) :=
  match token.toList.splitOn '.' with
  | [encodedPayload, encodedSignature] =>
      if encodedPayload = [] || encodedSignature = [] then none
      else some (String.ofList encodedPayload, String.ofList encodedSignature)
  | _ => none

def payloadOf (encodedPayload : String) : Option Value :=
  (base64UrlDecode encodedPayload).bind fun bytes => parse (utf16Code.words (Utf8.repaired bytes))

def validToken (sessionSecret token : String) (now : Nat) : Bool :=
  match tokenParts token with
  | none => false
  | some (encodedPayload, encodedSignature) =>
      match base64UrlDecode encodedSignature with
      | none => false
      | some signature =>
          verify hmac sessionSecret signature (utf8 encodedPayload) &&
            (payloadOf encodedPayload).any fun payload => isUnexpiredSessionPayload payload now

def hasValidSession (headers : Headers) (env : Env) (now : Nat) : Except AppError Bool := do
  let { sessionSecret, .. } ← requireAuthConfiguration env
  match truthy (readCookie (headers.get "cookie") SESSION_COOKIE) with
  | none => pure false
  | some token => pure (validToken hmac sessionSecret token now)

def requireAuthenticated (headers : Headers) (env : Env) (now : Nat) : Except AppError Unit := do
  if !(← hasValidSession hmac headers env now) then
    .error ⟨"authentication_required", "Authentication is required.", 401⟩

end hmac

section encoding

theorem decode_encoded (bytes : Bytes) : base64UrlDecode (base64UrlEncode bytes) = some bytes := by
  have length : ((Base64.encodeUrl bytes).map Base64.standard).length = (Base64.encodeUrl bytes).length := List.length_map _
  rw [base64UrlDecode, base64UrlEncode, String.toList_ofList]
  simp only [length]
  exact Base64.atob_padded bytes

-- The letters of an encoded text are none that cookies and tokens are cut at.
theorem encoded_chars (bytes : Bytes) : ∀ char ∈ (base64UrlEncode bytes).toList,
    char ≠ '.' ∧ char ≠ ';' ∧ char ≠ '=' ∧ isTrimmed char = false := by
  have all : ∀ n : Fin 64, Base64.urlSafe (Base64.letter n) ≠ '.' ∧ Base64.urlSafe (Base64.letter n) ≠ ';' ∧
      Base64.urlSafe (Base64.letter n) ≠ '=' ∧ isTrimmed (Base64.urlSafe (Base64.letter n)) = false := by decide
  intro char written
  rw [base64UrlEncode, String.toList_ofList, Base64.encodeUrl, List.mem_map] at written
  obtain ⟨sextet, member, rfl⟩ := written
  exact all ⟨sextet, Base64.sextets_small bytes sextet member⟩

theorem encoded_some (bytes : Bytes) (some_ : bytes ≠ []) : (base64UrlEncode bytes).toList ≠ [] := by
  intro empty
  have same : base64UrlEncode bytes = base64UrlEncode [] := String.toList_inj.mp (empty.trans rfl)
  have read := decode_encoded bytes
  rw [same, decode_encoded] at read
  exact some_ (Option.some_inj.mp read).symm

theorem password_foreign (password : String) : base64UrlDecode (passwordText password) = none := by
  have colon : ':' ∈ (passwordText password).toList := by
    rw [passwordText, String.toList_append]
    exact List.mem_append_left _ (by decide)
  exact Base64.atob_foreign _ ':' (List.mem_append_left _ (List.mem_map_of_mem (f := Base64.standard) colon)) (by decide) (by decide)
    (by decide)

theorem parse_payload (exp : Nat) :
    parse (payloadText exp) = some (.object [(units "version", .number 1), (units "exp", .number exp)]) := by
  have each : List.Forall₂ (PrintsMember 1) [(units "version", naturalText 1), (units "exp", naturalText exp)]
      [(units "version", .number 1), (units "exp", .number exp)] := by
    have printed : ∀ (name : Units) (n : Nat), PrintsMember 1 (name, naturalText n) (name, .number n) := by
      intro name n
      refine ⟨rfl, ?_⟩
      intro fuel rest enough closes
      obtain ⟨less, rfl⟩ : ∃ less, fuel = less + 1 := ⟨fuel - 1, by omega⟩
      exact read_natural_value less n rest closes
    exact .cons (by simpa using printed (units "version") 1) (.cons (printed (units "exp") exp) .nil)
  have read := read_object_value 1 _ _ [] (2 * (payloadText exp).length + 1) each (by
    have long : 2 ≤ (payloadText exp).length := by simp [payloadText, objectText]
    simp only [List.length_cons, List.length_nil]
    omega)
  rw [List.append_nil] at read
  rw [parse, payloadText] at *
  rw [read]
  rfl

theorem payload_read (now : Nat) :
    payloadOf (encodedPayload now) = some (.object [(units "version", .number 1), (units "exp", .number (expiry now))]) := by
  have whole : Whole (payloadText (expiry now)) := by
    refine whole_object _ fun member listed => ?_
    rcases List.mem_pair.mp listed with rfl | rfl
    · exact whole_natural 1
    · exact whole_natural _
  obtain ⟨letters, spelled⟩ := whole
  have unmarked := Cursors.cursor_unmarked letters _ spelled.symm
  have bytes : Utf8.repaired (encode (payloadText (expiry now))) = letters := by
    rw [spelled, encode_words, Utf8.repaired_words letters unmarked]
  rw [payloadOf, encodedPayload, decode_encoded, Option.bind_some, bytes, ← spelled, parse_payload]

-- The last time a Date can hold.
def LAST_TIME : Nat := 8640000000000000

theorem payload_unexpired (issued now : Nat) (dated : issued ≤ LAST_TIME) :
    isUnexpiredSessionPayload (.object [(units "version", .number 1), (units "exp", .number (expiry issued))]) now =
      decide (now / 1000 < expiry issued) := by
  have small : expiry issued < 2 ^ 53 := by
    simp only [expiry, SESSION_MAX_AGE_SECONDS]
    unfold LAST_TIME at dated
    omega
  have double : ∀ n : Nat, n < 2 ^ 53 → doubleOf n = .finite n := by
    intro n less
    have bound : (n : Rat) < powerOfTwo 1024 := by
      have wide : (n : Rat) < powerOfTwo 53 := by
        rw [power_zpow]
        exact_mod_cast less
      exact lt_trans wide ((power_lt 53 1024).mpr (by decide))
    rw [Double.of_nonneg n (Nat.cast_nonneg n), natural_exact n less, if_pos bound]
  have version : property "version" (.object [(units "version", .number 1), (units "exp", .number (expiry issued))]) =
      some (.number 1) := rfl
  have exp : property "exp" (.object [(units "version", .number 1), (units "exp", .number (expiry issued))]) =
      some (.number (expiry issued)) := rfl
  have one : doubleOf 1 = .finite 1 := by simpa using double 1 (by decide)
  have safe : isSafeInteger (.finite (expiry issued)) = true := by
    have whole : ((expiry issued : Nat) : Rat) ≤ 2 ^ 53 - 1 := by
      have less : ((expiry issued + 1 : Nat) : Rat) ≤ 2 ^ 53 := by exact_mod_cast small
      push_cast at less
      linarith
    simp [isSafeInteger, whole]
  rw [isUnexpiredSessionPayload, version, exp]
  simp only [one, double _ small, safe]
  simp

end encoding

section cookies

theorem trimmed_space (part : List Char) : trimmed (' ' :: part) = trimmed part := by
  rw [trimmed, List.dropWhile_cons_of_pos (by decide), trimmed]

theorem value_space (name : String) (part : List Char) : cookieValue name (' ' :: part) = cookieValue name part := by
  rw [cookieValue, cookieValue, trimmed_space]

theorem trimmed_kept (part : List Char) (kept : ∀ char ∈ part, isTrimmed char = false) : trimmed part = part := by
  rw [trimmed, ControlPlane.drop_kept part kept, ControlPlane.drop_kept, List.reverse_reverse]
  exact fun char member => kept char (List.mem_reverse.mp member)

theorem value_pair (name : String) (value : List Char) (named : '=' ∉ name.toList) (plain : '=' ∉ value)
    (kept : ∀ char ∈ name.toList ++ '=' :: value, isTrimmed char = false) :
    cookieValue name (name.toList ++ '=' :: value) = some value := by
  rw [cookieValue, trimmed_kept _ kept, List.splitOn_append_cons_self, List.splitOn_eq_singleton named, List.splitOn_eq_singleton plain]
  simp

-- A part with the blank before it, cut off the rest.
theorem split_part (lead part rest : List Char) (blank : lead = [] ∨ lead = [' ']) (whole : ';' ∉ part) :
    (lead ++ (part ++ [';', ' '] ++ rest)).splitOn ';' = (lead ++ part) :: ([' '] ++ rest).splitOn ';' := by
  have front : ';' ∉ lead ++ part := by rcases blank with rfl | rfl <;> simp [whole]
  have cut : lead ++ (part ++ [';', ' '] ++ rest) = (lead ++ part) ++ ';' :: ([' '] ++ rest) := by simp
  rw [cut, List.splitOn_append_cons_self, List.splitOn_eq_singleton front, List.singleton_append]

theorem value_led (name : String) (lead part : List Char) (blank : lead = [] ∨ lead = [' ']) :
    cookieValue name (lead ++ part) = cookieValue name part := by
  rcases blank with rfl | rfl
  · rfl
  · exact value_space name part

-- The first cookie of the name is the one that is read, whatever comes behind it.
theorem first_read (name : String) (before after : List (List Char)) (pair value : List Char)
    (others : ∀ cookie ∈ before, ';' ∉ cookie ∧ cookieValue name cookie = none) (whole : ';' ∉ pair)
    (read : cookieValue name pair = some value) :
    (([';', ' '].intercalate (before ++ pair :: after)).splitOn ';').findSome? (cookieValue name) = some value := by
  have each : ∀ lead : List Char, lead = [] ∨ lead = [' '] →
      ((lead ++ [';', ' '].intercalate (before ++ pair :: after)).splitOn ';').findSome? (cookieValue name) = some value := by
    induction before with
    | nil =>
        intro lead blank
        have value_ := (value_led name lead pair blank).trans read
        rw [List.nil_append]
        cases after with
        | nil =>
            have front : ';' ∉ lead ++ pair := by rcases blank with rfl | rfl <;> simp [whole]
            rw [List.intercalate_singleton, List.splitOn_eq_singleton front, List.findSome?_cons, value_]
        | cons next rest => rw [List.intercalate_cons_cons, split_part lead pair _ blank whole, List.findSome?_cons, value_]
    | cons cookie rest ih =>
        intro lead blank
        obtain ⟨plain, other⟩ := others cookie List.mem_cons_self
        obtain ⟨next, more, same⟩ : ∃ next more, rest ++ pair :: after = next :: more :=
          List.exists_cons_of_ne_nil (by simp)
        rw [List.cons_append, same, List.intercalate_cons_cons, split_part lead cookie _ blank plain, List.findSome?_cons,
          value_led name lead cookie blank, other, ← same]
        exact ih (fun cookie member => others cookie (List.mem_cons_of_mem _ member)) [' '] (Or.inr rfl)
  exact each [] (Or.inl rfl)

end cookies

section sessions

variable (hmac : (key message : Bytes) → Bytes)

-- The token of a session cookie.
def sessionToken (secret : String) (issued : Nat) : String :=
  encodedPayload issued ++ "." ++ base64UrlEncode (sign hmac (encodedPayload issued) secret)

theorem payload_some (now : Nat) : (encodedPayload now).toList ≠ [] :=
  encoded_some _ (by
    intro empty
    have read := payload_read now
    have unread : parse (utf16Code.words (Utf8.repaired [])) = none := by decide
    rw [payloadOf, encodedPayload, decode_encoded, Option.bind_some, empty, unread] at read
    cases read)

theorem token_parts (secret : String) (issued : Nat) (some_ : sign hmac (encodedPayload issued) secret ≠ []) :
    tokenParts (sessionToken hmac secret issued) =
      some (encodedPayload issued, base64UrlEncode (sign hmac (encodedPayload issued) secret)) := by
  have undotted : ∀ bytes, '.' ∉ (base64UrlEncode bytes).toList := fun bytes member => (encoded_chars bytes _ member).1 rfl
  have payload : '.' ∉ (encodedPayload issued).toList := undotted _
  have cut : (sessionToken hmac secret issued).toList.splitOn '.' =
      [(encodedPayload issued).toList, (base64UrlEncode (sign hmac (encodedPayload issued) secret)).toList] := by
    rw [sessionToken, String.toList_append, String.toList_append, List.append_assoc, show ".".toList = ['.'] from rfl,
      List.singleton_append, List.splitOn_append_cons_self, List.splitOn_eq_singleton payload, List.splitOn_eq_singleton (undotted _),
      List.singleton_append]
  rw [tokenParts, cut]
  simp only [payload_some issued, encoded_some _ some_, decide_false, Bool.or_self, Bool.false_eq_true, if_false, String.ofList_toList]

-- A token of an unspoilt signature is good as long as its payload is.
theorem token_valid (secret : String) (issued now : Nat) (dated : issued ≤ LAST_TIME)
    (some_ : sign hmac (encodedPayload issued) secret ≠ []) :
    validToken hmac secret (sessionToken hmac secret issued) now = decide (now / 1000 < expiry issued) := by
  have signed : verify hmac secret (sign hmac (encodedPayload issued) secret) (utf8 (encodedPayload issued)) = true :=
    decide_eq_true rfl
  have payload : (payloadOf (encodedPayload issued)).any (fun payload => isUnexpiredSessionPayload payload now) =
      decide (now / 1000 < expiry issued) := by
    rw [payload_read, Option.any_some, payload_unexpired issued now dated]
  rw [validToken, token_parts hmac secret issued some_]
  dsimp only
  rw [decode_encoded]
  dsimp only
  rw [signed, payload, Bool.true_and]

def cookieHeader (cookies : List (List Char)) : String := String.ofList ([';', ' '].intercalate cookies)

-- What a browser sends back of a Set-Cookie header.
def cookiePair (setCookie : String) : List Char := setCookie.toList.takeWhile fun char => char ≠ ';'

theorem token_plain (secret : String) (issued : Nat) : ∀ char ∈ (sessionToken hmac secret issued).toList,
    char ≠ ';' ∧ char ≠ '=' ∧ isTrimmed char = false := by
  intro char member
  rw [sessionToken, String.toList_append, String.toList_append] at member
  rcases List.mem_append.mp member with front | back
  · rcases List.mem_append.mp front with payload | dot
    · exact (encoded_chars _ char payload).2
    · have same : char = '.' := by simpa using dot
      subst same
      decide
  · exact (encoded_chars _ char back).2

theorem pair_created (env : Env) (configured : AuthConfiguration) (ready : requireAuthConfiguration env = .ok configured)
    (issued : Nat) (setCookie : String) (created : createSessionCookie hmac env issued = .ok setCookie) :
    cookiePair setCookie = SESSION_COOKIE.toList ++ '=' :: (sessionToken hmac configured.sessionSecret issued).toList := by
  simp only [createSessionCookie, ready, bind, Except.bind, pure, Except.pure, Except.ok.injEq] at created
  have front : ∀ char ∈ SESSION_COOKIE.toList ++ '=' :: (sessionToken hmac configured.sessionSecret issued).toList,
      decide (char ≠ ';') = true := by
    intro char member
    rcases List.mem_append.mp member with name | rest
    · exact List.all_eq_true.mp (show SESSION_COOKIE.toList.all (fun char => decide (char ≠ ';')) = true from by decide) char name
    · rcases List.mem_cons.mp rest with rfl | value
      · decide
      · exact decide_eq_true (token_plain hmac configured.sessionSecret issued char value).1
  have cut : setCookie.toList = (SESSION_COOKIE.toList ++ '=' :: (sessionToken hmac configured.sessionSecret issued).toList) ++
      ("; HttpOnly; Secure; SameSite=Lax; Path=/; Max-Age=" ++ toString SESSION_MAX_AGE_SECONDS).toList := by
    rw [← created, sessionToken]
    have sign_ : "=".toList = ['='] := rfl
    simp only [String.toList_append, List.append_assoc]
    rw [sign_, List.singleton_append, List.cons_append]
    simp only [List.append_assoc]
  have attributes : ("; HttpOnly; Secure; SameSite=Lax; Path=/; Max-Age=" ++ toString SESSION_MAX_AGE_SECONDS).toList.takeWhile
      (fun char => decide (char ≠ ';')) = [] := by
    rw [String.toList_append]
    simp
  rw [cookiePair, cut, List.takeWhile_append_of_pos front, attributes, List.append_nil]

theorem session_valid_iff (digest : ∀ key message, (hmac key message).length = 32) (env : Env) (issued now : Nat)
    (dated : issued ≤ LAST_TIME) (setCookie : String) (created : createSessionCookie hmac env issued = .ok setCookie)
    (before after : List (List Char)) (others : ∀ cookie ∈ before, ';' ∉ cookie ∧ cookieValue SESSION_COOKIE cookie = none)
    (headers : Headers) (sent : headers.get "cookie" = some (cookieHeader (before ++ cookiePair setCookie :: after))) :
    hasValidSession hmac headers env now = .ok (decide (now / 1000 < issued / 1000 + SESSION_MAX_AGE_SECONDS)) := by
  cases ready : requireAuthConfiguration env with
  | error error =>
      rw [createSessionCookie, ready] at created
      cases created
  | ok configured =>
      have pair := pair_created hmac env configured ready issued setCookie created
      have plain := token_plain hmac configured.sessionSecret issued
      have some_ : sign hmac (encodedPayload issued) configured.sessionSecret ≠ [] :=
        List.ne_nil_of_length_eq_add_one (digest _ _)
      have value := value_pair SESSION_COOKIE (sessionToken hmac configured.sessionSecret issued).toList (by decide)
        (fun member => (plain _ member).2.1 rfl) (by
          intro char member
          rcases List.mem_append.mp member with name | rest
          · have blankless : SESSION_COOKIE.toList.all (fun char => !isTrimmed char) = true := by decide
            simpa using List.all_eq_true.mp blankless char name
          · rcases List.mem_cons.mp rest with rfl | value
            · decide
            · exact (plain char value).2.2)
      have whole : ';' ∉ cookiePair setCookie := by
        intro member
        have kept := List.mem_takeWhile_imp member
        exact absurd rfl (of_decide_eq_true kept)
      have read := first_read SESSION_COOKIE before after _ _ others whole (pair ▸ value)
      have header : cookieHeader (before ++ cookiePair setCookie :: after) ≠ "" := by
        intro empty
        rw [cookieHeader] at empty
        rw [show [';', ' '].intercalate (before ++ cookiePair setCookie :: after) = [] from String.ofList_injective empty] at read
        rw [show (([] : List Char).splitOn ';').findSome? (cookieValue SESSION_COOKIE) = none from by decide] at read
        cases read
      have token : sessionToken hmac configured.sessionSecret issued ≠ "" := by
        intro empty
        have parts := token_parts hmac configured.sessionSecret issued some_
        rw [empty, show tokenParts "" = none from by decide] at parts
        cases parts
      have present : ∀ text : String, text ≠ "" → truthy (some text) = some text := by
        intro text some_
        rw [truthy, Option.filter_some, if_pos (decide_eq_true some_)]
      have found : readCookie (headers.get "cookie") SESSION_COOKIE = some (sessionToken hmac configured.sessionSecret issued) := by
        rw [readCookie, sent, present _ header, Option.bind_some, cookieHeader, String.toList_ofList, read, Option.map_some,
          String.ofList_toList]
      have valid := token_valid hmac configured.sessionSecret issued now dated some_
      simp only [hasValidSession, ready, found, present _ token, bind, Except.bind, pure, Except.pure, valid]
      rfl

-- A panel, with HMAC-SHA-256 for the one text it signs here.
def panel : Env := ⟨some "correct-horse-battery", some "0123456789abcdef0123456789abcdef"⟩

def panelHmac (key message : Bytes) : Bytes :=
  if key = utf8 "0123456789abcdef0123456789abcdef" ∧ message = utf8 "eyJ2ZXJzaW9uIjoxLCJleHAiOjE3NjAwNDMyMDB9" then
    [192, 237, 19, 249, 204, 10, 194, 186, 134, 246, 193, 68, 177, 102, 140, 65,
      42, 164, 104, 137, 133, 126, 235, 113, 243, 47, 76, 246, 22, 101, 23, 59]
  else List.replicate 32 0

theorem panel_digest (key message : Bytes) : (panelHmac key message).length = 32 := by
  rw [panelHmac]
  split <;> rfl

def panelCookie : String :=
  "vacps_control_session=eyJ2ZXJzaW9uIjoxLCJleHAiOjE3NjAwNDMyMDB9.wO0T-cwKwrqG9sFEsWaMQSqkaImFfutx8y9M9hZlFzs" ++
    "; HttpOnly; Secure; SameSite=Lax; Path=/; Max-Age=43200"

def browserCookies : String :=
  "theme=dark; vacps_control_session=eyJ2ZXJzaW9uIjoxLCJleHAiOjE3NjAwNDMyMDB9.wO0T-cwKwrqG9sFEsWaMQSqkaImFfutx8y9M9hZlFzs; lang=en"

def browserHeaders : Headers := [("cookie", browserCookies)]

theorem browser_cookies : browserHeaders.get "cookie" = some browserCookies := by
  simp only [Headers.get, browserHeaders, List.filter_cons, beq_self_eq_true, if_true, List.filter_nil, List.map_cons, List.map_nil,
    String.intercalate_singleton]

theorem session_valid_browser :
    hasValidSession panelHmac browserHeaders panel 1760043199999 = .ok true ∧
      hasValidSession panelHmac browserHeaders panel 1760043200000 = .ok false := by
  have created : createSessionCookie panelHmac panel 1760000000000 = .ok panelCookie := by decide +kernel
  have spelled : browserCookies = cookieHeader (["theme=dark".toList] ++ cookiePair panelCookie :: ["lang=en".toList]) := by
    decide +kernel
  have sent := browser_cookies.trans (congrArg some spelled)
  have others : ∀ cookie ∈ ["theme=dark".toList], ';' ∉ cookie ∧ cookieValue SESSION_COOKIE cookie = none := by decide +kernel
  have valid := fun now => session_valid_iff panelHmac panel_digest panel 1760000000000 now (by decide) panelCookie created
    ["theme=dark".toList] ["lang=en".toList] others browserHeaders sent
  exact ⟨valid 1760043199999, valid 1760043200000⟩

-- What a request brings to be verified.
def presented (headers : Headers) : Option (String × Bytes) :=
  ((truthy (readCookie (headers.get "cookie") SESSION_COOKIE)).bind tokenParts).bind fun parts =>
    (base64UrlDecode parts.2).map fun signature => (parts.1, signature)

-- All the control panel ever signs: its password, and the payloads of the cookies it hands out.
def signedTexts (passwords : List String) (logins : List Nat) : List String :=
  passwords.map passwordText ++ logins.map encodedPayload

theorem valid_presented (env : Env) (configured : AuthConfiguration) (ready : requireAuthConfiguration env = .ok configured)
    (headers : Headers) (now : Nat) :
    hasValidSession hmac headers env now = .ok ((presented headers).any fun brought =>
      verify hmac configured.sessionSecret brought.2 (utf8 brought.1) &&
        (payloadOf brought.1).any fun payload => isUnexpiredSessionPayload payload now) := by
  rw [hasValidSession, ready, presented]
  change (match truthy (readCookie (headers.get "cookie") SESSION_COOKIE) with
    | none => (.ok false : Except AppError Bool)
    | some token => .ok (validToken hmac configured.sessionSecret token now)) = _
  cases truthy (readCookie (headers.get "cookie") SESSION_COOKIE) with
  | none => rfl
  | some token =>
      dsimp only
      rw [Option.bind_some, validToken]
      cases tokenParts token with
      | none => rfl
      | some parts =>
          dsimp only
          rw [Option.bind_some]
          cases base64UrlDecode parts.2 with
          | none => rfl
          | some signature => rfl

-- Where nobody makes up a signature, a request is let in with a token that was handed out less than twelve hours ago,
-- and with no other; the signature of the password is of no use.
theorem session_was_issued (env : Env) (configured : AuthConfiguration) (ready : requireAuthConfiguration env = .ok configured)
    (headers : Headers) (now : Nat) (passwords : List String) (logins : List Nat) (dated : ∀ issued ∈ logins, issued ≤ LAST_TIME)
    (unforged : ∀ text signature, presented headers = some (text, signature) →
      hmac (utf8 configured.sessionSecret) (utf8 text) = signature → text ∈ signedTexts passwords logins) :
    hasValidSession hmac headers env now = .ok true ↔
      ∃ issued ∈ logins,
        presented headers = some (encodedPayload issued, sign hmac (encodedPayload issued) configured.sessionSecret) ∧
          now / 1000 < issued / 1000 + SESSION_MAX_AGE_SECONDS := by
  have good : ∀ issued ∈ logins, (payloadOf (encodedPayload issued)).any (fun payload => isUnexpiredSessionPayload payload now) =
      decide (now / 1000 < issued / 1000 + SESSION_MAX_AGE_SECONDS) := by
    intro issued login
    rw [payload_read, Option.any_some, payload_unexpired issued now (dated issued login)]
    rfl
  rw [valid_presented hmac env configured ready headers now]
  constructor
  · intro valid
    have passes := Except.ok.inj valid
    cases brought : presented headers with
    | none =>
        rw [brought] at passes
        cases passes
    | some pair =>
        rw [brought, Option.any_some, Bool.and_eq_true] at passes
        obtain ⟨verified, fresh⟩ := passes
        have signed : hmac (utf8 configured.sessionSecret) (utf8 pair.1) = pair.2 := of_decide_eq_true verified
        rcases List.mem_append.mp (unforged pair.1 pair.2 brought signed) with password | payload
        · obtain ⟨word, _, same⟩ := List.mem_map.mp password
          rw [← same, payloadOf, password_foreign] at fresh
          cases fresh
        · obtain ⟨issued, login, same⟩ := List.mem_map.mp payload
          rw [← same, good issued login] at fresh
          refine ⟨issued, login, ?_, of_decide_eq_true fresh⟩
          rw [sign, same, signed]
  · rintro ⟨issued, login, brought, young⟩
    rw [brought, Option.any_some, good issued login]
    simp [verify, sign, young]

theorem session_was_issued_browser :
    hasValidSession panelHmac browserHeaders panel 1760043199999 = .ok true ↔
      ∃ issued ∈ [1760000000000],
        presented browserHeaders = some (encodedPayload issued, sign panelHmac (encodedPayload issued) "0123456789abcdef0123456789abcdef") ∧
          1760043199999 / 1000 < issued / 1000 + SESSION_MAX_AGE_SECONDS := by
  have ready : requireAuthConfiguration panel = .ok ⟨"correct-horse-battery", "0123456789abcdef0123456789abcdef"⟩ := by decide +kernel
  have brought : (presented browserHeaders).map Prod.fst = some (encodedPayload 1760000000000) := by
    rw [presented, browser_cookies]
    decide +kernel
  refine session_was_issued panelHmac panel _ ready browserHeaders 1760043199999 ["correct-horse-battery"] [1760000000000] (by decide) ?_
  intro text signature here _
  rw [here] at brought
  have same : text = encodedPayload 1760000000000 := Option.some_inj.mp brought
  rw [same, signedTexts]
  exact List.mem_append_right _ List.mem_cons_self

end sessions

end Vacps.Sessions
