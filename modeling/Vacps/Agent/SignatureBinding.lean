import Mathlib.Data.List.TakeWhile
import Vacps.Agent.ControlPlaneVerify
import Vacps.ControlPlane.RequestSignatures
import Vacps.Library.Delimited

/- What a vacps-request-v2 signature is bound to: the two programs build one text for a request, and the
   text of each verifier says which request it is. -/
set_option autoImplicit false

namespace Vacps.SignatureBinding

open Library (intercalate_injective text_upper_upper upper_plain)
open Library.Base64 (Bytes encode encodeUrl sextets letter urlSafe padding)

-- The control plane and the agent encode a digest in the same letters.
theorem control_base64 (bytes : Bytes) : Signatures.base64UrlEncode bytes = String.ofList (encodeUrl bytes) := by
  have letters : ∀ sextet ∈ sextets bytes, urlSafe (letter sextet) ≠ '=' := by
    intro sextet member
    exact (Library.Base64.encode_url_chars bytes _ (List.mem_map_of_mem member)).2.1
  have safe : ∀ char : Char, (if (if char = '+' then '-' else char) = '/' then '_' else if char = '+' then '-' else char) =
      urlSafe char := by
    intro char
    by_cases plus : char = '+'
    · simp [plus, urlSafe]
    · simp [plus, urlSafe]
  have padded : ((padding bytes.length).map urlSafe).filter (fun char => decide (char ≠ '=')) = [] := by
    simp [padding, urlSafe]
  have kept : ((sextets bytes).map fun sextet => urlSafe (letter sextet)).filter (fun char => decide (char ≠ '=')) =
      encodeUrl bytes := by
    refine List.filter_eq_self.mpr ?_
    intro char member
    obtain ⟨sextet, inside, rfl⟩ := List.mem_map.mp member
    simpa using letters sextet inside
  simp only [Signatures.base64UrlEncode, encode, List.map_map, Function.comp_def, safe, List.map_append,
    List.filter_append, padded, kept, List.append_nil]

theorem agent_base64 (bytes : Bytes) : Server.base64UrlEncode bytes = String.ofList (encodeUrl bytes) := by
  have safe : ∀ char : Char, (if char = '+' then '-' else if char = '/' then '_' else char) = urlSafe char :=
    fun char => rfl
  have padded : ((padding bytes.length).map urlSafe).reverse = padding bytes.length := by
    simp [padding, urlSafe]
  have cut : ((encodeUrl bytes).reverse.dropWhile fun char => char = '=') = (encodeUrl bytes).reverse := by
    cases shape : (encodeUrl bytes).reverse with
    | nil => rfl
    | cons last before =>
        have written : last ∈ encodeUrl bytes := List.mem_reverse.mp (shape ▸ List.mem_cons_self)
        have other := (Library.Base64.encode_url_chars bytes last written).2.1
        exact List.dropWhile_cons_of_neg (by simpa using other)
  have dropped : (padding bytes.length ++ (encodeUrl bytes).reverse).dropWhile (fun char => decide (char = '=')) =
      (encodeUrl bytes).reverse := by
    rw [List.dropWhile_append_of_pos (by simp [padding]), cut]
  have shape : (encode bytes).map urlSafe = encodeUrl bytes ++ (padding bytes.length).map urlSafe := by
    simp only [encode, List.map_append, List.map_map, Function.comp_def, encodeUrl]
  simp only [Server.base64UrlEncode, safe, shape, List.reverse_append, padded, dropped, List.reverse_reverse]

def digestText (web : Web) (body : String) : String := String.ofList (encodeUrl (web.sha256 (utf8 body)))

theorem digest_injective (web : Web) (collisionFree : ∀ a b, web.sha256 a = web.sha256 b → a = b) (a b : String)
    (same : digestText web a = digestText web b) : a = b := by
  have letters : encodeUrl (web.sha256 (utf8 a)) = encodeUrl (web.sha256 (utf8 b)) := String.ofList_injective same
  exact utf8_injective a b (collisionFree _ _ (Library.Base64.encode_url_injective _ _ letters))

theorem digest_plain (web : Web) (body : String) : '\n' ∉ (digestText web body).toList := by
  rw [digestText, String.toList_ofList]
  intro written
  exact (Library.Base64.encode_url_chars _ '\n' written).2.2 rfl

-- A request as it reaches a verifier: the request line, the three headers it reads, and the body.
structure Received where
  method : String
  target : String
  backendId : String
  timestamp : String
  nonce : String
  body : String

-- No field of a request line or a header holds a line break, and a request-target starts at the root.
structure Received.Http (received : Received) : Prop where
  method : '\n' ∉ received.method.toList
  target : '\n' ∉ received.target.toList
  rooted : received.target.toList.head? = some '/'
  backendId : '\n' ∉ received.backendId.toList
  timestamp : '\n' ∉ received.timestamp.toList
  nonce : '\n' ∉ received.nonce.toList

def pathOf (target : String) : List Char := target.toList.takeWhile fun char => char ≠ '?'

def queryOf (target : String) : List Char := (target.toList.dropWhile fun char => char ≠ '?').drop 1

-- The router's parseQuery too drops a question mark the query starts with.
def readQuery (query : List Char) : List Char := if query.head? = some '?' then query.drop 1 else query

-- The same request to the router, whatever the case of its method and the marks before its query.
structure Received.Same (a b : Received) : Prop where
  method : a.method.toUpper = b.method.toUpper
  path : pathOf a.target = pathOf b.target
  query : readQuery (queryOf a.target) = readQuery (queryOf b.target)
  backendId : a.backendId = b.backendId
  timestamp : a.timestamp = b.timestamp
  nonce : a.nonce = b.nonce
  body : a.body = b.body

-- The text the agent's verifier builds for the request; it does not look at the signature.
def agentCanonical (web : Web) (received : Received) : String :=
  Server.canonicalRequest web (Server.hookRequest ⟨received.method, received.target, [], received.body⟩)
    ⟨received.backendId, received.timestamp, received.nonce, ""⟩

def search (query : List Char) : List Char := if query = [] then [] else '?' :: query

theorem target_from_parts (path query : List Char) (rooted : path ≠ []) :
    (Server.requestTargetFromParts (String.ofList path) (String.ofList query)).toList =
      path ++ search (readQuery query) := by
  have nonempty : ∀ chars : List Char, String.ofList chars = "" ↔ chars = [] := by
    intro chars
    rw [← String.toList_inj, String.toList_ofList]
    rfl
  by_cases empty : query = []
  · subst empty
    simp [Server.requestTargetFromParts, nonempty, rooted, readQuery, search]
  · by_cases marked : query.head? = some '?'
    · by_cases bare : query.tail = []
      · simp [Server.requestTargetFromParts, nonempty, rooted, empty, marked, readQuery, search, bare]
      · simp [Server.requestTargetFromParts, nonempty, rooted, empty, marked, readQuery, search, bare]
    · simp [Server.requestTargetFromParts, nonempty, rooted, empty, marked, readQuery, search]

theorem search_injective (a b c d : List Char) (plainA : '?' ∉ a) (plainC : '?' ∉ c)
    (same : a ++ search b = c ++ search d) : a = c ∧ b = d := by
  have start : ∀ path query : List Char, '?' ∉ path → (path ++ search query).takeWhile (fun char => decide (char ≠ '?')) = path := by
    intro path query plain
    rw [List.takeWhile_append_of_pos]
    · unfold search
      split <;> simp
    · intro char member
      exact decide_eq_true fun mark => plain (mark ▸ member)
  have paths : a = c := by rw [← start a b plainA, same, start c d plainC]
  rw [paths, List.append_cancel_left_eq] at same
  refine ⟨paths, ?_⟩
  unfold search at same
  split at same <;> split at same <;> simp_all

theorem path_plain (target : String) : '?' ∉ pathOf target := by
  intro member
  have before := List.all_eq_true.mp (List.all_takeWhile (p := fun char => decide (char ≠ '?'))) '?' member
  exact absurd rfl (of_decide_eq_true before)

theorem path_rooted (target : String) (rooted : target.toList.head? = some '/') : pathOf target ≠ [] := by
  cases chars : target.toList with
  | nil => simp [chars] at rooted
  | cons first rest =>
      rw [chars] at rooted
      have slash : first = '/' := Option.some.inj rooted
      simp [pathOf, chars, slash]

-- What a signature is over, with the target in the writing of the program that builds the text.
structure Fields where
  issuer : String
  method : String
  target : String
  backendId : String
  timestamp : String
  nonce : String
  body : String

def Fields.canonical (web : Web) (fields : Fields) : String :=
  "\n".intercalate ["vacps-request-v2", fields.issuer, fields.method.toUpper, fields.target, fields.backendId,
    fields.timestamp, fields.nonce, digestText web fields.body]

structure Fields.Plain (fields : Fields) : Prop where
  issuer : '\n' ∉ fields.issuer.toList
  method : '\n' ∉ fields.method.toList
  target : '\n' ∉ fields.target.toList
  backendId : '\n' ∉ fields.backendId.toList
  timestamp : '\n' ∉ fields.timestamp.toList
  nonce : '\n' ∉ fields.nonce.toList

structure Fields.Alike (a b : Fields) : Prop where
  issuer : a.issuer = b.issuer
  method : a.method.toUpper = b.method.toUpper
  target : a.target = b.target
  backendId : a.backendId = b.backendId
  timestamp : a.timestamp = b.timestamp
  nonce : a.nonce = b.nonce
  body : a.body = b.body

theorem canonical_injective (web : Web) (collisionFree : ∀ a b, web.sha256 a = web.sha256 b → a = b) (a b : Fields)
    (plainA : a.Plain) (plainB : b.Plain) (same : a.canonical web = b.canonical web) : a.Alike b := by
  have whole : ∀ fields : Fields, fields.Plain →
      ∀ text ∈ ["vacps-request-v2", fields.issuer, fields.method.toUpper, fields.target, fields.backendId,
        fields.timestamp, fields.nonce, digestText web fields.body], '\n' ∉ text.toList := by
    intro fields plain text member
    simp only [List.mem_cons, List.not_mem_nil, or_false] at member
    rcases member with rfl | rfl | rfl | rfl | rfl | rfl | rfl | rfl
    · decide
    · exact plain.issuer
    · exact upper_plain fields.method plain.method
    · exact plain.target
    · exact plain.backendId
    · exact plain.timestamp
    · exact plain.nonce
    · exact digest_plain web fields.body
  have equal := intercalate_injective '\n' _ _ ⟨List.cons_ne_nil _ _, List.cons_ne_nil _ _⟩
    ⟨whole a plainA, whole b plainB⟩ same
  simp only [List.cons.injEq, and_true, true_and] at equal
  obtain ⟨issuer, method, target, backendId, timestamp, nonce, body⟩ := equal
  exact ⟨issuer, method, target, backendId, timestamp, nonce, digest_injective web collisionFree a.body b.body body⟩

def targetRead (target : String) : String :=
  String.ofList (pathOf target ++ search (readQuery (queryOf target)))

def Received.fields (received : Received) : Fields where
  issuer := "control"
  method := received.method
  target := targetRead received.target
  backendId := received.backendId
  timestamp := received.timestamp
  nonce := received.nonce
  body := received.body

theorem target_plain (target : String) (plain : '\n' ∉ target.toList) : '\n' ∉ (targetRead target).toList := by
  have path : ∀ char ∈ pathOf target, char ∈ target.toList := fun char member => (List.takeWhile_prefix _).subset member
  have query : ∀ char ∈ readQuery (queryOf target), char ∈ target.toList := by
    intro char member
    have inside : char ∈ queryOf target := by
      unfold readQuery at member
      split at member
      · exact List.mem_of_mem_drop member
      · exact member
    exact (List.dropWhile_suffix _).subset (List.mem_of_mem_drop inside)
  rw [targetRead, String.toList_ofList, List.mem_append]
  rintro (here | there)
  · exact plain (path _ here)
  · unfold search at there
    split at there
    · cases there
    · rcases List.mem_cons.mp there with mark | inside
      · exact absurd mark (by decide)
      · exact plain (query _ inside)

theorem received_plain (received : Received) (http : received.Http) : received.fields.Plain :=
  ⟨by change '\n' ∉ "control".toList; decide, http.method, target_plain _ http.target, http.backendId, http.timestamp,
    http.nonce⟩

theorem agent_canonical (web : Web) (received : Received) (rooted : received.target.toList.head? = some '/') :
    agentCanonical web received = received.fields.canonical web := by
  have target := target_from_parts (pathOf received.target) (queryOf received.target) (path_rooted _ rooted)
  have written : Server.requestTargetFromParts (String.ofList (pathOf received.target))
      (String.ofList (queryOf received.target)) = targetRead received.target := by
    rw [← String.toList_inj, target, targetRead, String.toList_ofList]
  simp only [pathOf, queryOf] at written
  simp only [agentCanonical, Server.hookRequest, Server.canonicalRequest, Server.adaptInboundRequest, agent_base64,
    text_upper_upper, written]
  rfl

theorem control_canonical (web : Web) (fields : Fields) (url : String) (parsed : Url) (parses : web.url url = some parsed)
    (target : fields.target = parsed.pathname ++ parsed.search) :
    Signatures.canonicalRequest web fields.issuer fields.method url fields.backendId fields.timestamp fields.nonce
      fields.body = .ok (fields.canonical web) := by
  simp only [Signatures.canonicalRequest, Signatures.requestTargetOf, Signatures.platformCall, parses,
    Signatures.sha256Base64Url, control_base64, Fields.canonical, target]
  rfl

-- What the agent cuts a request-target into is the URL's path and query, but for a mark the query starts with.
theorem wire_read (url : Url) (unmarked : ∀ query ∈ url.query, query.toList.head? ≠ some '?') :
    targetRead url.wire = url.pathname ++ url.search := by
  have path : ∀ char ∈ url.pathname.toList, decide (char ≠ '?') = true := by
    intro char member
    exact decide_eq_true fun mark => url.path_plain.1 (mark ▸ member)
  rw [← String.toList_inj, targetRead, String.toList_ofList, String.toList_append]
  cases query : url.query with
  | none =>
      have wire : url.wire.toList = url.pathname.toList := by simp [Url.wire, query]
      have taken : pathOf url.wire = url.pathname.toList := by
        rw [pathOf, wire]
        exact List.takeWhile_eq_self_iff.mpr path
      have left : queryOf url.wire = [] := by
        rw [queryOf, wire, List.dropWhile_eq_nil_iff.mpr path]
        rfl
      simp [taken, left, readQuery, search, Url.search, query]
  | some text =>
      have wire : url.wire.toList = url.pathname.toList ++ '?' :: text.toList := by simp [Url.wire, query]
      have taken : pathOf url.wire = url.pathname.toList := by
        rw [pathOf, wire, List.takeWhile_append_of_pos path]
        simp
      have left : queryOf url.wire = text.toList := by
        rw [queryOf, wire, List.dropWhile_append_of_pos path]
        simp
      have first := unmarked text query
      by_cases empty : text = ""
      · simp [taken, left, readQuery, search, Url.search, query, empty]
      · simp [taken, left, readQuery, search, Url.search, query, empty, first]

theorem alike_same (a b : Received) : a.fields.Alike b.fields ↔ a.Same b := by
  constructor
  · intro alike
    have targets : targetRead a.target = targetRead b.target := alike.target
    rw [targetRead, targetRead] at targets
    obtain ⟨path, query⟩ := search_injective _ _ _ _ (path_plain _) (path_plain _) (String.ofList_injective targets)
    exact ⟨alike.method, path, query, alike.backendId, alike.timestamp, alike.nonce, alike.body⟩
  · intro same
    have targets : targetRead a.target = targetRead b.target := by rw [targetRead, targetRead, same.path, same.query]
    exact ⟨rfl, same.method, targets, same.backendId, same.timestamp, same.nonce, same.body⟩

theorem agent_binding (web : Web) (collisionFree : ∀ a b, web.sha256 a = web.sha256 b → a = b) (a b : Received)
    (httpA : a.Http) (httpB : b.Http) : agentCanonical web a = agentCanonical web b ↔ a.Same b := by
  rw [agent_canonical web a httpA.rooted, agent_canonical web b httpB.rooted, ← alike_same a b]
  constructor
  · exact canonical_injective web collisionFree a.fields b.fields (received_plain a httpA) (received_plain b httpB)
  · intro alike
    simp only [Fields.canonical, alike.issuer, alike.method, alike.target, alike.backendId, alike.timestamp, alike.nonce,
      alike.body]

theorem required_header_plain (headers : Headers) (name value : String)
    (plain : ∀ field ∈ headers, '\n' ∉ field.2.toList) (read : Server.requiredHeader headers name = .ok value) :
    '\n' ∉ value.toList := by
  have trimmed : ∀ text : String, '\n' ∉ text.toList → '\n' ∉ (trim text).toList := by
    intro text plain member
    rw [trim, String.toList_ofList] at member
    have inside := (List.dropWhile_suffix _).subset (List.mem_reverse.mp member)
    exact plain ((List.dropWhile_suffix _).subset (List.mem_reverse.mp inside))
  unfold Server.requiredHeader at read
  split at read
  · rename_i direct found
    obtain ⟨stored, -⟩ := Option.filter_eq_some_iff.mp found
    obtain ⟨before, after, shape, -⟩ := List.lookup_eq_some_iff.mp stored
    rw [← Except.ok.inj read]
    exact trimmed direct (plain (name, direct) (shape ▸ List.mem_append_right _ List.mem_cons_self))
  · split at read
    · rename_i field direct found
      rw [← Except.ok.inj read]
      exact trimmed direct (plain (field, direct) (List.mem_of_find?_eq_some found))
    · cases read

theorem set_header_plain (out : Headers) (new : String × String) (done : ∀ field ∈ out, '\n' ∉ field.2.toList)
    (plain : '\n' ∉ new.2.toList) : ∀ field ∈ Server.setHeader out new, '\n' ∉ field.2.toList := by
  intro field member
  unfold Server.setHeader at member
  dsimp only at member
  split at member
  · obtain ⟨old, inside, rfl⟩ := List.mem_map.mp member
    split
    · exact plain
    · exact done old inside
  · rcases List.mem_append.mp member with before | last
    · exact done field before
    · rw [List.mem_singleton.mp last]
      exact plain

theorem header_map_plain (headers : Headers) (plain : ∀ field ∈ headers, '\n' ∉ field.2.toList) :
    ∀ field ∈ Server.headerMap headers, '\n' ∉ field.2.toList := by
  have folds : ∀ (headers out : Headers), (∀ field ∈ headers, '\n' ∉ field.2.toList) →
      (∀ field ∈ out, '\n' ∉ field.2.toList) → ∀ field ∈ headers.foldl Server.setHeader out, '\n' ∉ field.2.toList := by
    intro headers
    induction headers with
    | nil => exact fun out _ done => done
    | cons first rest ih =>
        intro out plain done
        exact ih _ (fun field member => plain field (List.mem_cons_of_mem _ member))
          (set_header_plain out first done (plain first List.mem_cons_self))
  exact folds headers [] plain (fun field member => absurd member List.not_mem_nil)

-- What the server took in obeys HTTP: no line break in the request line or in a header's value.
structure Inbound (inbound : Server.ServerRequest) : Prop where
  method : '\n' ∉ inbound.method.toList
  target : '\n' ∉ inbound.url.toList
  rooted : inbound.url.toList.head? = some '/'
  headers : ∀ field ∈ inbound.headers, '\n' ∉ field.2.toList

def received (inbound : Server.ServerRequest) (signed : Server.SignedRequest) : Received :=
  ⟨inbound.method, inbound.url, signed.backendId, signed.timestamp, signed.nonce, inbound.body⟩

theorem inbound_http (config : Server.AuthConfig) (now : Int) (inbound : Server.ServerRequest)
    (signed : Server.SignedRequest) (obeys : Inbound inbound)
    (read : Server.SignedHeadersRead config.BACKEND_ID now (Server.hookRequest inbound).headers signed) :
    (received inbound signed).Http := by
  have headers := header_map_plain inbound.headers obeys.headers
  exact ⟨obeys.method, obeys.target, obeys.rooted, required_header_plain _ _ _ headers read.backendId,
    required_header_plain _ _ _ headers read.timestamp, required_header_plain _ _ _ headers read.nonce⟩

-- One signature gets two requests past the agent's hook only when they are one request to the router.
theorem verified_same (web : Web) (collisionFree : ∀ a b, web.sha256 a = web.sha256 b → a = b)
    (bound : ∀ key message other signature, web.ed25519Verify key message signature = some true →
      web.ed25519Verify key other signature = some true → message = other)
    (config : Server.AuthConfig) (now later : Int) (a b : Server.ServerRequest) (signedA signedB : Server.SignedRequest)
    (obeysA : Inbound a) (obeysB : Inbound b) (passesA : Server.preValidation web config now a = .claims signedA)
    (passesB : Server.preValidation web config later b = .claims signedB) (one : signedA.signature = signedB.signature) :
    (received a signedA).Same (received b signedB) := by
  obtain ⟨readA, keyA, configuredA, pubA, decodedA, sigA, signatureA, genuineA⟩ :=
    Server.claims_verified web config now a signedA passesA
  obtain ⟨readB, keyB, configuredB, pubB, decodedB, sigB, signatureB, genuineB⟩ :=
    Server.claims_verified web config later b signedB passesB
  have sameKey : keyA = keyB := Option.some.inj (configuredA.symm.trans configuredB)
  have samePub : pubA = pubB := Option.some.inj (decodedA.symm.trans (sameKey ▸ decodedB))
  have sameSig : sigA = sigB := Option.some.inj (signatureA.symm.trans (one ▸ signatureB))
  rw [samePub, sameSig] at genuineA
  have texts := utf8_injective _ _ (bound _ _ _ _ genuineA genuineB)
  have httpA := inbound_http config now a signedA obeysA readA
  have httpB := inbound_http config later b signedB obeysB readB
  exact (agent_binding web collisionFree _ _ httpA httpB).mp texts

theorem url_search (url : Url) : url.search.toList = search (url.query.getD "").toList := by
  cases query : url.query with
  | none => simp [Url.search, query, search]
  | some text =>
      by_cases empty : text = ""
      · simp [Url.search, query, search, empty]
      · simp [Url.search, query, search, empty]

-- The control plane reads a request's target off its URL.
theorem control_binding (web : Web) (collisionFree : ∀ a b, web.sha256 a = web.sha256 b → a = b) (a b : Fields)
    (urlA urlB : Url) (targetA : a.target = urlA.pathname ++ urlA.search) (targetB : b.target = urlB.pathname ++ urlB.search)
    (plainA : a.Plain) (plainB : b.Plain) (same : a.canonical web = b.canonical web) :
    a.method.toUpper = b.method.toUpper ∧ urlA.pathname = urlB.pathname ∧ urlA.search = urlB.search ∧
      a.backendId = b.backendId ∧ a.timestamp = b.timestamp ∧ a.nonce = b.nonce ∧ a.body = b.body := by
  have alike := canonical_injective web collisionFree a b plainA plainB same
  have texts : (urlA.pathname ++ urlA.search).toList = (urlB.pathname ++ urlB.search).toList := by
    rw [← targetA, ← targetB, alike.target]
  rw [String.toList_append, String.toList_append, url_search, url_search] at texts
  obtain ⟨path, query⟩ := search_injective _ _ _ _ urlA.path_plain.1 urlB.path_plain.1 texts
  have searches : urlA.search.toList = urlB.search.toList := by rw [url_search, url_search, query]
  exact ⟨alike.method, String.toList_inj.mp path, String.toList_inj.mp searches, alike.backendId, alike.timestamp,
    alike.nonce, alike.body⟩

-- A digest that is the text, and signatures that are the message they are for.
def transparent : Web where
  url := fun text =>
    if text = "https://agent.example/fs/read?path=a" then some ⟨"/fs/read", some "path=a", by decide, by decide, by simp⟩
    else if text = "https://agent.example/fs/read??path=a" then
      some ⟨"/fs/read", some "?path=a", by decide, by decide, by simp⟩
    else none
  sha256 := fun bytes => bytes
  ed25519Sign := fun _ message => some message
  ed25519Verify := fun _ message signature => some (signature == message)

def read (method target : String) : Received := ⟨method, target, "backend", "1760000000", "AAAAAAAAAAAAAAAA", ""⟩

end Vacps.SignatureBinding
