import Mathlib
import Vacps.Agent.ControlPlaneVerify
import Vacps.Library.JsonText
import Vacps.Library.Percent

/- server/router.ts of the agent, and the routes server/app.ts registers. -/
set_option autoImplicit false

namespace Vacps.Router

open Server (HostRequest Refusal normalizePath headerMap)
open Library.Percent

-- An object of texts. Writing a text to __proto__ of an object leaves no property.
abbrev Dict : Type := List (List Char × List Char)

def Dict.set (out : Dict) (key value : List Char) : Dict :=
  if key = "__proto__".toList then out
  else if out.any fun entry => entry.1 = key then out.map fun entry => if entry.1 = key then (key, value) else entry
  else out ++ [(key, value)]

inductive Segment where
  | literal (text : List Char)
  | param (key : List Char)
deriving DecidableEq, Repr

def compileSegment (seg : List Char) : Segment :=
  match seg with
  | ':' :: key => .param key
  | text => .literal text

def compilePath (path : String) : List Segment := (path.toList.splitOn '/').map compileSegment

-- pattern.exec: no group of the pattern matches a slash, so it is matched between the slashes.
def exec : List Segment → List (List Char) → Option Dict
  | [], [] => some []
  | .literal text :: later, name :: rest => if name = text then exec later rest else none
  | .param key :: later, name :: rest => if name = [] then none else (exec later rest).map ((key, name) :: ·)
  | _, _ => none

structure CompiledRoute (H : Type) where
  method : String
  pattern : List Segment
  handler : H

def invalidUri : Refusal := ⟨400, "invalid_uri", "Malformed percent-encoding in request URI."⟩

def invalidJson : Refusal := ⟨400, "invalid_json", "Body must be JSON."⟩

def notFound : Refusal := ⟨404, "not_found", "route not found"⟩

def internalError : Refusal := ⟨500, "internal_error", "Internal server error."⟩

def decoded (value : List Char) : Except Refusal (List Char) :=
  match decodeUriComponent value with
  | none => .error invalidUri
  | some text => .ok text

def setPart (out : Dict) (part : List Char) : Except Refusal Dict :=
  if part = [] then .ok out
  else do
    let k ← decoded (part.takeWhile fun char => char ≠ '=')
    let v ← decoded ((part.dropWhile fun char => char ≠ '=').drop 1)
    if k = [] then pure out else pure (out.set k v)

def parseQuery (query : List Char) : Except Refusal Dict :=
  let q := if query.head? = some '?' then query.drop 1 else query
  if q = [] then .ok [] else (q.splitOn '&').foldlM setPart []

inductive Body where
  | undefined
  | json (value : Library.JsonText.Value)
  | text (text : String)

def startsJson (body : List Char) : Bool :=
  let start := body.dropWhile isTrimmed
  start.head? = some '\x7b' || start.head? = some '['

-- none for a body that should be JSON and is not.
def parseBody (raw : HostRequest) (headers : Headers) : Option Body :=
  let ct := (headers.lookup "content-type").getD ""
  if raw.body = "" then some .undefined
  else if decide ("application/json".toList <:+: ct.toList) || startsJson raw.body.toList then
    (Library.JsonText.parse (Library.Utf16.units raw.body)).map .json
  else some (.text raw.body)

structure AppRequest where
  method : String
  path : String
  headers : Headers
  body : Body
  params : Dict
  query : Dict
  raw : HostRequest

section routing

variable {H : Type}

def readParams (groups : Dict) : Except Refusal Dict :=
  groups.foldlM (fun params group => do
    let value ← decoded group.2
    pure (params.set group.1 value)) []

-- The first route with the method whose pattern matches the names of the path, with its params.
def findRoute : List (CompiledRoute H) → String → List (List Char) → Except Refusal (Option (H × Dict))
  | [], _, _ => .ok none
  | route :: rest, method, names =>
      if route.method ≠ method then findRoute rest method names
      else
        match exec route.pattern names with
        | none => findRoute rest method names
        | some groups => do
            let params ← readParams groups
            pure (some (route.handler, params))

-- handleRequest up to the hooks.
def admission (routes : List (CompiledRoute H)) (raw : HostRequest) : Except Refusal (AppRequest × Option H) := do
  let method := raw.method.toUpper
  let path := normalizePath raw.path
  let headers := headerMap raw.headers
  match parseBody raw headers with
  | none => .error invalidJson
  | some body =>
      let query ← parseQuery raw.query.toList
      let found ← findRoute routes method (path.toList.splitOn '/')
      pure (⟨method, path, headers, body, (found.map Prod.snd).getD [], query, raw⟩, found.map Prod.fst)

variable {R : Type} {M : Type → Type} [Monad M] (refuse : Refusal → R)
  (hook : AppRequest → M (Except Unit (Option R))) (run : H → AppRequest → M (Except Unit R))

-- The hook answers with something to end the request there; an error stands for what it or the handler throws.
def handleRequest (routes : List (CompiledRoute H)) (raw : HostRequest) : M R :=
  match admission routes raw with
  | .error refusal => pure (refuse refusal)
  | .ok (request, found) => do
      match ← hook request with
      | .error _ => pure (refuse internalError)
      | .ok (some answer) => pure answer
      | .ok none =>
          match found with
          | none => pure (refuse notFound)
          | some handler =>
              match ← run handler request with
              | .error _ => pure (refuse internalError)
              | .ok answer => pure answer

end routing

-- The handlers of server/app.ts, by what they serve.
inductive Handler where
  | health | metrics | ready | ping | status | info
  | createTask | getTask | getLogs | cancelTask | retryTask
  | readFile | statFile | listDir | writeFile | glob | grep | editFile | applyPatch
  | capabilities | mkdir | deleteFile | moveFile | execCommand | execShell
  | terminalOpenCommand | terminalOpenShell | terminalList | terminalGet | terminalRead | terminalExpect | terminalWrite
  | terminalSendKeys | terminalScreen | terminalResize | terminalSignal | terminalClose
  | listSchedulers | upsertScheduler | deleteScheduler | runSchedule
deriving DecidableEq, Repr

def route (method path : String) (handler : Handler) : CompiledRoute Handler :=
  ⟨method.toUpper, compilePath (normalizePath path), handler⟩

def get (path : String) (handler : Handler) : CompiledRoute Handler := route "GET" path handler

def post (path : String) (handler : Handler) : CompiledRoute Handler := route "POST" path handler

def put (path : String) (handler : Handler) : CompiledRoute Handler := route "PUT" path handler

def delete (path : String) (handler : Handler) : CompiledRoute Handler := route "DELETE" path handler

-- createServer, in the order of registration.
def routes : List (CompiledRoute Handler) :=
  [get "/health" .health, get "/metrics" .metrics, get "/ready" .ready, get "/script/ping" .ping, get "/status" .status,
    get "/info" .info, post "/tasks" .createTask, get "/tasks/:id" .getTask, get "/tasks/:id/logs" .getLogs,
    post "/tasks/:id/cancel" .cancelTask, post "/tasks/:id/retry" .retryTask, get "/fs/read" .readFile,
    get "/fs/stat" .statFile, get "/fs/list" .listDir, post "/fs/write" .writeFile, post "/fs/glob" .glob,
    post "/fs/grep" .grep, post "/fs/edit" .editFile, post "/fs/apply_patch" .applyPatch,
    get "/capabilities" .capabilities, post "/fs/mkdir" .mkdir, post "/fs/delete" .deleteFile, post "/fs/move" .moveFile,
    post "/exec/command" .execCommand, post "/exec/shell" .execShell,
    post "/terminals/open_command" .terminalOpenCommand, post "/terminals/open_shell" .terminalOpenShell,
    get "/terminals" .terminalList, get "/terminals/:id" .terminalGet, post "/terminals/read" .terminalRead,
    post "/terminals/expect" .terminalExpect, post "/terminals/write" .terminalWrite,
    post "/terminals/send_keys" .terminalSendKeys, post "/terminals/screen" .terminalScreen,
    post "/terminals/resize" .terminalResize, post "/terminals/signal" .terminalSignal,
    post "/terminals/close" .terminalClose, get "/schedulers" .listSchedulers, put "/schedulers/:id" .upsertScheduler,
    delete "/schedulers/:id" .deleteScheduler, post "/schedulers/:id/run" .runSchedule]

-- Names that can be decoded make no route fail.
theorem route_found {H : Type} (table : List (CompiledRoute H)) (method : String) (names : List (List Char))
    (readable : ∀ name ∈ names, (decodeUriComponent name).isSome = true) : ∃ found, findRoute table method names = .ok found := by
  have groups : ∀ (pattern : List Segment) (texts : List (List Char)) (matched : Dict), exec pattern texts = some matched →
      ∀ group ∈ matched, group.2 ∈ texts := by
    intro pattern texts
    induction pattern, texts using exec.induct with
    | case1 => intro matched same group member; cases same; cases member
    | case2 later name rest ih =>
        intro matched same group member
        rw [exec, if_pos rfl] at same
        exact List.mem_cons_of_mem _ (ih matched same group member)
    | case3 later name rest text other =>
        intro matched same
        rw [exec, if_neg other] at same
        cases same
    | case4 key later rest =>
        intro matched same
        rw [exec, if_pos rfl] at same
        cases same
    | case5 key later name rest some_ ih =>
        intro matched same group member
        rw [exec, if_neg some_] at same
        obtain ⟨others, deeper, rfl⟩ := Option.map_eq_some_iff.mp same
        rcases List.mem_cons.mp member with rfl | inside
        · exact List.mem_cons_self
        · exact List.mem_cons_of_mem _ (ih others deeper group inside)
    | case6 pattern texts _ _ _ =>
        intro matched same
        rw [exec] at same
        · cases same
        all_goals assumption
  have params : ∀ (matched params : Dict), (∀ group ∈ matched, group.2 ∈ names) →
      ∃ out, matched.foldlM (fun params group => do
        let value ← decoded group.2
        pure (params.set group.1 value)) params = Except.ok out := by
    intro matched
    induction matched with
    | nil => exact fun params _ => ⟨params, rfl⟩
    | cons group rest ih =>
        intro params inside
        obtain ⟨value, text⟩ := Option.isSome_iff_exists.mp (readable group.2 (inside group List.mem_cons_self))
        obtain ⟨out, read⟩ := ih (params.set group.1 value) fun other member => inside other (List.mem_cons_of_mem _ member)
        refine ⟨out, ?_⟩
        rw [List.foldlM_cons, decoded, text]
        exact read
  induction table with
  | nil => exact ⟨none, rfl⟩
  | cons route rest ih =>
      rw [findRoute]
      by_cases other : route.method ≠ method
      · rw [if_pos other]
        exact ih
      · rw [if_neg other]
        cases found : exec route.pattern names with
        | none => exact ih
        | some matched =>
            obtain ⟨out, read⟩ := params matched [] (groups route.pattern names matched found)
            refine ⟨some (route.handler, out), ?_⟩
            change (readParams matched >>= fun params => Except.ok (some (route.handler, params))) = _
            rw [readParams, read]
            rfl

theorem admit_found {H : Type} (table : List (CompiledRoute H)) (raw : HostRequest) (body : Body) (query : Dict)
    (found : Option (H × Dict)) (parsed : parseBody raw (headerMap raw.headers) = some body)
    (asked : parseQuery raw.query.toList = .ok query)
    (routed : findRoute table raw.method.toUpper ((normalizePath raw.path).toList.splitOn '/') = .ok found) :
    ∃ request, admission table raw = .ok (request, found.map Prod.fst) ∧ request.params = (found.map Prod.snd).getD [] ∧
      request.query = query := by
  refine ⟨⟨raw.method.toUpper, normalizePath raw.path, headerMap raw.headers, body, (found.map Prod.snd).getD [], query, raw⟩,
    ?_, rfl, rfl⟩
  rw [admission]
  simp only [parsed, asked]
  change (findRoute table raw.method.toUpper ((normalizePath raw.path).toList.splitOn '/') >>= _) = _
  rw [routed]
  rfl

theorem decoded_form (letters : List Char) : decoded (formText letters) = .ok (letters.map plusForSpace) := by
  rw [decoded, decode_form]

-- What is in a form text can neither end a pair nor a key.
theorem form_plain (letters : List Char) (char : Char) (member : char ∈ formText letters) :
    char ≠ '=' ∧ char ≠ '&' ∧ char ≠ '?' := by
  rcases form_chars letters char member with rfl | rfl | plain_
  · decide
  · decide
  · refine ⟨?_, ?_, ?_⟩
    · rintro rfl
      exact absurd plain_ (by decide)
    · rintro rfl
      exact absurd plain_ (by decide)
    · rintro rfl
      exact absurd plain_ (by decide)

def setPair (out : Dict) (pair : List Char × List Char) : Dict :=
  if pair.1 = [] then out else out.set (pair.1.map plusForSpace) (pair.2.map plusForSpace)

theorem set_part_form (out : Dict) (pair : List Char × List Char) :
    setPart out (formText pair.1 ++ '=' :: formText pair.2) = .ok (setPair out pair) := by
  have key : ∀ char ∈ formText pair.1, decide (char ≠ '=') = true :=
    fun char member => decide_eq_true (form_plain pair.1 char member).1
  have before : (formText pair.1 ++ '=' :: formText pair.2).takeWhile (fun char => decide (char ≠ '=')) = formText pair.1 := by
    rw [List.takeWhile_append_of_pos key]
    exact List.append_nil _
  have behind : (formText pair.1 ++ '=' :: formText pair.2).dropWhile (fun char => decide (char ≠ '=')) = '=' :: formText pair.2 := by
    rw [List.dropWhile_append_of_pos key]
    rfl
  rw [setPart, if_neg (by simp), before, behind, List.drop_succ_cons, List.drop_zero, decoded_form, decoded_form, setPair]
  change (if pair.1.map plusForSpace = [] then Except.ok out else .ok (out.set _ _)) = _
  by_cases empty : pair.1 = []
  · rw [if_pos empty, if_pos (by rw [empty]; rfl)]
  · rw [if_neg empty, if_neg (fun none_ => empty (List.map_eq_nil_iff.mp none_))]

-- parseQuery over what URLSearchParams wrote: every pair, with a plus for each space.
theorem parse_form (pairs : List (List Char × List Char)) : parseQuery (formQuery pairs) = .ok (pairs.foldl setPair []) := by
  cases pairs with
  | nil => rfl
  | cons first rest =>
      let parts := (first :: rest).map fun pair => formText pair.1 ++ '=' :: formText pair.2
      have whole : (formQuery (first :: rest)).splitOn '&' = parts := by
        refine List.splitOn_intercalate '&' ?_ (by simp)
        intro part member inside
        obtain ⟨pair, _, rfl⟩ := List.mem_map.mp member
        rcases List.mem_append.mp inside with key | value
        · exact (form_plain pair.1 '&' key).2.1 rfl
        · rcases List.mem_cons.mp value with equals | value
          · cases equals
          · exact (form_plain pair.2 '&' value).2.1 rfl
      have unmarked : (formQuery (first :: rest)).head? ≠ some '?' := by
        intro marked
        rcases form_query_chars _ '?' (List.mem_of_head? marked) with same | same | same | same | plain_
        · cases same
        · cases same
        · cases same
        · cases same
        · exact absurd plain_ (by decide)
      have some_ := form_query_some (first :: rest) (by simp)
      have folded : ∀ (items : List (List Char × List Char)) (out : Dict),
          (items.map fun pair => formText pair.1 ++ '=' :: formText pair.2).foldlM setPart out = .ok (items.foldl setPair out) := by
        intro items
        induction items with
        | nil => intro out; rfl
        | cons pair later ih =>
            intro out
            rw [List.map_cons, List.foldlM_cons, set_part_form]
            exact ih (setPair out pair)
      rw [parseQuery, if_neg unmarked, if_neg some_, whole]
      exact folded (first :: rest) []

theorem set_fresh (out : Dict) (key value : List Char) (proto : key ≠ "__proto__".toList) (fresh : key ∉ out.map Prod.fst) :
    out.set key value = out ++ [(key, value)] := by
  have other : (out.any fun entry => decide (entry.1 = key)) = false := by
    refine List.any_eq_false.mpr ?_
    intro entry member same
    exact fresh (List.mem_map.mpr ⟨entry, member, of_decide_eq_true same⟩)
  rw [Dict.set, if_neg proto, other]
  rfl

-- Different keys are all kept, in the order they were sent.
theorem pairs_kept (pairs : List (List Char × List Char)) (out : Dict) (named : ∀ pair ∈ pairs, pair.1 ≠ [] ∧
    pair.1.map plusForSpace = pair.1 ∧ pair.1 ≠ "__proto__".toList) (distinct : (out.map Prod.fst ++ pairs.map Prod.fst).Nodup) :
    pairs.foldl setPair out = out ++ pairs.map fun pair => (pair.1, pair.2.map plusForSpace) := by
  induction pairs generalizing out with
  | nil => simp
  | cons pair rest ih =>
      obtain ⟨some_, same, proto⟩ := named pair List.mem_cons_self
      have fresh : pair.1 ∉ out.map Prod.fst := by
        intro member
        exact List.disjoint_of_nodup_append distinct member List.mem_cons_self
      have step : setPair out pair = out ++ [(pair.1, pair.2.map plusForSpace)] := by
        rw [setPair, if_neg some_, same, set_fresh out pair.1 _ proto fresh]
      rw [List.foldl_cons, step, ih _ (fun other member => named other (List.mem_cons_of_mem _ member)) (by simpa using distinct)]
      simp

end Vacps.Router
