import Vacps.Agent.Router
import Vacps.Library.Url

/- registry/backend-client.ts of the control worker: the requests it sends, and what the agent's router makes of
   them. -/
set_option autoImplicit false

namespace Vacps.BackendClient

open Library Library.Percent Library.Url
open Router (Dict Handler CompiledRoute AppRequest)
open Server (ServerRequest adaptInboundRequest)

-- What JSON.stringify wrote for a value.
structure JsonBody where
  text : String
  reads : (JsonText.parse (Utf16.units text)).isSome = true

-- The calls whose arguments are all in the body.
inductive Operation where
  | createTask | glob | grep | editFile | writeFile | applyPatch | moveFile | deleteFile | mkdir | execCommand | execShell
  | terminalOpenCommand | terminalOpenShell | terminalRead | terminalWrite | terminalExpect | terminalSendKeys
  | terminalScreen | terminalResize | terminalSignal | terminalClose
deriving DecidableEq, Repr

def Operation.path : Operation → String
  | .createTask => "/tasks"
  | .glob => "/fs/glob"
  | .grep => "/fs/grep"
  | .editFile => "/fs/edit"
  | .writeFile => "/fs/write"
  | .applyPatch => "/fs/apply_patch"
  | .moveFile => "/fs/move"
  | .deleteFile => "/fs/delete"
  | .mkdir => "/fs/mkdir"
  | .execCommand => "/exec/command"
  | .execShell => "/exec/shell"
  | .terminalOpenCommand => "/terminals/open_command"
  | .terminalOpenShell => "/terminals/open_shell"
  | .terminalRead => "/terminals/read"
  | .terminalWrite => "/terminals/write"
  | .terminalExpect => "/terminals/expect"
  | .terminalSendKeys => "/terminals/send_keys"
  | .terminalScreen => "/terminals/screen"
  | .terminalResize => "/terminals/resize"
  | .terminalSignal => "/terminals/signal"
  | .terminalClose => "/terminals/close"

def Operation.handler : Operation → Handler
  | .createTask => .createTask
  | .glob => .glob
  | .grep => .grep
  | .editFile => .editFile
  | .writeFile => .writeFile
  | .applyPatch => .applyPatch
  | .moveFile => .moveFile
  | .deleteFile => .deleteFile
  | .mkdir => .mkdir
  | .execCommand => .execCommand
  | .execShell => .execShell
  | .terminalOpenCommand => .terminalOpenCommand
  | .terminalOpenShell => .terminalOpenShell
  | .terminalRead => .terminalRead
  | .terminalWrite => .terminalWrite
  | .terminalExpect => .terminalExpect
  | .terminalSendKeys => .terminalSendKeys
  | .terminalScreen => .terminalScreen
  | .terminalResize => .terminalResize
  | .terminalSignal => .terminalSignal
  | .terminalClose => .terminalClose

-- The stream is 'stdout' or 'stderr'; numbers are whole.
structure LogsQuery where
  stream : Option String
  offset : Option Int
  maxBytes : Option Int
  previewMaxBytes : Option Int
  expectedStreamVersion : Option Units

structure ReadInput where
  path : Units
  startLine : Option Int
  endLine : Option Int
  maxBytes : Option Int
  encoding : Option String

structure ListInput where
  path : Units
  limit : Option Int
  includeHidden : Bool
  cursor : Option Units

structure TerminalFilter where
  status : Option Units
  created_after : Option Units

inductive Call where
  | health
  | metrics
  | getCapabilities
  | getTask (taskId : Units)
  | getLogs (taskId : Units) (query : LogsQuery)
  | cancelTask (taskId : Units)
  | retryTask (taskId : Units)
  | terminalGet (terminalId : Units)
  | upsertScheduler (id : Units) (schedule : JsonBody)
  | deleteScheduler (id : Units)
  | runSchedule (id : Units) (task : JsonBody)
  | readFile (input : ReadInput)
  | statFile (path : Units)
  | listDir (input : ListInput)
  | terminalList (input : TerminalFilter)
  | post (operation : Operation) (body : JsonBody)

-- An argument of URLSearchParams: a surrogate that stands alone is replaced.
def textParam (value : Units) : List Char := Utf16.chars value

def numberParam (value : Int) : List Char := (toString value).toList

def truthyParam (value : Option Units) : Option (List Char) := (value.filter fun text => text ≠ []).map textParam

-- The parameters in the order they are set, with those that are not.
def LogsQuery.entries (query : LogsQuery) : List (String × Option (List Char)) :=
  [("stream", (truthy query.stream).map String.toList), ("offset", query.offset.map numberParam),
    ("max_bytes", query.maxBytes.map numberParam), ("preview_max_bytes", query.previewMaxBytes.map numberParam),
    ("expected_stream_version", truthyParam query.expectedStreamVersion)]

def ReadInput.entries (input : ReadInput) : List (String × Option (List Char)) :=
  [("path", some (textParam input.path)), ("start_line", input.startLine.map numberParam),
    ("end_line", input.endLine.map numberParam), ("max_bytes", input.maxBytes.map numberParam),
    ("encoding", (truthy input.encoding).map String.toList)]

def ListInput.entries (input : ListInput) : List (String × Option (List Char)) :=
  [("path", some (textParam input.path)), ("limit", input.limit.map numberParam),
    ("include_hidden", if input.includeHidden then some "true".toList else none), ("cursor", truthyParam input.cursor)]

def TerminalFilter.entries (input : TerminalFilter) : List (String × Option (List Char)) :=
  [("status", input.status.map textParam), ("created_after", input.created_after.map textParam)]

def Call.entries : Call → List (String × Option (List Char))
  | .getLogs _ query => query.entries
  | .readFile input => input.entries
  | .statFile path => [("path", some (textParam path))]
  | .listDir input => input.entries
  | .terminalList input => input.entries
  | _ => []

def searchParams (entries : List (String × Option (List Char))) : List (List Char × List Char) :=
  entries.filterMap fun entry => entry.2.map (entry.1.toList, ·)

-- params.size > 0 ? `?${params.toString()}` : ''
def suffix (entries : List (String × Option (List Char))) : List Char :=
  if searchParams entries = [] then [] else '?' :: formQuery (searchParams entries)

-- The path of the request; none where encodeURIComponent throws.
def Call.path (call : Call) : Option (List Char) :=
  match call with
  | .health => some "/health".toList
  | .metrics => some "/metrics".toList
  | .getCapabilities => some "/capabilities".toList
  | .getTask taskId => (encodeUriComponent taskId).map fun id => "/tasks/".toList ++ id
  | .getLogs taskId query => (encodeUriComponent taskId).map fun id => "/tasks/".toList ++ id ++ "/logs".toList ++ suffix query.entries
  | .cancelTask taskId => (encodeUriComponent taskId).map fun id => "/tasks/".toList ++ id ++ "/cancel".toList
  | .retryTask taskId => (encodeUriComponent taskId).map fun id => "/tasks/".toList ++ id ++ "/retry".toList
  | .terminalGet terminalId => (encodeUriComponent terminalId).map fun id => "/terminals/".toList ++ id
  | .upsertScheduler id _ => (encodeUriComponent id).map fun id => "/schedulers/".toList ++ id
  | .deleteScheduler id => (encodeUriComponent id).map fun id => "/schedulers/".toList ++ id
  | .runSchedule id _ => (encodeUriComponent id).map fun id => "/schedulers/".toList ++ id ++ "/run".toList
  | .readFile input => some ("/fs/read?".toList ++ formQuery (searchParams input.entries))
  | .statFile path => some ("/fs/stat?".toList ++ formQuery (searchParams [("path", some (textParam path))]))
  | .listDir input => some ("/fs/list?".toList ++ formQuery (searchParams input.entries))
  | .terminalList input => some ("/terminals".toList ++ suffix input.entries)
  | .post operation _ => some operation.path.toList

def Call.method : Call → String
  | .cancelTask _ => "POST"
  | .retryTask _ => "POST"
  | .upsertScheduler _ _ => "PUT"
  | .deleteScheduler _ => "DELETE"
  | .runSchedule _ _ => "POST"
  | .post _ _ => "POST"
  | _ => "GET"

def Call.body : Call → String
  | .cancelTask _ => "\x7b\x7d"
  | .retryTask _ => "\x7b\x7d"
  | .upsertScheduler _ schedule => schedule.text
  | .runSchedule _ task => task.text
  | .post _ body => body.text
  | _ => ""

-- new URL(path, ensureTrailingSlash(baseUrl)): only the host of the base is left.
def joinBackendUrl (path : List Char) : Option Target := resolve (if path.head? = some '/' then path else '/' :: path)

-- The request as it leaves the control plane, with the headers it is signed with.
def Call.request (call : Call) (headers : Headers) : Option ServerRequest := do
  let path ← call.path
  let target ← joinBackendUrl path
  pure ⟨call.method, String.ofList target.text, headers, call.body⟩

-- The handler of the agent a call is meant for, and the id it is to see.
def Call.handler : Call → Handler
  | .health => .health
  | .metrics => .metrics
  | .getCapabilities => .capabilities
  | .getTask _ => .getTask
  | .getLogs _ _ => .getLogs
  | .cancelTask _ => .cancelTask
  | .retryTask _ => .retryTask
  | .terminalGet _ => .terminalGet
  | .upsertScheduler _ _ => .upsertScheduler
  | .deleteScheduler _ => .deleteScheduler
  | .runSchedule _ _ => .runSchedule
  | .readFile _ => .readFile
  | .statFile _ => .statFile
  | .listDir _ => .listDir
  | .terminalList _ => .terminalList
  | .post operation _ => operation.handler

def Call.id : Call → Option Units
  | .getTask taskId => some taskId
  | .getLogs taskId _ => some taskId
  | .cancelTask taskId => some taskId
  | .retryTask taskId => some taskId
  | .terminalGet terminalId => some terminalId
  | .upsertScheduler id _ => some id
  | .deleteScheduler id => some id
  | .runSchedule id _ => some id
  | _ => none

-- The names of a call's path, with its id as it is spelled there.
def Call.names (call : Call) (id : List Char) : List (List Char) :=
  match call with
  | .health => ["health".toList]
  | .metrics => ["metrics".toList]
  | .getCapabilities => ["capabilities".toList]
  | .getTask _ => ["tasks".toList, id]
  | .getLogs _ _ => ["tasks".toList, id, "logs".toList]
  | .cancelTask _ => ["tasks".toList, id, "cancel".toList]
  | .retryTask _ => ["tasks".toList, id, "retry".toList]
  | .terminalGet _ => ["terminals".toList, id]
  | .upsertScheduler _ _ => ["schedulers".toList, id]
  | .deleteScheduler _ => ["schedulers".toList, id]
  | .runSchedule _ _ => ["schedulers".toList, id, "run".toList]
  | .readFile _ => ["fs".toList, "read".toList]
  | .statFile _ => ["fs".toList, "stat".toList]
  | .listDir _ => ["fs".toList, "list".toList]
  | .terminalList _ => ["terminals".toList]
  | .post operation _ => (operation.path.toList.splitOn '/').drop 1

def Call.query (call : Call) : Option (List Char) :=
  if searchParams call.entries = [] then none else some (formQuery (searchParams call.entries))

theorem query_suffix (call : Call) : call.query.elim [] ('?' :: ·) = suffix call.entries := by
  rw [Call.query, suffix]
  split <;> rfl

def operations : List Operation :=
  [.createTask, .glob, .grep, .editFile, .writeFile, .applyPatch, .moveFile, .deleteFile, .mkdir, .execCommand, .execShell,
    .terminalOpenCommand, .terminalOpenShell, .terminalRead, .terminalWrite, .terminalExpect, .terminalSendKeys,
    .terminalScreen, .terminalResize, .terminalSignal, .terminalClose]

theorem operation_listed (operation : Operation) : operation ∈ operations := by cases operation <;> decide

theorem operation_names (operation : Operation) :
    operation.path.toList = rooted '/' ((operation.path.toList.splitOn '/').drop 1) := by
  have all : ∀ operation ∈ operations,
      operation.path.toList = rooted '/' ((operation.path.toList.splitOn '/').drop 1) := by decide
  exact all operation (operation_listed operation)

-- Where an id stands in a path, it is spelled as encodeURIComponent spells it.
theorem path_names (call : Call) (path : List Char) (sent : call.path = some path) :
    ∃ id, (∀ original ∈ call.id, encodeUriComponent original = some id) ∧ (call.id = none → id = []) ∧
      path = reference (call.names id) call.query := by
  have spelled_ : ∀ (original : Units) (write : List Char → List Char) (names : List Char → List (List Char)) (query : Option (List Char)),
      (encodeUriComponent original).map write = some path → (∀ id, write id = reference (names id) query) →
      ∃ id, (∀ other ∈ some original, encodeUriComponent other = some id) ∧ (some original = none → id = []) ∧
        path = reference (names id) query := by
    intro original write names query mapped shape
    obtain ⟨id, encoded, rfl⟩ := Option.map_eq_some_iff.mp mapped
    exact ⟨id, fun other same => Option.some_inj.mp same ▸ encoded, fun none_ => (by cases none_), shape id⟩
  have fixed : ∀ names query, path = reference names query →
      ∃ id : List Char, (∀ original ∈ (none : Option Units), encodeUriComponent original = some id) ∧
        ((none : Option Units) = none → id = []) ∧ path = reference names query :=
    fun names query shape => ⟨[], fun other same => (by cases same), fun _ => rfl, shape⟩
  cases call with
  | health => exact fixed _ _ (Option.some_inj.mp sent).symm
  | metrics => exact fixed _ _ (Option.some_inj.mp sent).symm
  | getCapabilities => exact fixed _ _ (Option.some_inj.mp sent).symm
  | getTask taskId => exact spelled_ taskId _ (fun id => ["tasks".toList, id]) none sent fun id => by simp [reference]
  | getLogs taskId query =>
      refine spelled_ taskId _ (fun id => ["tasks".toList, id, "logs".toList]) _ sent fun id => ?_
      rw [reference, query_suffix]
      simp [Call.entries]
  | cancelTask taskId =>
      exact spelled_ taskId _ (fun id => ["tasks".toList, id, "cancel".toList]) none sent fun id => by simp [reference]
  | retryTask taskId =>
      exact spelled_ taskId _ (fun id => ["tasks".toList, id, "retry".toList]) none sent fun id => by simp [reference]
  | terminalGet terminalId =>
      exact spelled_ terminalId _ (fun id => ["terminals".toList, id]) none sent fun id => by simp [reference]
  | upsertScheduler id schedule =>
      exact spelled_ id _ (fun id => ["schedulers".toList, id]) none sent fun id => by simp [reference]
  | deleteScheduler id => exact spelled_ id _ (fun id => ["schedulers".toList, id]) none sent fun id => by simp [reference]
  | runSchedule id task =>
      exact spelled_ id _ (fun id => ["schedulers".toList, id, "run".toList]) none sent fun id => by simp [reference]
  | readFile input => exact fixed _ _ (Option.some_inj.mp sent).symm
  | statFile path => exact fixed _ _ (Option.some_inj.mp sent).symm
  | listDir input => exact fixed _ _ (Option.some_inj.mp sent).symm
  | terminalList input =>
      refine fixed _ _ ?_
      rw [← Option.some_inj.mp sent, reference, query_suffix]
      rfl
  | post operation body =>
      refine fixed _ _ ?_
      rw [← Option.some_inj.mp sent]
      exact (operation_names operation).trans (List.append_nil _).symm

-- A name of a path is left alone by the URL parser and can be decoded.
def Readable (name : List Char) : Prop := (∀ char ∈ name, inert pathMarks char = true) ∧ (decodeUriComponent name).isSome = true

instance (name : List Char) : Decidable (Readable name) :=
  decidable_of_iff (name.all (inert pathMarks) = true ∧ (decodeUriComponent name).isSome = true) (by rw [Readable, List.all_eq_true])

theorem encoded_readable (original : Units) (id : List Char) (encoded : encodeUriComponent original = some id) : Readable id := by
  refine ⟨?_, by rw [decode_encode original id encoded]; rfl⟩
  intro char member
  rcases encode_chars original id encoded char member with rfl | plain_
  · decide
  · exact inert_plain pathMarks uriMarks (by decide) (by decide) char plain_

def pathWords : List (List Char) :=
  ["health".toList, "metrics".toList, "capabilities".toList, "tasks".toList, "logs".toList, "cancel".toList, "retry".toList,
    "terminals".toList, "schedulers".toList, "run".toList, "fs".toList, "read".toList, "stat".toList, "list".toList,
    "glob".toList, "grep".toList, "edit".toList, "write".toList, "apply_patch".toList, "move".toList, "delete".toList,
    "mkdir".toList, "exec".toList, "command".toList, "shell".toList, "open_command".toList, "open_shell".toList,
    "expect".toList, "send_keys".toList, "screen".toList, "resize".toList, "signal".toList, "close".toList]

-- A path is made of words of the API and at most an id.
theorem names_known (call : Call) (id : List Char) :
    ∀ name ∈ call.names id, name ∈ pathWords ∨ (name = id ∧ call.id ≠ none) := by
  have fixed : ∀ (other : Call) (names : List (List Char)), (∀ name ∈ names, name ∈ pathWords) →
      ∀ name ∈ names, name ∈ pathWords ∨ (name = id ∧ other.id ≠ none) := fun other names known name member =>
    Or.inl (known name member)
  have asked : ∀ (other : Call) (word : List Char) (later : List (List Char)), other.id ≠ none → word ∈ pathWords →
      (∀ name ∈ later, name ∈ pathWords) →
      ∀ name ∈ word :: id :: later, name ∈ pathWords ∨ (name = id ∧ other.id ≠ none) := by
    intro other word later named known rest name member
    rcases List.mem_cons.mp member with rfl | member
    · exact Or.inl known
    · exact (List.mem_cons.mp member).symm.imp (rest name) fun same => ⟨same, named⟩
  cases call with
  | health => exact fixed .health ["health".toList] (by decide)
  | metrics => exact fixed .metrics ["metrics".toList] (by decide)
  | getCapabilities => exact fixed .getCapabilities ["capabilities".toList] (by decide)
  | getTask taskId => exact asked (.getTask taskId) _ [] (by simp [Call.id]) (by decide) (by decide)
  | getLogs taskId query => exact asked (.getLogs taskId query) _ ["logs".toList] (by simp [Call.id]) (by decide) (by decide)
  | cancelTask taskId => exact asked (.cancelTask taskId) _ ["cancel".toList] (by simp [Call.id]) (by decide) (by decide)
  | retryTask taskId => exact asked (.retryTask taskId) _ ["retry".toList] (by simp [Call.id]) (by decide) (by decide)
  | terminalGet terminalId => exact asked (.terminalGet terminalId) _ [] (by simp [Call.id]) (by decide) (by decide)
  | upsertScheduler key schedule => exact asked (.upsertScheduler key schedule) _ [] (by simp [Call.id]) (by decide) (by decide)
  | deleteScheduler key => exact asked (.deleteScheduler key) _ [] (by simp [Call.id]) (by decide) (by decide)
  | runSchedule key task => exact asked (.runSchedule key task) _ ["run".toList] (by simp [Call.id]) (by decide) (by decide)
  | readFile input => exact fixed (.readFile input) ["fs".toList, "read".toList] (by decide)
  | statFile path => exact fixed (.statFile path) ["fs".toList, "stat".toList] (by decide)
  | listDir input => exact fixed (.listDir input) ["fs".toList, "list".toList] (by decide)
  | terminalList input => exact fixed (.terminalList input) ["terminals".toList] (by decide)
  | post operation body =>
      have all : ∀ operation ∈ operations, ∀ name ∈ (operation.path.toList.splitOn '/').drop 1, name ∈ pathWords := by
        decide
      exact fixed (.post operation body) _ (all operation (operation_listed operation))

theorem words_fit : ∀ word ∈ pathWords, Readable word ∧ word ≠ [] ∧ singleDot word = false ∧ doubleDot word = false := by
  decide

theorem names_readable (call : Call) (id : List Char) (readable : Readable id) : ∀ name ∈ call.names id, Readable name := by
  intro name member
  rcases names_known call id name member with word | ⟨rfl, _⟩
  · exact (words_fit name word).1
  · exact readable

theorem query_plain (call : Call) : ∀ text ∈ call.query, ∀ char ∈ text, inert queryMarks char = true := by
  intro text asked char member
  rw [Call.query] at asked
  split at asked
  · cases asked
  · cases asked
    rcases form_query_chars _ char member with rfl | rfl | rfl | rfl | plain_
    · decide
    · decide
    · decide
    · decide
    · exact inert_plain queryMarks formMarks (by decide) (by decide) char plain_

theorem names_start (call : Call) (id : List Char) : ∃ first others, call.names id = first :: others ∧ first ≠ [] := by
  cases call with
  | post operation body => cases operation <;> exact ⟨_, _, rfl, by decide⟩
  | _ => exact ⟨_, _, rfl, by decide⟩

-- The path a call asks its agent for.
def Call.walked (call : Call) (id : List Char) : List Char := rooted '/' (walk [] (call.names id))

theorem request_target (call : Call) (headers : Headers) (request : ServerRequest) (sent : call.request headers = some request) :
    ∃ id, (∀ original ∈ call.id, encodeUriComponent original = some id) ∧ Readable id ∧
      request = ⟨call.method, String.ofList (call.walked id ++ suffix call.entries), headers, call.body⟩ := by
  obtain ⟨path, written, asked⟩ := Option.bind_eq_some_iff.mp sent
  obtain ⟨target, joined, posted⟩ := Option.bind_eq_some_iff.mp asked
  obtain ⟨id, spelled_, bare, rfl⟩ := path_names call path written
  have readable : Readable id := by
    cases named : call.id with
    | none =>
        rw [bare named]
        decide
    | some original => exact encoded_readable original id (spelled_ original named)
  obtain ⟨first, others, shape, some_⟩ := names_start call id
  have plain_ : ∀ name ∈ first :: others, ∀ char ∈ name, inert pathMarks char = true := by
    rw [← shape]
    exact fun name member => (names_readable call id readable name member).1
  have resolved := resolve_reference first others call.query some_ plain_ (query_plain call)
  rw [shape] at joined
  rw [joinBackendUrl, if_pos (by rfl), resolved] at joined
  refine ⟨id, spelled_, readable, ?_⟩
  have whole : (Target.mk (rooted '/' (walk [] (first :: others))) call.query).text = call.walked id ++ suffix call.entries := by
    rw [Call.walked, shape, Call.query, suffix]
    split
    · rfl
    · rename_i given
      simp [Target.text, form_query_some _ given]
  rw [← Option.some_inj.mp posted, ← Option.some_inj.mp joined, whole]

theorem readable_plain (name : List Char) (readable : Readable name) : '/' ∉ name ∧ '?' ∉ name := by
  refine ⟨fun slash => ?_, fun mark => ?_⟩
  · exact absurd (inert_slash _ '/' (readable.1 '/' slash)) (by decide)
  · exact inert_other _ '?' '?' (readable.1 '?' mark) (by decide) rfl

-- The names the agent's router cuts a path into.
def arrived (path : List Char) : List (List Char) := (Server.normalizePath (String.ofList path)).toList.splitOn '/'

section arrival

variable (names : List (List Char)) (readable : ∀ name ∈ names, Readable name)

include readable

theorem path_unmarked : ∀ char ∈ rooted '/' names, decide (char ≠ '?') = true := by
  intro char member
  refine decide_eq_true ?_
  rcases rooted_chars _ char member with rfl | ⟨name, inside, written⟩
  · decide
  · rintro rfl
    exact (readable_plain name (readable name inside)).2 written

theorem arrived_split : (rooted '/' names).splitOn '/' = [] :: names := by
  simpa using split_rooted '/' [] names (fun name member => (readable_plain name (readable name member)).1) (by simp)

omit readable in
theorem rooted_last (front : List (List Char)) (last : List Char) (plain_ : '/' ∉ last) :
    (rooted '/' (front ++ [last])).getLast? = some '/' ↔ last = [] := by
  rw [rooted_append, rooted_cons, rooted_nil, List.append_nil]
  cases last with
  | nil => simp
  | cons char rest =>
      rw [List.getLast?_append, List.getLast?_cons_cons]
      refine ⟨fun slash => ?_, fun none_ => (by cases none_)⟩
      cases ends : (char :: rest).getLast? with
      | none => simp at ends
      | some final =>
          rw [ends] at slash
          cases slash
          exact absurd (List.mem_of_getLast? ends) plain_

-- A path that does not end with a slash arrives as it was sent.
theorem arrived_whole (front : List (List Char)) (last : List Char) (shape : names = front ++ [last]) (some_ : last ≠ []) :
    arrived (rooted '/' names) = [] :: names := by
  have plain_ := (readable_plain last (readable last (by simp [shape]))).1
  have ends : (rooted '/' names).getLast? ≠ some '/' := by
    rw [shape]
    exact fun slash => some_ ((rooted_last front last plain_).mp slash)
  have written : rooted '/' names ≠ [] := fun empty => by
    have none_ := rooted_empty '/' names empty
    simp [shape] at none_
  have kept : (if 1 < (rooted '/' names).length ∧ (rooted '/' names).getLast? = some '/' then (rooted '/' names).dropLast
      else rooted '/' names) = rooted '/' names := if_neg fun long => ends long.2
  rw [arrived, Server.normalizePath]
  simp only [String.toList_ofList, List.takeWhile_eq_self_iff.mpr (path_unmarked names readable), kept]
  rw [if_neg written, String.toList_ofList]
  exact arrived_split names readable

theorem arrived_readable : ∀ name ∈ arrived (rooted '/' names), Readable name := by
  rcases List.eq_nil_or_concat names with rfl | ⟨front, last, rfl⟩
  · decide
  · rw [List.concat_eq_append] at readable ⊢
    by_cases some_ : last = []
    · subst some_
      cases front with
      | nil => decide
      | cons first rest =>
          have before : ∀ name ∈ first :: rest, Readable name := fun name member => readable name (List.mem_append_left _ member)
          have cut : (rooted '/' (first :: rest ++ [[]])).dropLast = rooted '/' (first :: rest) := by
            rw [rooted_append]
            exact List.dropLast_concat
          have long : 1 < (rooted '/' (first :: rest ++ [[]])).length := by simp
          have shorter : (if 1 < (rooted '/' (first :: rest ++ [[]])).length ∧
              (rooted '/' (first :: rest ++ [[]])).getLast? = some '/' then (rooted '/' (first :: rest ++ [[]])).dropLast
              else rooted '/' (first :: rest ++ [[]])) = rooted '/' (first :: rest) := by
            rw [if_pos ⟨long, (rooted_last _ [] (by simp)).mpr rfl⟩, cut]
          rw [arrived, Server.normalizePath]
          simp only [String.toList_ofList, List.takeWhile_eq_self_iff.mpr (path_unmarked _ readable), shorter]
          rw [if_neg (by simp), String.toList_ofList, arrived_split _ before]
          exact List.forall_mem_cons.mpr ⟨by decide, before⟩
    · rw [arrived_whole _ readable front last rfl some_]
      exact List.forall_mem_cons.mpr ⟨by decide, readable⟩

end arrival

theorem walked_readable (call : Call) (id : List Char) (readable : Readable id) :
    ∀ name ∈ walk [] (call.names id), Readable name := by
  intro name left
  have asked := names_readable call id readable
  rcases walk_inside [] (call.names id) (fun segment member => (asked segment member).1) name left with none_ | inside | rfl
  · cases none_
  · exact asked name inside
  · decide

theorem method_upper (call : Call) : call.method.toUpper = call.method := by
  have verbs : ∀ method ∈ ["GET", "POST", "PUT", "DELETE"], String.toUpper method = method := by with_unfolding_all decide
  refine verbs call.method ?_
  cases call <;> simp [Call.method]

theorem body_parsed (call : Call) (raw : Server.HostRequest) (headers : Headers) (same : raw.body = call.body) :
    ∃ body, Router.parseBody raw headers = some body := by
  have empty : (JsonText.parse (Utf16.units "\x7b\x7d")).isSome = true := by decide
  have written : call.body = "" ∨ (JsonText.parse (Utf16.units call.body)).isSome = true := by
    cases call with
    | cancelTask taskId => exact Or.inr empty
    | retryTask taskId => exact Or.inr empty
    | upsertScheduler id schedule => exact Or.inr schedule.reads
    | runSchedule id task => exact Or.inr task.reads
    | post operation body => exact Or.inr body.reads
    | _ => exact Or.inl rfl
  rw [Router.parseBody, same]
  rcases written with empty | reads
  · exact ⟨_, if_pos empty⟩
  · obtain ⟨value, read⟩ := Option.isSome_iff_exists.mp reads
    rw [read]
    split
    · exact ⟨_, rfl⟩
    · split
      · exact ⟨_, rfl⟩
      · exact ⟨_, rfl⟩

theorem suffix_cut (entries : List (String × Option (List Char))) :
    (suffix entries).takeWhile (fun char => decide (char ≠ '?')) = [] ∧
      ((suffix entries).dropWhile fun char => decide (char ≠ '?')).drop 1 = formQuery (searchParams entries) := by
  rw [suffix]
  split
  · rename_i empty
    rw [empty]
    exact ⟨rfl, rfl⟩
  · exact ⟨rfl, rfl⟩

-- The parameters a handler finds: each as it was sent, but with a plus for every space.
def received (entries : List (String × Option (List Char))) : Dict :=
  (searchParams entries).map fun pair => (pair.1, pair.2.map plusForSpace)

def paramNames : List String :=
  ["stream", "offset", "max_bytes", "preview_max_bytes", "expected_stream_version", "path", "start_line", "end_line",
    "encoding", "limit", "include_hidden", "cursor", "status", "created_after"]

theorem entries_named (call : Call) :
    (call.entries.map Prod.fst).Nodup ∧ ∀ entry ∈ call.entries, entry.1 ∈ paramNames := by
  cases call with
  | getLogs taskId query => simp [Call.entries, LogsQuery.entries, paramNames]
  | readFile input => simp [Call.entries, ReadInput.entries, paramNames]
  | statFile path => simp [Call.entries, paramNames]
  | listDir input => simp [Call.entries, ListInput.entries, paramNames]
  | terminalList input => simp [Call.entries, TerminalFilter.entries, paramNames]
  | _ => exact ⟨List.nodup_nil, fun entry none_ => (by cases none_)⟩

theorem params_named (entries : List (String × Option (List Char))) :
    ((searchParams entries).map Prod.fst).Sublist (entries.map fun entry => entry.1.toList) := by
  induction entries with
  | nil => exact List.Sublist.slnil
  | cons entry rest ih =>
      cases given : entry.2 with
      | none =>
          have skipped : searchParams (entry :: rest) = searchParams rest := by simp [searchParams, given]
          rw [skipped, List.map_cons]
          exact ih.cons _
      | some value =>
          have kept : searchParams (entry :: rest) = (entry.1.toList, value) :: searchParams rest := by simp [searchParams, given]
          rw [kept, List.map_cons, List.map_cons]
          exact ih.cons_cons _

theorem params_kept (call : Call) : (searchParams call.entries).foldl Router.setPair [] = received call.entries := by
  obtain ⟨distinct, known⟩ := entries_named call
  have keys := params_named call.entries
  have plain_ : ∀ name ∈ paramNames, name.toList ≠ [] ∧ name.toList.map plusForSpace = name.toList ∧
      name.toList ≠ "__proto__".toList := by decide
  refine Router.pairs_kept (searchParams call.entries) [] ?_ ?_
  · intro pair member
    obtain ⟨entry, inside, same⟩ := List.mem_map.mp (keys.subset (List.mem_map_of_mem member))
    rw [← same]
    exact plain_ entry.1 (known entry inside)
  · rw [List.map_nil, List.nil_append]
    refine keys.nodup ?_
    have spelled_ : (call.entries.map fun entry => entry.1.toList) = (call.entries.map Prod.fst).map String.toList := by simp
    rw [spelled_]
    exact distinct.map fun a b same => String.toList_inj.mp same

theorem admit_request (call : Call) (headers : Headers) (request : ServerRequest) (sent : call.request headers = some request) :
    ∃ id found message, (∀ original ∈ call.id, encodeUriComponent original = some id) ∧ Readable id ∧
      Router.findRoute Router.routes call.method (arrived (call.walked id)) = .ok found ∧
      Router.admission Router.routes (adaptInboundRequest request) = .ok (message, found.map Prod.fst) ∧
      message.params = (found.map Prod.snd).getD [] ∧ message.query = received call.entries := by
  obtain ⟨id, spelled_, readable, rfl⟩ := request_target call headers request sent
  have names := walked_readable call id readable
  have unmarked := path_unmarked (walk [] (call.names id)) names
  obtain ⟨found, routed⟩ := Router.route_found Router.routes call.method (arrived (call.walked id))
    fun name member => (arrived_readable _ names name member).2
  obtain ⟨cut, rest⟩ := suffix_cut call.entries
  have adapted : adaptInboundRequest ⟨call.method, String.ofList (call.walked id ++ suffix call.entries), headers, call.body⟩ =
      ⟨call.method, String.ofList (call.walked id), String.ofList (formQuery (searchParams call.entries)), headers, call.body⟩ := by
    rw [adaptInboundRequest]
    simp only [String.toList_ofList, Call.walked]
    rw [List.takeWhile_append_of_pos unmarked, List.dropWhile_append_of_pos unmarked, cut, rest, List.append_nil]
  obtain ⟨body, parsed⟩ := body_parsed call ⟨call.method, String.ofList (call.walked id),
    String.ofList (formQuery (searchParams call.entries)), headers, call.body⟩ (Server.headerMap headers) rfl
  have asked : Router.parseQuery (String.ofList (formQuery (searchParams call.entries))).toList = .ok (received call.entries) := by
    rw [String.toList_ofList, Router.parse_form, params_kept]
  rw [← method_upper call] at routed
  obtain ⟨message, admitted, read⟩ := Router.admit_found Router.routes _ body (received call.entries) found parsed asked routed
  rw [method_upper] at routed
  exact ⟨id, found, message, spelled_, readable, routed, adapted ▸ admitted, read⟩

section routed

variable (call : Call) (id letters : List Char)

-- An id that is no dot segment stays where it was put.
theorem id_kept (readable : Readable id)
    (kept : call.id ≠ none → id ≠ [] ∧ singleDot id = false ∧ doubleDot id = false) :
    arrived (call.walked id) = [] :: call.names id := by
  have fit : ∀ name ∈ call.names id, name ≠ [] ∧ singleDot name = false ∧ doubleDot name = false := by
    intro name member
    rcases names_known call id name member with word | ⟨rfl, named⟩
    · exact (words_fit name word).2
    · exact kept named
  have asked := names_readable call id readable
  have walked : walk [] (call.names id) = call.names id :=
    walk_plain [] (call.names id) (fun name member => (asked name member).1) fun name member => (fit name member).2
  rw [Call.walked, walked]
  rcases List.eq_nil_or_concat (call.names id) with none_ | ⟨front, last, shape⟩
  · obtain ⟨first, others, some_, _⟩ := names_start call id
    rw [none_] at some_
    cases some_
  · rw [List.concat_eq_append] at shape
    exact arrived_whole (call.names id) asked front last shape (fit last (by simp [shape])).1

theorem id_read (read : decodeUriComponent id = some letters) :
    Router.readParams [("id".toList, id)] = .ok [("id".toList, letters)] := by
  simp only [Router.readParams, List.foldlM_cons, List.foldlM_nil, Router.decoded, read]
  rfl

omit call id letters in
theorem operations_routed (operation : Operation) :
    Router.findRoute Router.routes "POST" ([] :: (operation.path.toList.splitOn '/').drop 1) =
      .ok (some (operation.handler, [])) := by
  have all : (operations.all fun operation => decide (Router.findRoute Router.routes "POST"
      ([] :: (operation.path.toList.splitOn '/').drop 1) = .ok (some (operation.handler, [])))) = true := by decide +kernel
  exact of_decide_eq_true (List.all_eq_true.mp all operation (operation_listed operation))

theorem names_routed (some_ : call.id ≠ none → id ≠ []) (read : decodeUriComponent id = some letters) :
    Router.findRoute Router.routes call.method ([] :: call.names id) =
      .ok (some (call.handler, call.id.elim [] fun _ => [("id".toList, letters)])) := by
  have params := id_read id letters read
  have bare : ∀ (method : String) (names : List (List Char)) (handler : Handler),
      Router.findRoute Router.routes method ([] :: names) = .ok (some (handler, [])) →
      Router.findRoute Router.routes method ([] :: names) = .ok (some (handler, [])) := fun _ _ _ routed => routed
  have found : ∀ handler : Handler, (Router.readParams [("id".toList, id)] >>= fun params => Except.ok (some (handler, params))) =
      (.ok (some (handler, [("id".toList, letters)])) : Except Server.Refusal _) := by
    intro handler
    rw [params]
    rfl
  cases call with
  | health => exact bare "GET" ["health".toList] .health (by with_unfolding_all rfl)
  | metrics => exact bare "GET" ["metrics".toList] .metrics (by with_unfolding_all rfl)
  | getCapabilities => exact bare "GET" ["capabilities".toList] .capabilities (by with_unfolding_all rfl)
  | readFile input => exact bare "GET" ["fs".toList, "read".toList] .readFile (by with_unfolding_all rfl)
  | statFile path => exact bare "GET" ["fs".toList, "stat".toList] .statFile (by with_unfolding_all rfl)
  | listDir input => exact bare "GET" ["fs".toList, "list".toList] .listDir (by with_unfolding_all rfl)
  | terminalList input => exact bare "GET" ["terminals".toList] .terminalList (by with_unfolding_all rfl)
  | post operation body => exact operations_routed operation
  | getTask taskId =>
      cases id with
      | nil => exact absurd rfl (some_ (by simp [Call.id]))
      | cons char rest => exact Eq.trans (by with_unfolding_all rfl) (found .getTask)
  | getLogs taskId query =>
      cases id with
      | nil => exact absurd rfl (some_ (by simp [Call.id]))
      | cons char rest => exact Eq.trans (by with_unfolding_all rfl) (found .getLogs)
  | cancelTask taskId =>
      cases id with
      | nil => exact absurd rfl (some_ (by simp [Call.id]))
      | cons char rest => exact Eq.trans (by with_unfolding_all rfl) (found .cancelTask)
  | retryTask taskId =>
      cases id with
      | nil => exact absurd rfl (some_ (by simp [Call.id]))
      | cons char rest => exact Eq.trans (by with_unfolding_all rfl) (found .retryTask)
  | terminalGet terminalId =>
      cases id with
      | nil => exact absurd rfl (some_ (by simp [Call.id]))
      | cons char rest => exact Eq.trans (by with_unfolding_all rfl) (found .terminalGet)
  | upsertScheduler key schedule =>
      cases id with
      | nil => exact absurd rfl (some_ (by simp [Call.id]))
      | cons char rest => exact Eq.trans (by with_unfolding_all rfl) (found .upsertScheduler)
  | deleteScheduler key =>
      cases id with
      | nil => exact absurd rfl (some_ (by simp [Call.id]))
      | cons char rest => exact Eq.trans (by with_unfolding_all rfl) (found .deleteScheduler)
  | runSchedule key task =>
      cases id with
      | nil => exact absurd rfl (some_ (by simp [Call.id]))
      | cons char rest => exact Eq.trans (by with_unfolding_all rfl) (found .runSchedule)

end routed

-- The ids that are no name of a path, or a dot segment of one.
def dotted : List Units := [Utf16.units "", Utf16.units ".", Utf16.units ".."]

theorem dots_original (original : Units) (id : List Char) (count : Nat) (encoded : encodeUriComponent original = some id)
    (dots_ : dots id = some count) : original = Utf16.utf16Code.words (List.replicate count '.') := by
  have letters : Utf16.chars original = List.replicate count '.' :=
    Option.some_inj.mp ((decode_encode original id encoded).symm.trans (dots_decode id count dots_))
  rw [← letters, encoded_whole original id encoded]

theorem undotted (original : Units) (id : List Char) (encoded : encodeUriComponent original = some id)
    (other : original ∉ dotted) : id ≠ [] ∧ singleDot id = false ∧ doubleDot id = false := by
  have none_ : ∀ count < 3, dots id ≠ some count := by
    intro count few dots_
    have same := dots_original original id count encoded dots_
    interval_cases count
    · exact other (by rw [same]; decide)
    · exact other (by rw [same]; decide)
    · exact other (by rw [same]; decide)
  refine ⟨?_, ?_, ?_⟩
  · rintro rfl
    exact none_ 0 (by decide) rfl
  · exact decide_eq_false (none_ 1 (by decide))
  · exact decide_eq_false (none_ 2 (by decide))

-- A handler has been asked for an id, and reads that id.
def finds (found : Option (Handler × Dict)) (handler : Handler) (original : Units) : Bool :=
  found.any fun route => route.1 = handler && (route.2.lookup "id".toList).map Utf16.utf16Code.words = some original

def missed (method : String) (names : List Char → List (List Char)) (handler : Handler) (original : Units) : Bool :=
  match encodeUriComponent original with
  | none => true
  | some id =>
      match Router.findRoute Router.routes method (arrived (rooted '/' (walk [] (names id)))) with
      | .error _ => true
      | .ok found => !finds found handler original

theorem dotted_missed :
    (dotted.all fun original =>
      missed "GET" (fun id => ["tasks".toList, id]) .getTask original &&
      missed "GET" (fun id => ["tasks".toList, id, "logs".toList]) .getLogs original &&
      missed "POST" (fun id => ["tasks".toList, id, "cancel".toList]) .cancelTask original &&
      missed "POST" (fun id => ["tasks".toList, id, "retry".toList]) .retryTask original &&
      missed "GET" (fun id => ["terminals".toList, id]) .terminalGet original &&
      missed "PUT" (fun id => ["schedulers".toList, id]) .upsertScheduler original &&
      missed "DELETE" (fun id => ["schedulers".toList, id]) .deleteScheduler original &&
      missed "POST" (fun id => ["schedulers".toList, id, "run".toList]) .runSchedule original) = true := by
  decide +kernel

theorem call_missed (call : Call) (original : Units) (named : call.id = some original) (bad : original ∈ dotted) :
    missed call.method call.names call.handler original = true := by
  have all := List.all_eq_true.mp dotted_missed original bad
  simp only [Bool.and_eq_true] at all
  obtain ⟨⟨⟨⟨⟨⟨⟨get, logs⟩, cancel⟩, retry⟩, terminal⟩, upsert⟩, delete⟩, run⟩ := all
  cases call with
  | getTask taskId => exact get
  | getLogs taskId query => exact logs
  | cancelTask taskId => exact cancel
  | retryTask taskId => exact retry
  | terminalGet terminalId => exact terminal
  | upsertScheduler key schedule => exact upsert
  | deleteScheduler key => exact delete
  | runSchedule key task => exact run
  | _ => cases named

-- A call comes to the handler it is meant for, with its id, exactly when the URL parser takes the id for no dot
-- segment and the path has no empty name in its place.
theorem call_reaches_handler (call : Call) (headers : Headers) (request : ServerRequest) (sent : call.request headers = some request) :
    (∃ message, Router.admission Router.routes (adaptInboundRequest request) = .ok (message, some call.handler) ∧
      ∀ id ∈ call.id, (message.params.lookup "id".toList).map Utf16.utf16Code.words = some id) ↔
      ∀ id ∈ call.id, id ∉ dotted := by
  obtain ⟨id, found, message, spelled_, readable, routed, admitted, params, _⟩ := admit_request call headers request sent
  refine ⟨?_, ?_⟩
  · rintro ⟨other, again, reads⟩ original named bad
    rw [admitted] at again
    obtain ⟨same, handled⟩ := Prod.mk.inj (Except.ok.inj again)
    subst same
    have miss := call_missed call original named bad
    rw [missed, spelled_ original named] at miss
    change (match Router.findRoute Router.routes call.method (arrived (call.walked id)) with
      | .error _ => true
      | .ok found => !finds found call.handler original) = true at miss
    rw [routed] at miss
    obtain ⟨route, here, handler⟩ := Option.map_eq_some_iff.mp handled
    have read := reads original named
    rw [params, here] at read
    rw [here] at miss
    have hit : finds (some route) call.handler original = true := by
      simp only [finds, Option.any_some, Bool.and_eq_true, decide_eq_true_eq]
      exact ⟨handler, read⟩
    simp [hit] at miss
  · intro kept
    obtain ⟨letters, read⟩ := Option.isSome_iff_exists.mp readable.2
    have whole : ∀ original ∈ call.id, Utf16.utf16Code.words letters = original := by
      intro original named
      have encoded := spelled_ original named
      rw [Option.some_inj.mp (read.symm.trans (decode_encode original id encoded)), encoded_whole original id encoded]
    have fit : call.id ≠ none → id ≠ [] ∧ singleDot id = false ∧ doubleDot id = false := by
      intro asked
      obtain ⟨original, named⟩ := Option.ne_none_iff_exists'.mp asked
      exact undotted original id (spelled_ original named) (kept original named)
    rw [id_kept call id readable fit, names_routed call id letters (fun asked => (fit asked).1) read] at routed
    have here := Except.ok.inj routed
    refine ⟨message, by rw [admitted, ← here]; rfl, ?_⟩
    intro original named
    have named_ : call.id = some original := named
    rw [params, ← here, named_]
    exact congrArg some (whole original named)

-- For a task id with a slash in it, and for one that is a dot.
theorem call_reaches_handler_slash :
    (∃ message, Router.admission Router.routes (adaptInboundRequest ⟨"GET", "/tasks/a%2Fb", [], ""⟩) =
      .ok (message, some Handler.getTask) ∧
      ∀ id ∈ some (Utf16.units "a/b"), (message.params.lookup "id".toList).map Utf16.utf16Code.words = some id) ∧
    ¬ ∃ message, Router.admission Router.routes (adaptInboundRequest ⟨"GET", "/terminals/", [], ""⟩) =
      .ok (message, some Handler.terminalGet) ∧
      ∀ id ∈ some (Utf16.units "."), (message.params.lookup "id".toList).map Utf16.utf16Code.words = some id :=
  ⟨(call_reaches_handler (.getTask (Utf16.units "a/b")) [] ⟨"GET", "/tasks/a%2Fb", [], ""⟩ (by with_unfolding_all rfl)).mpr
      (by decide),
    fun reached => absurd ((call_reaches_handler (.terminalGet (Utf16.units ".")) [] ⟨"GET", "/terminals/", [], ""⟩
      (by with_unfolding_all rfl)).mp reached) (by decide)⟩

section parameters

variable (entries : List (String × Option (List Char))) (distinct : (entries.map Prod.fst).Nodup)

include distinct

omit distinct in
theorem received_cons (entry : String × Option (List Char)) :
    received (entry :: entries) = (entry.2.map fun value => (entry.1.toList, value.map plusForSpace)).toList ++ received entries := by
  cases given : entry.2 with
  | none => simp [received, searchParams, given]
  | some value => simp [received, searchParams, given]

omit distinct in
theorem received_unknown (name : String) (unknown : name ∉ entries.map Prod.fst) : (received entries).lookup name.toList = none := by
  induction entries with
  | nil => rfl
  | cons entry rest ih =>
      rw [List.map_cons, List.mem_cons, not_or] at unknown
      rw [received_cons]
      cases entry.2 with
      | none => exact ih unknown.2
      | some value =>
          have other : (name.toList == entry.1.toList) = false :=
            beq_eq_false_iff_ne.mpr fun same => unknown.1 (String.toList_inj.mp same)
          simp only [Option.map_some, Option.toList_some, List.singleton_append, List.lookup_cons, other]
          exact ih unknown.2

theorem received_lookup (entry : String × Option (List Char)) (member : entry ∈ entries) :
    (received entries).lookup entry.1.toList = entry.2.map (List.map plusForSpace) := by
  induction entries with
  | nil => cases member
  | cons first rest ih =>
      rw [List.map_cons, List.nodup_cons] at distinct
      rw [received_cons]
      rcases List.mem_cons.mp member with rfl | later
      · cases entry.2 with
        | none => exact received_unknown rest entry.1 distinct.1
        | some value => simp
      · have other : (entry.1.toList == first.1.toList) = false := by
          refine beq_eq_false_iff_ne.mpr fun same => distinct.1 ?_
          rw [← String.toList_inj.mp same]
          exact List.mem_map_of_mem later
        cases first.2 with
        | none => exact ih distinct.2 later
        | some value =>
            simp only [Option.map_some, Option.toList_some, List.singleton_append, List.lookup_cons, other]
            exact ih distinct.2 later

end parameters

theorem plus_same (value : List Char) : value.map plusForSpace = value ↔ ' ' ∉ value := by
  induction value with
  | nil => simp
  | cons char rest ih =>
      rw [List.map_cons, List.cons.injEq, ih, List.mem_cons, not_or, plusForSpace]
      refine and_congr_left fun _ => ?_
      by_cases space : char = ' '
      · subst space
        decide
      · rw [if_neg space]
        exact ⟨fun _ same => space same.symm, fun _ => rfl⟩

-- Whatever the id, a handler that is called finds every parameter, but with a plus for each of its spaces.
theorem params_arrive (call : Call) (headers : Headers) (request : ServerRequest) (sent : call.request headers = some request) :
    ∃ message handler, Router.admission Router.routes (adaptInboundRequest request) = .ok (message, handler) ∧
      ∀ entry ∈ call.entries, message.query.lookup entry.1.toList = entry.2.map (List.map plusForSpace) ∧
        (message.query.lookup entry.1.toList = entry.2 ↔ ∀ value ∈ entry.2, ' ' ∉ value) := by
  obtain ⟨id, found, message, _, _, _, admitted, _, query⟩ := admit_request call headers request sent
  refine ⟨message, found.map Prod.fst, admitted, ?_⟩
  intro entry member
  have read := received_lookup call.entries (entries_named call).1 entry member
  rw [query, read]
  refine ⟨rfl, ?_⟩
  cases entry.2 with
  | none => simp
  | some value => simpa using plus_same value

theorem params_arrive_space :
    ∃ message handler, Router.admission Router.routes (adaptInboundRequest ⟨"GET", "/fs/stat?path=%2Ftmp%2Fa+b", [], ""⟩) =
      .ok (message, handler) ∧ message.query.lookup "path".toList = some "/tmp/a+b".toList := by
  obtain ⟨message, handler, admitted, all⟩ := params_arrive (.statFile (Utf16.units "/tmp/a b")) []
    ⟨"GET", "/fs/stat?path=%2Ftmp%2Fa+b", [], ""⟩ (by with_unfolding_all rfl)
  exact ⟨message, handler, admitted, (all _ List.mem_cons_self).1.trans (by with_unfolding_all rfl)⟩

end Vacps.BackendClient
