import Mathlib.Data.Rat.Defs
import Vacps.Agent.OutputRetention
import Vacps.Agent.Server
import Vacps.Agent.TerminalReads

/- server/app.ts, GET /tasks/:id and GET /tasks/:id/logs, with utf8ByteSlice of util/utf8.ts. -/
set_option autoImplicit false

namespace Vacps.Server

open Library Library.Utf8 TaskStore TerminalSessions Vacps.Native

section slices

-- value | 0
def toInt32 (value : Int) : Int := Int.bmod value (2 ^ 32)

structure ByteSlice where
  content : List UInt8
  totalBytes : Nat
  start : Nat
  stop : Nat

def utf8ByteSlice (simdutf : Simdutf) (s : String) (start stop : Int) : ByteSlice :=
  let bytes := utf8Code.words s.toList
  let totalBytes := bytes.length
  let a := (max 0 (min (toInt32 start) totalBytes)).toNat
  let b := (max (a : Int) (min (toInt32 stop) totalBytes)).toNat
  let a := if 0 < a then a + leadingContinuationBytes (bytes.drop a) else a
  let b := if b < totalBytes then leadAt bytes b else b
  { content := utf8Decode simdutf ((bytes.drop a).take (b - a))
    totalBytes := totalBytes
    start := a
    stop := b }

end slices

section task

def notFound : Refusal := ⟨404, "not_found", "Task not found."⟩

-- Number(value) || otherwise, for a value that is left out as for one that is no number.
def numberOr (value : Option Int) (otherwise : Int) : Int := (value.filter (· ≠ 0)).getD otherwise

def retentionSec (task : StoredTask) : Int := max 60 (numberOr (some task.task.output.retention_seconds) 86400)

def outputExpired (task : StoredTask) (nowMs : Int) : Bool :=
  isTerminalTaskStatus task.status &&
    task.finishedAt.any fun terminalAt => decide (retentionSec task * 1000 < nowMs - terminalAt)

-- result && typeof result === 'object'
def isObject : Json → Bool
  | .obj _ | .arr _ => true
  | _ => false

structure ShownTask where
  task : TaskDispatch
  status : TaskStatus
  result : Option Json
  error : Option TaskError
  createdAt : Int
  startedAt : Option Int
  finishedAt : Option Int
  output_expired : Bool

def getTaskById (db : Database) (id : String) (nowMs : Int) : Except Refusal ShownTask :=
  match (db.tasks.find? id).map TaskRow.toStoredTask with
  | none => .error notFound
  | some task =>
      .ok
        { task := task.task
          status := task.status
          result := if outputExpired task nowMs && task.result.any isObject then some (expiredSummary task.result) else task.result
          error := task.error
          createdAt := task.createdAt
          startedAt := task.startedAt
          finishedAt := task.finishedAt
          output_expired := outputExpired task nowMs }

end task

section logs

-- A sequence number is positive, and the rows after number `offset` come in its order.
def logRows (db : Database) (taskId : String) (stream : Option LogStream) (offset : Nat) : List LogRow :=
  (db.logs.rows.filter fun row => decide (row.task_id = taskId) && stream.all (fun stream => decide (row.stream = stream)) &&
    decide (offset < row.sequence)).insertionSort fun first later => first.sequence ≤ later.sequence

def listLogs (db : Database) (taskId : String) (stream : Option LogStream) (offset limit : Nat) : List LogRow :=
  (logRows db taskId stream offset).take limit

def joined (rows : List LogRow) : String := String.join (rows.map LogRow.data)

def bytesKey : LogStream → String
  | .stdout => "stdoutBytes"
  | _ => "stderrBytes"

def truncKey : LogStream → String
  | .stdout => "stdoutTruncated"
  | _ => "stderrTruncated"

structure StreamMeta where
  totalBytes : Rat
  nativeTruncated : Bool

def processStreamMeta (result : Option Json) (stream : LogStream) (retainedUtf8Bytes : Nat) : StreamMeta :=
  match result.filter isObject with
  | none => ⟨retainedUtf8Bytes, false⟩
  | some r =>
      { totalBytes :=
          match r.member (bytesKey stream) with
          | some (.num rawBytes) => if 0 ≤ rawBytes then rawBytes else retainedUtf8Bytes
          | _ => retainedUtf8Bytes
        nativeTruncated :=
          match r.member (truncKey stream) with
          | some (.bool truncated) => truncated
          | _ => false }

structure LogsQuery where
  offset : Option Int
  stream : Option LogStream
  max_bytes : Option Int
  preview_max_bytes : Option Int
  expected_stream_version : Option String

structure StreamPage where
  task_id : String
  stream : LogStream
  offset : Nat
  next_offset : Nat
  eof : Bool
  total_bytes : Rat
  truncated : Bool
  content : List UInt8
  stream_version : String

structure StreamPreview where
  text : List UInt8
  bytes : Rat
  truncated : Bool
  complete : Bool

-- gone is the answer with status 410, conflict the one with 409.
inductive LogsReply where
  | refused (refusal : Refusal)
  | gone (task_id : String) (stream : LogStream)
  | expired (task_id : String)
  | conflict (expected_stream_version current_stream_version : String)
  | page (page : StreamPage)
  | preview (task_id : String) (stdout stderr : StreamPreview) (logs : List LogRow)

variable (simdutf : Simdutf) (sha256Hex : String → String)

def streamPreview (db : Database) (id : String) (task : StoredTask) (stream : LogStream) (previewMax : Int) : StreamPreview :=
  let preview := utf8ByteSlice simdutf (joined (listLogs db id (some stream) 0 2000)) 0 previewMax
  let info := processStreamMeta task.result stream preview.totalBytes
  let clipped := decide (0 < previewMax) && decide (preview.stop < preview.totalBytes)
  let emptyClip := decide (previewMax ≤ 0) && decide (0 < info.totalBytes)
  { text := preview.content
    bytes := info.totalBytes
    truncated := info.nativeTruncated || clipped || emptyClip
    complete := isTerminalTaskStatus task.status }

def streamPage (db : Database) (id : String) (task : StoredTask) (stream : LogStream) (offset maxBytes : Int)
    (expected : Option String) : LogsReply :=
  let full := joined (listLogs db id (some stream) 0 50000)
  let streamVersion := "sha256:" ++ sha256Hex full
  match (truthy expected).filter (· ≠ streamVersion) with
  | some expected => .conflict expected streamVersion
  | none =>
      let slice := utf8ByteSlice simdutf full offset (offset + maxBytes)
      let info := processStreamMeta task.result stream slice.totalBytes
      .page
        { task_id := id
          stream := stream
          offset := slice.start
          next_offset := slice.stop
          eof := isTerminalTaskStatus task.status && decide (slice.totalBytes ≤ slice.stop)
          total_bytes := info.totalBytes
          truncated := info.nativeTruncated
          content := slice.content
          stream_version := streamVersion }

def getTaskLogs (db : Database) (id : String) (query : LogsQuery) (nowMs : Int) : LogsReply :=
  match (db.tasks.find? id).map TaskRow.toStoredTask with
  | none => .refused notFound
  | some task =>
      let offset := max 0 (numberOr query.offset 0)
      let maxBytes := min (max (numberOr query.max_bytes 65536) 1) 1048576
      let previewMax := min (max (numberOr query.preview_max_bytes 8192) 0) 65536
      let output := query.stream.filter (· ≠ .system)
      if outputExpired task nowMs then
        match output with
        | some stream => .gone id stream
        | none => .expired id
      else
        match output with
        | some stream => streamPage simdutf sha256Hex db id task stream offset maxBytes query.expected_stream_version
        | none =>
            .preview id (streamPreview simdutf db id task .stdout previewMax) (streamPreview simdutf db id task .stderr previewMax)
              (listLogs db id none 0 500)

theorem logs_stream (db : Database) (id : String) (query : LogsQuery) (nowMs : Int) (row : TaskRow)
    (found : db.tasks.find? id = some row) (fresh : outputExpired row.toStoredTask nowMs = false) (stream : LogStream)
    (asked : query.stream = some stream) (output : stream ≠ .system) :
    getTaskLogs simdutf sha256Hex db id query nowMs =
      streamPage simdutf sha256Hex db id row.toStoredTask stream (max 0 (numberOr query.offset 0))
        (min (max (numberOr query.max_bytes 65536) 1) 1048576) query.expected_stream_version := by
  have kept : (some stream).filter (· ≠ .system) = some stream := Option.filter_some_pos (by simpa using output)
  rw [getTaskLogs, found, Option.map_some, asked]
  simp only [fresh, Bool.false_eq_true, if_false, kept]

end logs

end Vacps.Server
