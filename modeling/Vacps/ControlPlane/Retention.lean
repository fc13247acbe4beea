import Vacps.Contracts.CronNext
import Vacps.Contracts.Json
import Vacps.Contracts.Task
import Vacps.Library.Utf16

/- control-worker/src/tasks/retention.ts. Where Date.parse makes nothing of a text the code reads the clock
   again; that reading comes as an argument. -/
set_option autoImplicit false

namespace Vacps.Tasks

open Library

abbrev Labels : Type := List (String × String)

structure RetentionDays where
  test : Int := 3
  succeeded : Int := 14
  cancelled : Int := 30
  failed : Int := 30
  dispatch_failed : Int := 30
  timed_out : Int := 30
  default : Int := 30

def RETENTION_DAYS : RetentionDays := {}

def OUTPUT_RETENTION_DAYS : Int := 7

def SOFT_DELETE_GRACE_HOURS : Int := 24

def CLEANUP_BATCH_SIZE : Nat := 500

def CLEANUP_MAX_PER_RUN : Nat := 5000

structure IdempotencyTtlDays where
  test : Int := 7
  default : Int := 30

def IDEMPOTENCY_TTL_DAYS : IdempotencyTtlDays := {}

inductive RetentionClass where
  | test
  | success
  | failure
  | cancelled
  | default
deriving DecidableEq, Repr

def parseLabelsJson : Option Json → Labels
  | some (.obj members) => members.filterMap fun (key, value) => value.asString.map fun text => (key, text)
  | _ => []

def isTestTask (labels : Labels) (environment : Option String) : Bool :=
  decide (environment = some "test") || decide (labels.lookup "environment" = some "test") ||
    (labels.lookup "suite").any (fun suite => decide (trim suite ≠ "")) ||
    decide (labels.lookup "purpose" = some "regression") || decide (labels.lookup "purpose" = some "acceptance-test")

-- slice counts code units; half a surrogate pair is stored as U+FFFD.
def environmentFromLabels (labels : Labels) : Option String :=
  (truthy ((labels.lookup "environment").map trim)).map fun env => Utf16.text ((Utf16.units env).take 64)

def retentionClassFor (status : TaskStatus) (labels : Labels) (environment : Option String) : RetentionClass :=
  if isTestTask labels environment then .test
  else
    match status with
    | .succeeded => .success
    | .cancelled => .cancelled
    | .failed | .dispatch_failed | .timed_out => .failure
    | _ => .default

def retentionDaysFor (retentionClass : RetentionClass) (status : TaskStatus) : Int :=
  if retentionClass = .test then RETENTION_DAYS.test
  else
    match status with
    | .succeeded => RETENTION_DAYS.succeeded
    | .cancelled => RETENTION_DAYS.cancelled
    | .failed => RETENTION_DAYS.failed
    | .dispatch_failed => RETENTION_DAYS.dispatch_failed
    | .timed_out => RETENTION_DAYS.timed_out
    | _ => RETENTION_DAYS.default

section dates

variable (platform : Platform)

def computeExpiresAt (terminalAtIso : String) (retentionClass : RetentionClass) (status : TaskStatus) (nowMs : Int) : String :=
  let base := (platform.dateParse terminalAtIso).getD nowMs
  toISOString (base + retentionDaysFor retentionClass status * 86400000)

def addHours (iso : String) (hours nowMs : Int) : String :=
  toISOString ((platform.dateParse iso).getD nowMs + hours * 3600000)

def computeOutputExpiresAt (terminalAtIso : String) (retentionSeconds : Option Int) (nowMs : Int) : String :=
  match retentionSeconds.filter (0 < ·) with
  | some seconds => toISOString ((platform.dateParse terminalAtIso).getD nowMs + seconds * 1000)
  | none => addHours platform terminalAtIso (OUTPUT_RETENTION_DAYS * 24) nowMs

def idempotencyTtlDays (labels : Labels) (environment : Option String) : Int :=
  if isTestTask labels environment then IDEMPOTENCY_TTL_DAYS.test else IDEMPOTENCY_TTL_DAYS.default

def computeIdempotencyExpiresAt (fromIso : String) (labels : Labels) (environment : Option String) (nowMs : Int) : String :=
  addHours platform fromIso (idempotencyTtlDays labels environment * 24) nowMs

end dates

-- An ISO time or any other text that is not empty, as a pin or a deletion stamps it.
abbrev Stamp : Type := { text : String // text ≠ "" }

def stamp (now : Int) : Stamp :=
  ⟨toISOString now, fun empty => by
    have kept := truthy_iso now
    rw [empty] at kept
    cases kept⟩

-- Rows come with the column legal_hold NOT NULL and written as 0 or 1.
def isRetentionProtected (legal_hold : Bool) (pinned_at : Option Stamp) : Bool := pinned_at.isSome || legal_hold

def scopeCountAcceptable (expected actual : Nat) : Bool := expected == actual

end Vacps.Tasks
