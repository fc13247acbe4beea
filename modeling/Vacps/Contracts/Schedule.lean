import Mathlib.Data.List.Basic

set_option autoImplicit false

namespace Vacps

inductive Concurrency where
  | allow
  | forbid
  | replace
  | queue
deriving DecidableEq, Repr

inductive Misfire where
  | skip
  | run_once
  | catch_up
deriving DecidableEq, Repr

structure SchedulePolicy where
  concurrency : Concurrency
  misfire : Misfire
  max_catchup_runs : Int
deriving DecidableEq, Repr

def DEFAULT_SCHEDULE_POLICY : SchedulePolicy := ⟨.forbid, .run_once, 1⟩

def MAX_SCHEDULE_ADVANCE_STEPS : Nat := 32
-- cron-next.ts keeps a constant of its own for the control plane's advance.
def MAX_ADVANCE_STEPS : Nat := 32

def scheduleOccurrenceId (scheduleId : String) (revision scheduledForMs : Int) : String :=
  scheduleId ++ ":" ++ toString revision ++ ":" ++ toString scheduledForMs

end Vacps
