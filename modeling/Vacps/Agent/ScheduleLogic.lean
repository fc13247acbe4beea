import Vacps.Contracts.CronNext
import Vacps.Contracts.Json

/- queue/schedule-logic.ts: policy reading, the revision-gated merge and the misfire plan. -/
set_option autoImplicit false

namespace Vacps

open Library

def MAX_CATCHUP_STEPS_PER_PUMP : Nat := MAX_SCHEDULE_ADVANCE_STEPS

def parseMisfire (raw : Option String) : Misfire :=
  match raw with
  | some "skip" => .skip
  | some "run_once" => .run_once
  | some "catch_up" => .catch_up
  | _ => DEFAULT_SCHEDULE_POLICY.misfire

def parseConcurrency (raw : Option String) : Concurrency :=
  match raw with
  | some "allow" => .allow
  | some "forbid" => .forbid
  | some "replace" => .replace
  | some "queue" => .queue
  | _ => DEFAULT_SCHEDULE_POLICY.concurrency

def parseSchedulePolicy (raw : Json) : SchedulePolicy :=
  { concurrency := parseConcurrency ((raw.member "concurrency").bind Json.asString)
    misfire := parseMisfire ((raw.member "misfire").bind Json.asString)
    max_catchup_runs :=
      match (raw.member "max_catchup_runs").bind Json.asInteger with
      | some runs => min 100 (max 0 runs)
      | none => DEFAULT_SCHEDULE_POLICY.max_catchup_runs }

def occurrenceId (scheduleId : String) (revision scheduledForMs : Int) : String :=
  scheduleOccurrenceId scheduleId revision scheduledForMs

structure SchedulerMergeLocal (Task : Type) where
  revision : Int
  cron : String
  timezone : String
  enabled : Bool
  task : Task
  policy : SchedulePolicy
  nextRunAt : Option String

-- No branch tells an omitted nextRunAt from null: none stands for both.
structure SchedulerMergeIncoming (Task : Type) where
  revision : Int
  cron : String
  timezone : String
  enabled : Bool
  task : Task
  policy : SchedulePolicy
  nextRunAt : Option String

inductive SchedulerMergeResult (Task : Type) where
  | ignore
  | apply (revision : Int) (cron timezone : String) (enabled : Bool) (task : Task) (policy : SchedulePolicy)
      (nextRunAt : Option String)

def mergeSchedulerWire {Task : Type} (platform : Platform) (current : Option (SchedulerMergeLocal Task))
    (incoming : SchedulerMergeIncoming Task) : SchedulerMergeResult Task :=
  let canonical (text : Option String) : Option String :=
    (truthy text).bind fun raw => canonicalUtcIso (platform.dateParse raw)
  let apply (revision : Int) (next : Option String) : SchedulerMergeResult Task :=
    .apply revision incoming.cron incoming.timezone incoming.enabled incoming.task incoming.policy next
  match current with
  | none => apply (max 1 incoming.revision) (if incoming.enabled then canonical incoming.nextRunAt else none)
  | some stored =>
      if incoming.revision < stored.revision then .ignore
      else if stored.revision < incoming.revision then
        apply incoming.revision (if incoming.enabled then canonical incoming.nextRunAt else none)
      else if !incoming.enabled then apply stored.revision none
      else
        match truthy incoming.nextRunAt, truthy stored.nextRunAt with
        | none, kept => apply stored.revision (canonical kept)
        | some raw, none => apply stored.revision (canonical (some raw))
        | some raw, some kept => apply stored.revision (laterUtcIso platform.otherDate (some kept) (some raw))

structure MisfireInput where
  cron : String
  timezone : String
  policy : SchedulePolicy
  nextRunAtRaw : String
  nowMs : Int
  maxSteps : Option Int := none

structure MisfirePlan where
  enqueueSlots : List String
  advancedNext : Option String
  scheduledForRaw : String
  scheduledForMs : Int
deriving DecidableEq, Repr

section plan

variable (platform : Platform) (cron timezone : String)

def nextCronRunAfterIso (cursorIso : String) : Option String :=
  (platform.dateParse cursorIso).bind fun ms => nextCronRunAtIso platform cron timezone ms

def laterThan (nowMs : Int) (iso : String) : Bool := (platform.dateParse iso).any fun ms => decide (nowMs < ms)

def missedSlots (nowMs : Int) : Nat → String → List String
  | 0, _ => []
  | n + 1, cursorIso =>
      match platform.dateParse cursorIso with
      | none => []
      | some ms =>
          if nowMs < ms then []
          else cursorIso :: match nextCronRunAtIso platform cron timezone ms with
            | none => []
            | some next => missedSlots nowMs n next

-- Past the step cap the last computed next is returned, still behind or not.
def advancePastNow (nowMs : Int) : Nat → String → Option String
  | 0, cursor => nextCronRunAfterIso platform cron timezone cursor
  | n + 1, cursor =>
      match nextCronRunAfterIso platform cron timezone cursor with
      | none => none
      | some next => if laterThan platform nowMs next then some next else advancePastNow nowMs n next

end plan

def planMisfire (platform : Platform) (input : MisfireInput) : Option MisfirePlan :=
  match platform.dateParse input.nextRunAtRaw with
  | none => none
  | some scheduledForMs =>
      if input.nowMs < scheduledForMs then none
      else
        let maxSteps := (min (input.maxSteps.getD MAX_CATCHUP_STEPS_PER_PUMP) MAX_CATCHUP_STEPS_PER_PUMP).toNat
        let maxCatchup := min (max 0 input.policy.max_catchup_runs).toNat maxSteps
        let missed := missedSlots platform input.cron input.timezone input.nowMs maxSteps (toISOString scheduledForMs)
        let past (cursor : String) := advancePastNow platform input.cron input.timezone input.nowMs maxSteps cursor
        match missed with
        | [] => none
        | first :: _ =>
            let plan (enqueueSlots : List String) (advancedNext : Option String) : MisfirePlan :=
              ⟨enqueueSlots, advancedNext, input.nextRunAtRaw, scheduledForMs⟩
            match input.policy.misfire with
            | .skip => some (plan [] (past first))
            | .catch_up =>
                let enqueueSlots := missed.take (max 1 maxCatchup)
                let last := enqueueSlots.getLast?.getD first
                let afterLast := nextCronRunAfterIso platform input.cron input.timezone last
                if afterLast.any (laterThan platform input.nowMs) then some (plan enqueueSlots afterLast)
                else if missed.length ≤ enqueueSlots.length then
                  some (plan enqueueSlots ((past last).or afterLast))
                else some (plan enqueueSlots afterLast)
            | .run_once => some (plan [first] (past first))

section chain

variable (platform : Platform) (cron timezone : String)

theorem next_after_iso_of_chain (cursor : Int) (valid : validTime cursor) :
    nextCronRunAfterIso platform cron timezone (toISOString cursor) =
      ((cronChain platform cron timezone).next cursor).map toISOString := by
  rw [nextCronRunAfterIso, platform_parse_iso platform cursor valid, Option.bind_some, next_iso_of_chain]

theorem later_than_of_iso (nowMs time : Int) (valid : validTime time) :
    laterThan platform nowMs (toISOString time) = decide (nowMs < time) := by
  rw [laterThan, platform_parse_iso platform time valid, Option.any_some]

theorem missed_slots_of_chain (nowMs : Int) (n : Nat) (cursor : Int) (valid : validTime cursor) :
    missedSlots platform cron timezone nowMs n (toISOString cursor) =
      ((cronChain platform cron timezone).due nowMs n cursor).map toISOString := by
  induction n generalizing cursor with
  | zero => rfl
  | succ n ih =>
      rw [missedSlots, platform_parse_iso platform cursor valid, Chain.due]
      by_cases past : nowMs < cursor
      · simp [past]
      · simp only [if_neg past, List.map_cons, next_iso_of_chain]
        cases step : (cronChain platform cron timezone).next cursor with
        | none => rfl
        | some run =>
            simpa using ih run (cron_chain_next_valid platform cron timezone cursor run step)

theorem advance_past_now_of_chain (nowMs : Int) (n : Nat) (cursor : Int) (valid : validTime cursor) :
    advancePastNow platform cron timezone nowMs n (toISOString cursor) =
      ((cronChain platform cron timezone).escape nowMs n cursor).map toISOString := by
  induction n generalizing cursor with
  | zero => rw [advancePastNow, next_after_iso_of_chain platform cron timezone cursor valid, Chain.escape]
  | succ n ih =>
      rw [advancePastNow, next_after_iso_of_chain platform cron timezone cursor valid, Chain.escape]
      cases step : (cronChain platform cron timezone).next cursor with
      | none => rfl
      | some run =>
          have runValid := cron_chain_next_valid platform cron timezone cursor run step
          simp only [Option.map_some, later_than_of_iso platform nowMs run runValid, decide_eq_true_eq]
          split
          · rfl
          · exact ih run runValid

end chain

end Vacps
