import Vacps.Agent.Misfire

/- What repeated ticks of planMisfire enqueue out of a backlog. -/
set_option autoImplicit false

namespace Vacps

open Library

-- An unbounded queue of runs, so that only the plan decides what is enqueued.
def queueing (misfire : Misfire) (runs : Int) : SchedulePolicy := ⟨.queue, misfire, runs⟩

section catchUp

variable (platform : Platform) (cron timezone : String) (policy : SchedulePolicy)

def planAt (raw : String) (now : Int) : Option MisfirePlan :=
  planMisfire platform { cron := cron, timezone := timezone, policy := policy, nextRunAtRaw := raw, nowMs := now }

-- The slots planned over the readings, and the cursor the last plan left.
def planTicks : Option String → List Int → List String × Option String
  | cursor, [] => ([], cursor)
  | none, _ :: _ => ([], none)
  | some raw, now :: rest =>
      match planAt platform cron timezone policy raw now with
      | none => planTicks (some raw) rest
      | some plan =>
          let later := planTicks plan.advancedNext rest
          (plan.enqueueSlots ++ later.1, later.2)

def notDue (cursor : Option String) (now : Int) : Prop :=
  ∀ raw, cursor = some raw → planAt platform cron timezone policy raw now = none

-- Exactly once, in order, and nothing but the chain up to the last reading.
def enqueuesBacklog (start last : Int) (slots : List String) : Prop :=
  ∃ times : List Int, slots = times.map toISOString ∧ times.Pairwise (· < ·) ∧
    ∀ time, time ∈ times ↔ (cronChain platform cron timezone).Reaches start time ∧ time ≤ last

theorem plan_at_early (raw : String) (start now : Int) (parsed : platform.dateParse raw = some start)
    (early : now < start) : planAt platform cron timezone policy raw now = none := by
  simp only [planAt, planMisfire, parsed, if_pos early]

theorem plan_at_due (raw : String) (start now : Int) (parsed : platform.dateParse raw = some start) (due : start ≤ now) :
    ∃ plan, planAt platform cron timezone policy raw now = some plan ∧
      plan.enqueueSlots = (slotPlan (cronChain platform cron timezone) policy start now).1.map toISOString ∧
      plan.advancedNext = (slotPlan (cronChain platform cron timezone) policy start now).2.map toISOString :=
  ⟨_, plan_misfire_of_chain platform cron timezone policy raw start now parsed due, rfl, rfl⟩

theorem not_due_iff (raw : String) (start now : Int) (parsed : platform.dateParse raw = some start) :
    planAt platform cron timezone policy raw now = none ↔ now < start := by
  constructor
  · intro idle
    by_contra due
    obtain ⟨plan, planned, _⟩ := plan_at_due platform cron timezone policy raw start now parsed (not_lt.mp due)
    rw [idle] at planned
    cases planned
  · exact plan_at_early platform cron timezone policy raw start now parsed

theorem plan_ticks_of_slots (raw : String) (start : Int) (readings : List Int)
    (parsed : platform.dateParse raw = some start) :
    (planTicks platform cron timezone policy (some raw) readings).1 =
        (slotTicks (cronChain platform cron timezone) policy (some start) readings).1.map toISOString ∧
      (planTicks platform cron timezone policy (some raw) readings).2.bind platform.dateParse =
        (slotTicks (cronChain platform cron timezone) policy (some start) readings).2 := by
  induction readings generalizing raw start with
  | nil => exact ⟨rfl, by simpa [planTicks, slotTicks] using parsed⟩
  | cons now rest ih =>
      by_cases early : now < start
      · have idle : ∀ cursor, some start = some cursor → now < cursor := by
          rintro cursor ⟨⟩
          exact early
        rw [slot_ticks_idle _ policy (some start) now rest idle, planTicks,
          plan_at_early platform cron timezone policy raw start now parsed early]
        exact ih raw start parsed
      · have due : start ≤ now := not_lt.mp early
        have valid := date_parse_valid platform.otherDate raw start parsed
        obtain ⟨plan, planned, slots, cursor⟩ := plan_at_due platform cron timezone policy raw start now parsed due
        rw [slot_ticks_due _ policy start now rest due, planTicks, planned]
        simp only [slots, cursor]
        cases next : (slotPlan (cronChain platform cron timezone) policy start now).2 with
        | none => cases rest <;> simp [planTicks, slot_ticks_ended]
        | some time =>
            obtain ⟨k, _, reached⟩ := slot_plan_reaches _ policy start now time due next
            have timeValid := cron_chain_nth_valid platform cron timezone start time k valid reached
            obtain ⟨later, ending⟩ := ih (toISOString time) time (platform_parse_iso platform time timeValid)
            rw [Option.map_some, later, ending, List.map_append]
            exact ⟨rfl, rfl⟩

theorem not_due_of_slots (cursor : Option String) (last : Int) :
    notDue platform cron timezone policy cursor last ↔ settledAt last (cursor.bind platform.dateParse) := by
  cases cursor with
  | none => exact iff_of_true (fun _ absent => by cases absent) (fun _ absent => by cases absent)
  | some raw =>
      cases parsed : platform.dateParse raw with
      | none =>
          refine iff_of_true ?_ ?_
          · rintro other ⟨⟩
            simp only [planAt, planMisfire, parsed]
          · intro slot found
            rw [Option.bind_some, parsed] at found
            cases found
      | some start =>
          have idle := not_due_iff platform cron timezone policy raw start last parsed
          simp only [notDue, settledAt, Option.bind_some, parsed, Option.some.injEq, forall_eq', idle]

theorem last_bounds (readings : List Int) (last : Int) (ordered : readings.Pairwise (· ≤ ·))
    (ending : readings.getLast? = some last) : ∀ now ∈ readings, now ≤ last := by
  intro now member
  obtain ⟨front, rfl⟩ := List.getLast?_eq_some_iff.mp ending
  rcases List.mem_append.mp member with before | same
  · exact (List.pairwise_append.mp ordered).2.2 now before last (List.mem_singleton.mpr rfl)
  · exact le_of_eq (List.mem_singleton.mp same)

theorem repeated_ticks_end (raw : String) (start last : Int) (readings : List Int)
    (catching : policy.misfire = .catch_up) (parsed : platform.dateParse raw = some start) :
    ∃ bound, ∀ repeats, bound ≤ repeats →
      notDue platform cron timezone policy
        (planTicks platform cron timezone policy (some raw) (readings ++ List.replicate repeats last)).2 last := by
  let chain := cronChain platform cron timezone
  obtain ⟨bound, enough⟩ : ∃ bound : Nat, ∀ cursor,
      (slotTicks chain policy (some start) readings).2 = some cursor → last < cursor + bound := by
    cases (slotTicks chain policy (some start) readings).2 with
    | none =>
        refine ⟨0, ?_⟩
        intro cursor absent
        cases absent
    | some cursor =>
        refine ⟨(last + 1 - cursor).toNat, ?_⟩
        rintro other ⟨⟩
        omega
  refine ⟨bound, ?_⟩
  intro repeats more
  rw [not_due_of_slots, (plan_ticks_of_slots platform cron timezone policy raw start _ parsed).2, slot_ticks_append]
  refine repeats_settle chain policy catching last _ repeats ?_
  intro cursor here
  have room := enough cursor here
  omega

-- The enqueued text names the instants of the chain exactly when the slots behind it do.
theorem enqueues_backlog_of_slots (start last : Int) (m : Nat) (slots : List Int) (valid : validTime start)
    (covered : Covered (cronChain platform cron timezone) start last m slots)
    (settled : settledAt last ((cronChain platform cron timezone).nth start m)) :
    enqueuesBacklog platform cron timezone start last (slots.map toISOString) ↔
      Complete (cronChain platform cron timezone) start m slots := by
  have slotValid : ∀ slot, (cronChain platform cron timezone).Reaches start slot → validTime slot := by
    rintro slot ⟨i, reached⟩
    exact cron_chain_nth_valid platform cron timezone start slot i valid reached
  have whole := complete_iff_backlog (cronChain platform cron timezone) start last m slots covered settled
  constructor
  · rintro ⟨times, same, _, members⟩ i bound slot reached
    obtain ⟨other, there, due⟩ := covered.passed i bound
    cases reached.symm.trans there
    have named : toISOString slot ∈ slots.map toISOString := by
      rw [same]
      exact List.mem_map_of_mem ((members slot).mpr ⟨⟨i, reached⟩, due⟩)
    obtain ⟨found, member, text⟩ := List.mem_map.mp named
    obtain ⟨j, _, here⟩ := covered.indexed found member
    rwa [to_iso_injective found slot (slotValid found ⟨j, here⟩) (slotValid slot ⟨i, reached⟩) text] at member
  · intro complete
    exact ⟨slots, rfl, covered.sorted, whole.mp complete⟩

-- Repeating the last reading settles the schedule; a settled run has enqueued the backlog exactly
-- when no tick leapt past slots that were due.
theorem catch_up_complete_iff (raw : String) (start last : Int) (readings : List Int)
    (catching : policy.misfire = .catch_up) (parsed : platform.dateParse raw = some start)
    (ordered : readings.Pairwise (· ≤ ·)) (ending : readings.getLast? = some last) :
    (∃ bound, ∀ repeats, bound ≤ repeats →
      notDue platform cron timezone policy
        (planTicks platform cron timezone policy (some raw) (readings ++ List.replicate repeats last)).2 last) ∧
    (notDue platform cron timezone policy (planTicks platform cron timezone policy (some raw) readings).2 last →
      (enqueuesBacklog platform cron timezone start last
          (planTicks platform cron timezone policy (some raw) readings).1 ↔
        ∀ before now after, readings = before ++ now :: after → ∀ cursor,
          (planTicks platform cron timezone policy (some raw) before).2.bind platform.dateParse = some cursor →
          cursor ≤ now → keepsBacklog (cronChain platform cron timezone) policy cursor now)) := by
  refine ⟨repeated_ticks_end platform cron timezone policy raw start last readings catching parsed, ?_⟩
  intro settled
  obtain ⟨text, cursor⟩ := plan_ticks_of_slots platform cron timezone policy raw start readings parsed
  obtain ⟨m, here, covered, kept⟩ := slot_ticks_covered (cronChain platform cron timezone) policy catching start last
    readings (last_bounds readings last ordered ending)
  rw [not_due_of_slots, cursor, here] at settled
  have valid := date_parse_valid platform.otherDate raw start parsed
  rw [text, enqueues_backlog_of_slots platform cron timezone start last m _ valid covered settled, kept]
  have cursors : ∀ before, (planTicks platform cron timezone policy (some raw) before).2.bind platform.dateParse =
      (slotTicks (cronChain platform cron timezone) policy (some start) before).2 := fun before =>
    (plan_ticks_of_slots platform cron timezone policy raw start before parsed).2
  simp only [cursors, keepsEvery]

end catchUp

theorem catch_up_complete_two_runs :
    enqueuesBacklog utcMinutes "* * * * *" "UTC" 0 150000
      (planTicks utcMinutes "* * * * *" "UTC" (queueing .catch_up 2) (some "1970-01-01T00:00:00.000Z") [0, 150000]).1 := by
  have parsed := utc_minutes_parse_epoch
  have ended : (slotTicks (cronChain utcMinutes "* * * * *" "UTC") (queueing .catch_up 2) (some 0) [0, 150000]).2 =
      some 180000 := by decide
  refine ((catch_up_complete_iff utcMinutes "* * * * *" "UTC" (queueing .catch_up 2) "1970-01-01T00:00:00.000Z" 0 150000
    [0, 150000] rfl parsed (by decide) rfl).2 ?_).mpr ?_
  · rw [not_due_of_slots, (plan_ticks_of_slots _ _ _ _ _ 0 _ parsed).2, ended]
    rintro slot ⟨⟩
    decide
  · intro before now after _ cursor _ _ large
    exact absurd large (by decide)

-- Forty minutes behind with max_catchup_runs = 32: minutes 0..31 are enqueued, 32..40 never are.
theorem catch_up_drops_backlog :
    notDue utcMinutes "* * * * *" "UTC" (queueing .catch_up 32)
        (planTicks utcMinutes "* * * * *" "UTC" (queueing .catch_up 32) (some "1970-01-01T00:00:00.000Z") [2400000]).2
        2400000 ∧
      ¬ enqueuesBacklog utcMinutes "* * * * *" "UTC" 0 2400000
        (planTicks utcMinutes "* * * * *" "UTC" (queueing .catch_up 32) (some "1970-01-01T00:00:00.000Z") [2400000]).1 := by
  obtain ⟨text, cursor⟩ := plan_ticks_of_slots utcMinutes "* * * * *" "UTC" (queueing .catch_up 32)
    "1970-01-01T00:00:00.000Z" 0 [2400000] utc_minutes_parse_epoch
  have ended : (slotTicks (cronChain utcMinutes "* * * * *" "UTC") (queueing .catch_up 32) (some 0) [2400000]).2 =
      some 2460000 := by decide
  have dropped : "1970-01-01T00:32:00.000Z" ∉
      (slotTicks (cronChain utcMinutes "* * * * *" "UTC") (queueing .catch_up 32) (some 0) [2400000]).1.map toISOString := by
    decide
  constructor
  · rw [not_due_of_slots, cursor, ended]
    rintro slot ⟨⟩
    decide
  · rintro ⟨times, same, _, members⟩
    have due : (1920000 : Int) ∈ times := (members 1920000).mpr ⟨⟨32, by decide⟩, by decide⟩
    have named : toISOString 1920000 ∈ times.map toISOString := List.mem_map_of_mem due
    rw [← same, text] at named
    exact dropped named

section single

variable (platform : Platform) (cron timezone : String) (policy : SchedulePolicy)

-- Nothing of the backlog is left: the new cursor is past now, and so is all that a later tick enqueues.
def backlogDone (now : Int) (plan : MisfirePlan) : Prop :=
  (∀ raw, plan.advancedNext = some raw → ∃ time, platform.dateParse raw = some time ∧ now < time) ∧
  ∀ raw later next, plan.advancedNext = some raw → planAt platform cron timezone policy raw later = some next →
    ∀ text ∈ next.enqueueSlots, ∃ time, platform.dateParse text = some time ∧ now < time

theorem plan_slots_from (raw : String) (start now : Int) (plan : MisfirePlan) (parsed : platform.dateParse raw = some start)
    (planned : planAt platform cron timezone policy raw now = some plan) :
    ∀ text ∈ plan.enqueueSlots, ∃ time, platform.dateParse text = some time ∧ start ≤ time := by
  have due : start ≤ now := by
    by_contra early
    rw [plan_at_early platform cron timezone policy raw start now parsed (not_le.mp early)] at planned
    cases planned
  have valid := date_parse_valid platform.otherDate raw start parsed
  obtain ⟨same, same', slots, _⟩ := plan_at_due platform cron timezone policy raw start now parsed due
  cases planned.symm.trans same'
  intro text member
  rw [slots] at member
  obtain ⟨time, inside, rfl⟩ := List.mem_map.mp member
  obtain ⟨i, here⟩ := slot_plan_indexed (cronChain platform cron timezone) policy start now time inside
  exact ⟨time, platform_parse_iso platform time (cron_chain_nth_valid platform cron timezone start time i valid here),
    (cronChain platform cron timezone).nth_le start time i here⟩

-- One firing for run_once and none for skip. The advance is bounded, so the backlog is done with
-- exactly when it does not reach the slot the last step can stand on; otherwise that slot is next.
theorem one_firing_iff (raw : String) (start now : Int) (single : policy.misfire ≠ .catch_up)
    (parsed : platform.dateParse raw = some start) (due : start ≤ now) :
    ∃ plan, planAt platform cron timezone policy raw now = some plan ∧
      plan.enqueueSlots = (if policy.misfire = .run_once then [toISOString start] else []) ∧
      (backlogDone platform cron timezone policy now plan ↔
        ∀ slot, (cronChain platform cron timezone).nth start (MAX_SCHEDULE_ADVANCE_STEPS + 1) = some slot → now < slot) ∧
      ∀ slot, (cronChain platform cron timezone).nth start (MAX_SCHEDULE_ADVANCE_STEPS + 1) = some slot → slot ≤ now →
        plan.advancedNext = some (toISOString slot) := by
  let chain := cronChain platform cron timezone
  have valid := date_parse_valid platform.otherDate raw start parsed
  obtain ⟨plan, planned, slots, cursor⟩ := plan_at_due platform cron timezone policy raw start now parsed due
  have bounded : slotPlan chain policy start now =
      (if policy.misfire = .run_once then [start] else [], chain.escape now MAX_SCHEDULE_ADVANCE_STEPS start) := by
    unfold slotPlan
    cases kind : policy.misfire with
    | skip => rfl
    | run_once => rfl
    | catch_up => exact absurd kind single
  rw [bounded] at slots cursor
  have stepValid : ∀ time, chain.escape now MAX_SCHEDULE_ADVANCE_STEPS start = some time → validTime time := by
    intro time found
    obtain ⟨k, _, reached⟩ := chain.escape_reaches now start time _ found
    exact cron_chain_nth_valid platform cron timezone start time k valid reached
  refine ⟨plan, planned, ?_, ?_, ?_⟩
  · rw [slots]
    split <;> rfl
  · rw [← chain.escape_passes_iff now start MAX_SCHEDULE_ADVANCE_STEPS]
    constructor
    · rintro ⟨later, _⟩ time found
      rw [found] at cursor
      obtain ⟨same, text, past⟩ := later (toISOString time) cursor
      rw [platform_parse_iso platform time (stepValid time found)] at text
      exact Option.some.inj text ▸ past
    · intro passes
      have past : ∀ text, plan.advancedNext = some text → ∃ time, platform.dateParse text = some time ∧ now < time := by
        intro text found
        rw [cursor] at found
        obtain ⟨time, moved, rfl⟩ := Option.map_eq_some_iff.mp found
        exact ⟨time, platform_parse_iso platform time (stepValid time moved), passes time moved⟩
      refine ⟨past, ?_⟩
      intro text later next found nextPlanned slot member
      obtain ⟨time, read, after⟩ := past text found
      obtain ⟨fires, named, from_⟩ :=
        plan_slots_from platform cron timezone policy text time later next read nextPlanned slot member
      exact ⟨fires, named, lt_of_lt_of_le after from_⟩
  · intro slot reached inside
    rw [cursor, chain.escape_stops now start slot _ reached inside]
    rfl

end single

theorem one_firing_three_minutes :
    ∃ plan, planAt utcMinutes "* * * * *" "UTC" (queueing .run_once 1) "1970-01-01T00:00:00.000Z" 150000 = some plan ∧
      plan.enqueueSlots = ["1970-01-01T00:00:00.000Z"] ∧
      backlogDone utcMinutes "* * * * *" "UTC" (queueing .run_once 1) 150000 plan := by
  obtain ⟨plan, planned, slots, done, _⟩ := one_firing_iff utcMinutes "* * * * *" "UTC" (queueing .run_once 1)
    "1970-01-01T00:00:00.000Z" 0 150000 (by decide) utc_minutes_parse_epoch (by decide)
  refine ⟨plan, planned, slots.trans (by decide), done.mpr ?_⟩
  intro slot reached
  have last : (cronChain utcMinutes "* * * * *" "UTC").nth 0 33 = some 1980000 := by decide
  cases last.symm.trans reached
  decide

-- Forty minutes behind, run_once leaves minute 33 as the cursor, which is as due as minute 0 was.
theorem run_once_stays_behind :
    ∃ plan, planAt utcMinutes "* * * * *" "UTC" (queueing .run_once 1) "1970-01-01T00:00:00.000Z" 2400000 = some plan ∧
      plan.advancedNext = some "1970-01-01T00:33:00.000Z" ∧
      ¬ backlogDone utcMinutes "* * * * *" "UTC" (queueing .run_once 1) 2400000 plan := by
  obtain ⟨plan, planned, _, cursor⟩ := plan_at_due utcMinutes "* * * * *" "UTC" (queueing .run_once 1)
    "1970-01-01T00:00:00.000Z" 0 2400000 utc_minutes_parse_epoch (by decide)
  have behind : plan.advancedNext = some "1970-01-01T00:33:00.000Z" := cursor.trans (by decide)
  refine ⟨plan, planned, behind, ?_⟩
  rintro ⟨later, _⟩
  obtain ⟨time, read, past⟩ := later _ behind
  have minute : utcMinutes.dateParse "1970-01-01T00:33:00.000Z" = some 1980000 := by decide
  cases minute.symm.trans read
  exact absurd past (by decide)

end Vacps
