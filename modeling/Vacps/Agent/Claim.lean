import Mathlib
import Vacps.Agent.Misfire
import Vacps.Agent.SchedulerStore

/- claimAndEnqueue as one transaction: the guarded cursor update and the inserts behind it. -/
set_option autoImplicit false

namespace Vacps.SchedulerStore

open Library

section slots

variable (db : Database) (schedule : StoredScheduler) (now : Int)

def slotStored (slot : ClaimEnqueueSlot) : Bool := (db.tasks.find? slot.occurrenceId).isSome

def slotOccurrence (slot : ClaimEnqueueSlot) : Occurrence := ⟨schedule.id, slot.revision, slot.scheduledForMs⟩

def slotTaken (slot : ClaimEnqueueSlot) : Bool := db.tasks.taken (some (slotOccurrence schedule slot))

-- An active task of the schedule suppresses every insert unless the policy queues.
def scheduleHeld : Bool :=
  schedule.policy.concurrency != .queue && db.tasks.rows.any (TaskRow.active schedule.id)

-- The slots whose insert finds nothing in its way; without a queue the first insert is in the way
-- of the others.
def openSlots (slots : List ClaimEnqueueSlot) : List ClaimEnqueueSlot :=
  if scheduleHeld db schedule then []
  else
    let fresh := slots.filter fun slot => !slotStored db slot
    if schedule.policy.concurrency == .queue then fresh else fresh.take 1

def slotRow (slot : ClaimEnqueueSlot) : TaskRow :=
  newTask (slotDispatch schedule slot) .queued (some (slotOccurrence schedule slot)) now

def slotStep (slot : ClaimEnqueueSlot) : TransactionStep := ⟨slotStatement schedule now slot, none⟩

theorem slot_exec_held (slot : ClaimEnqueueSlot) (held : scheduleHeld db schedule = true) :
    (slotStatement schedule now slot).exec db = .ok (0, db) := by
  rw [scheduleHeld, Bool.and_eq_true, bne_iff_ne] at held
  simp [slotStatement, Statement.exec, held.1, held.2]

theorem slot_exec_stored (slot : ClaimEnqueueSlot) (stored : slotStored db slot = true) :
    (slotStatement schedule now slot).exec db = .ok (0, db) := by
  rw [slotStored] at stored
  simp [slotStatement, Statement.exec, slotDispatch, stored]

theorem slot_exec_open (slot : ClaimEnqueueSlot) (clear : scheduleHeld db schedule = false)
    (absent : slotStored db slot = false) :
    (slotStatement schedule now slot).exec db = db.insertTask (slotRow schedule now slot) := by
  have allowed : (schedule.policy.concurrency == .queue || !db.tasks.rows.any (TaskRow.active schedule.id)) = true := by
    rw [scheduleHeld] at clear
    cases same : schedule.policy.concurrency == Concurrency.queue
    · simpa [bne, same] using clear
    · rfl
  rw [slotStored] at absent
  simp [slotStatement, Statement.exec, slotDispatch, allowed, absent, slotRow, slotOccurrence]

theorem insert_task_taken (row : TaskRow) (taken : db.tasks.taken row.occurrence = true) :
    ∃ error, db.insertTask row = .error error := by
  unfold Database.insertTask
  split
  · rw [dif_neg (by simp [taken])]
    exact ⟨_, rfl⟩
  · exact ⟨_, rfl⟩

theorem insert_task_free (row : TaskRow) (fresh : db.tasks.find? row.id = none)
    (free : db.tasks.taken row.occurrence = false) :
    ∃ after, db.insertTask row = .ok (1, after) ∧ after.tasks.rows = db.tasks.rows ++ [row] ∧
      after.schedulers = db.schedulers := by
  rw [Database.insertTask, dif_pos fresh, dif_pos free]
  exact ⟨_, rfl, rfl, rfl⟩

theorem run_slots_step (slot : ClaimEnqueueSlot) (rest : List ClaimEnqueueSlot) (changes : Nat) (after : Database)
    (passed : (slotStatement schedule now slot).exec db = .ok (changes, after)) :
    runSteps db ((slot :: rest).map (slotStep schedule now)) =
      (runSteps after (rest.map (slotStep schedule now))).map fun (later, final) => (changes :: later, final) := by
  simp only [List.map_cons, runSteps, slotStep, passed, checkExpectedChanges]

theorem run_slots_held (slots : List ClaimEnqueueSlot) (held : scheduleHeld db schedule = true) :
    runSteps db (slots.map (slotStep schedule now)) = .ok (slots.map fun _ => 0, db) := by
  induction slots with
  | nil => rfl
  | cons slot rest ih =>
      rw [run_slots_step db schedule now slot rest 0 db (slot_exec_held db schedule now slot held), ih]
      rfl

theorem open_slots_held (slots : List ClaimEnqueueSlot) (held : scheduleHeld db schedule = true) :
    openSlots db schedule slots = [] := by rw [openSlots, if_pos held]

theorem open_slots_queue (slots : List ClaimEnqueueSlot) (queue : schedule.policy.concurrency = .queue) :
    openSlots db schedule slots = slots.filter fun slot => !slotStored db slot := by
  simp [openSlots, scheduleHeld, queue]

theorem open_slots_single (slots : List ClaimEnqueueSlot) (clear : scheduleHeld db schedule = false)
    (single : schedule.policy.concurrency ≠ .queue) :
    openSlots db schedule slots = (slots.filter fun slot => !slotStored db slot).take 1 := by
  simp [openSlots, clear, single]

theorem open_slot_absent (slots : List ClaimEnqueueSlot) (slot : ClaimEnqueueSlot)
    (member : slot ∈ openSlots db schedule slots) : slot ∈ slots ∧ slotStored db slot = false := by
  unfold openSlots at member
  split at member
  · cases member
  · have fresh : slot ∈ slots.filter fun slot => !slotStored db slot := by
      by_cases queue : (schedule.policy.concurrency == .queue) = true
      · rwa [if_pos queue] at member
      · rw [if_neg queue] at member
        exact List.mem_of_mem_take member
    simpa using List.mem_filter.mp fresh

theorem open_slots_stored (slot : ClaimEnqueueSlot) (rest : List ClaimEnqueueSlot) (stored : slotStored db slot = true) :
    openSlots db schedule (slot :: rest) = openSlots db schedule rest := by
  unfold openSlots
  rw [List.filter_cons_of_neg (by simp [stored])]

theorem slot_row_active (slot : ClaimEnqueueSlot) : (slotRow schedule now slot).active schedule.id = true := by
  simp [slotRow, newTask, TaskRow.active, slotOccurrence]

-- Slots of one schedule at distinct times: distinct ids, distinct occurrences.
def distinctSlots (slots : List ClaimEnqueueSlot) : Prop :=
  (slots.map ClaimEnqueueSlot.occurrenceId).Nodup ∧ (slots.map (slotOccurrence schedule)).Nodup

theorem distinct_rest (slot : ClaimEnqueueSlot) (rest : List ClaimEnqueueSlot)
    (distinct : distinctSlots schedule (slot :: rest)) :
    distinctSlots schedule rest ∧ ∀ other ∈ rest,
      other.occurrenceId ≠ slot.occurrenceId ∧ slotOccurrence schedule other ≠ slotOccurrence schedule slot := by
  obtain ⟨ids, occurrences⟩ := distinct
  obtain ⟨idAbsent, restIds⟩ := List.nodup_cons.mp ids
  obtain ⟨occurrenceAbsent, restOccurrences⟩ := List.nodup_cons.mp occurrences
  refine ⟨⟨restIds, restOccurrences⟩, ?_⟩
  intro other member
  exact ⟨fun same => idAbsent (same ▸ List.mem_map_of_mem member),
    fun same => occurrenceAbsent (same ▸ List.mem_map_of_mem member)⟩

section inserted

variable (after : Database) (slot : ClaimEnqueueSlot) (rest : List ClaimEnqueueSlot)
  (rows : after.tasks.rows = db.tasks.rows ++ [slotRow schedule now slot])

include rows

theorem inserted_holds (single : schedule.policy.concurrency ≠ .queue) : scheduleHeld after schedule = true := by
  simp [scheduleHeld, single, rows, slot_row_active]

theorem inserted_stored (other : ClaimEnqueueSlot) (different : other.occurrenceId ≠ slot.occurrenceId) :
    slotStored after other = slotStored db other := by
  have absent : ¬ (slotRow schedule now slot).id = other.occurrenceId := fun same => different same.symm
  unfold slotStored Table.find?
  rw [rows, List.find?_append]
  simp [absent]

theorem inserted_taken (other : ClaimEnqueueSlot)
    (different : slotOccurrence schedule other ≠ slotOccurrence schedule slot) :
    slotTaken after schedule other = slotTaken db schedule other := by
  simp [slotTaken, TaskTable.taken, rows, slotRow, newTask, different]

end inserted

-- What the inserts of a claim do: an open slot whose occurrence is taken fails the transaction;
-- otherwise exactly the open slots become rows.
def SlotsRun (slots : List ClaimEnqueueSlot) : Prop :=
  if (openSlots db schedule slots).any (slotTaken db schedule) then
    ∃ error, runSteps db (slots.map (slotStep schedule now)) = .error error
  else
    ∃ after, runSteps db (slots.map (slotStep schedule now)) =
        .ok (slots.map fun slot => if slot ∈ openSlots db schedule slots then 1 else 0, after) ∧
      after.tasks.rows = db.tasks.rows ++ (openSlots db schedule slots).map (slotRow schedule now) ∧
      after.schedulers = db.schedulers

theorem slots_run_held (slots : List ClaimEnqueueSlot) (held : scheduleHeld db schedule = true) :
    SlotsRun db schedule now slots := by
  rw [SlotsRun, open_slots_held db schedule slots held]
  refine ⟨db, ?_, by simp, rfl⟩
  simpa using run_slots_held db schedule now slots held

theorem slots_run_stored (slot : ClaimEnqueueSlot) (rest : List ClaimEnqueueSlot) (stored : slotStored db slot = true)
    (later : SlotsRun db schedule now rest) : SlotsRun db schedule now (slot :: rest) := by
  have absent : slot ∉ openSlots db schedule rest := by
    intro member
    have fresh := (open_slot_absent db schedule rest slot member).2
    rw [stored] at fresh
    cases fresh
  rw [SlotsRun, open_slots_stored db schedule slot rest stored,
    run_slots_step db schedule now slot rest 0 db (slot_exec_stored db schedule now slot stored)]
  unfold SlotsRun at later
  split at later
  · obtain ⟨error, failed⟩ := later
    rw [if_pos ‹_›, failed]
    exact ⟨error, rfl⟩
  · obtain ⟨after, passed, rows, schedulers⟩ := later
    rw [if_neg ‹_›, passed]
    exact ⟨after, by simp [Except.map, absent], rows, schedulers⟩

-- The insert goes through and the others are in its way.
theorem slots_run_single (slot : ClaimEnqueueSlot) (rest : List ClaimEnqueueSlot) (after : Database)
    (distinct : distinctSlots schedule (slot :: rest)) (single : schedule.policy.concurrency ≠ .queue)
    (opened : openSlots db schedule (slot :: rest) = [slot]) (free : slotTaken db schedule slot = false)
    (passed : (slotStatement schedule now slot).exec db = .ok (1, after))
    (rows : after.tasks.rows = db.tasks.rows ++ [slotRow schedule now slot]) (schedulers : after.schedulers = db.schedulers) :
    SlotsRun db schedule now (slot :: rest) := by
  have held := inserted_holds db schedule now after slot rows single
  have others : ∀ other ∈ rest, other ≠ slot := by
    intro other member same
    exact ((distinct_rest schedule slot rest distinct).2 other member).1 (same ▸ rfl)
  have zeros : rest.map (fun other => if other ∈ [slot] then 1 else 0) = rest.map fun _ => 0 := by
    refine List.map_congr_left ?_
    intro other member
    rw [if_neg (by simpa using others other member)]
  rw [SlotsRun, opened, if_neg (by simp [free]), run_slots_step db schedule now slot rest 1 after passed,
    run_slots_held after schedule now rest held]
  exact ⟨after, by simp only [Except.map, List.map_cons, zeros]; simp, by simpa using rows, schedulers⟩

-- Behind a queue one insert leaves what the others find as it was.
theorem slots_run_queue (slot : ClaimEnqueueSlot) (rest : List ClaimEnqueueSlot) (after : Database)
    (distinct : distinctSlots schedule (slot :: rest)) (queue : schedule.policy.concurrency = .queue)
    (absent : slotStored db slot = false) (free : slotTaken db schedule slot = false)
    (passed : (slotStatement schedule now slot).exec db = .ok (1, after))
    (rows : after.tasks.rows = db.tasks.rows ++ [slotRow schedule now slot]) (schedulers : after.schedulers = db.schedulers)
    (later : SlotsRun after schedule now rest) : SlotsRun db schedule now (slot :: rest) := by
  obtain ⟨_, others⟩ := distinct_rest schedule slot rest distinct
  have sameOpen : openSlots after schedule rest = openSlots db schedule rest := by
    rw [open_slots_queue after schedule rest queue, open_slots_queue db schedule rest queue]
    refine List.filter_congr ?_
    intro other member
    rw [inserted_stored db schedule now after slot rows other (others other member).1]
  have opened : openSlots db schedule (slot :: rest) = slot :: openSlots db schedule rest := by
    rw [open_slots_queue db schedule _ queue, open_slots_queue db schedule _ queue,
      List.filter_cons_of_pos (by simp [absent])]
  have sameTaken : (openSlots db schedule rest).any (slotTaken after schedule) =
      (openSlots db schedule rest).any (slotTaken db schedule) := by
    rw [Bool.eq_iff_iff, List.any_eq_true, List.any_eq_true]
    refine exists_congr fun other => and_congr_right fun member => ?_
    rw [inserted_taken db schedule now after slot rows other
      (others other (open_slot_absent db schedule rest other member).1).2]
  have notSlot : ∀ other ∈ rest, other ≠ slot := by
    intro other member same
    exact (others other member).1 (same ▸ rfl)
  rw [SlotsRun, sameOpen, sameTaken] at later
  rw [SlotsRun, opened, List.any_cons, free, Bool.false_or, run_slots_step db schedule now slot rest 1 after passed]
  split at later
  · obtain ⟨error, failed⟩ := later
    rw [if_pos ‹_›, failed]
    exact ⟨error, rfl⟩
  · obtain ⟨final, ran, added, kept⟩ := later
    rw [if_neg ‹_›, ran]
    have marks : rest.map (fun other => if other ∈ slot :: openSlots db schedule rest then 1 else 0) =
        rest.map fun other => if other ∈ openSlots db schedule rest then 1 else 0 := by
      refine List.map_congr_left ?_
      intro other member
      simp [notSlot other member]
    refine ⟨final, ?_, ?_, kept.trans schedulers⟩
    · simp only [Except.map, List.map_cons, marks, List.mem_cons_self, if_true]
    · rw [added, rows, List.map_cons]
      simp

theorem run_slots (slots : List ClaimEnqueueSlot) (distinct : distinctSlots schedule slots) :
    SlotsRun db schedule now slots := by
  induction slots generalizing db with
  | nil =>
      have empty : openSlots db schedule [] = [] := by unfold openSlots; simp
      rw [SlotsRun, empty]
      exact ⟨db, rfl, by simp, rfl⟩
  | cons slot rest ih =>
      obtain ⟨restDistinct, _⟩ := distinct_rest schedule slot rest distinct
      by_cases held : scheduleHeld db schedule = true
      · exact slots_run_held db schedule now (slot :: rest) held
      · have clear : scheduleHeld db schedule = false := by simpa using held
        by_cases stored : slotStored db slot = true
        · exact slots_run_stored db schedule now slot rest stored (ih db restDistinct)
        · have absent : slotStored db slot = false := by simpa using stored
          have head : ∃ more, openSlots db schedule (slot :: rest) = slot :: more := by
            unfold openSlots
            rw [if_neg held, List.filter_cons_of_pos (by simp [absent])]
            split
            · exact ⟨_, rfl⟩
            · exact ⟨[], rfl⟩
          by_cases taken : slotTaken db schedule slot = true
          · obtain ⟨more, opened⟩ := head
            obtain ⟨error, failed⟩ := insert_task_taken db (slotRow schedule now slot) taken
            rw [SlotsRun, opened, List.any_cons, taken, Bool.true_or, if_pos rfl]
            refine ⟨error, ?_⟩
            simp only [List.map_cons, runSteps, slotStep, slot_exec_open db schedule now slot clear absent, failed]
          · have free : slotTaken db schedule slot = false := by simpa using taken
            have fresh : db.tasks.find? (slotRow schedule now slot).id = none := by
              simpa [slotStored, slotRow, newTask, slotDispatch] using absent
            obtain ⟨after, inserted, rows, schedulers⟩ := insert_task_free db (slotRow schedule now slot) fresh free
            have passed := (slot_exec_open db schedule now slot clear absent).trans inserted
            by_cases queue : schedule.policy.concurrency = .queue
            · exact slots_run_queue db schedule now slot rest after distinct queue absent free passed rows schedulers
                (ih after restDistinct)
            · obtain ⟨more, opened⟩ := head
              have alone : openSlots db schedule (slot :: rest) = [slot] := by
                rw [open_slots_single db schedule _ clear queue, List.filter_cons_of_pos (by simp [absent])]
                rfl
              exact slots_run_single db schedule now slot rest after distinct queue alone free passed rows schedulers

end slots

theorem occurrence_id_injective (id : String) (revision a b : Int)
    (same : occurrenceId id revision a = occurrenceId id revision b) : a = b := by
  have texts : toString a = toString b := by simpa [occurrenceId, scheduleOccurrenceId] using same
  exact Int.repr_injective texts

section plan

variable (platform : Platform) (schedule : StoredScheduler)

theorem schedule_plan_spec (nowMs : Int) (raw : String) (plan : MisfirePlan)
    (planned : schedulePlan platform schedule nowMs raw = some plan) :
    ∃ start, platform.dateParse raw = some start ∧ start ≤ nowMs ∧
      plan.enqueueSlots =
        (slotPlan (cronChain platform schedule.cron schedule.timezone) schedule.policy start nowMs).1.map toISOString ∧
      plan.advancedNext =
        (slotPlan (cronChain platform schedule.cron schedule.timezone) schedule.policy start nowMs).2.map toISOString ∧
      plan.scheduledForRaw = raw ∧ plan.scheduledForMs = start := by
  cases parsed : platform.dateParse raw with
  | none =>
      rw [schedulePlan, planMisfire, parsed] at planned
      cases planned
  | some start =>
      by_cases early : nowMs < start
      · simp only [schedulePlan, planMisfire, parsed, if_pos early] at planned
        cases planned
      · have due : start ≤ nowMs := not_lt.mp early
        rw [schedulePlan,
          plan_misfire_of_chain platform schedule.cron schedule.timezone schedule.policy raw start nowMs parsed due] at planned
        cases planned
        exact ⟨start, rfl, due, rfl, rfl, rfl, rfl⟩

def slotAt (time : Int) : ClaimEnqueueSlot :=
  ⟨occurrenceId schedule.id schedule.revision time, toISOString time, time, schedule.revision⟩

theorem planned_slots_of_chain (nowMs : Int) (raw : String) (plan : MisfirePlan)
    (planned : schedulePlan platform schedule nowMs raw = some plan) :
    ∃ start, platform.dateParse raw = some start ∧ plannedSlots platform schedule plan =
      (slotPlan (cronChain platform schedule.cron schedule.timezone) schedule.policy start nowMs).1.map (slotAt schedule) := by
  obtain ⟨start, parsed, _, slots, _⟩ := schedule_plan_spec platform schedule nowMs raw plan planned
  have valid := date_parse_valid platform.otherDate raw start parsed
  refine ⟨start, parsed, ?_⟩
  rw [plannedSlots, slots, List.map_map]
  refine List.map_congr_left ?_
  intro time member
  obtain ⟨i, reached⟩ := slot_plan_indexed _ schedule.policy start nowMs time member
  have timeValid := cron_chain_nth_valid platform schedule.cron schedule.timezone start time i valid reached
  simp only [Function.comp_apply, platform_parse_iso platform time timeValid, Option.getD_some, slotAt]

theorem planned_slots_distinct (nowMs : Int) (raw : String) (plan : MisfirePlan)
    (planned : schedulePlan platform schedule nowMs raw = some plan) :
    distinctSlots schedule (plannedSlots platform schedule plan) := by
  obtain ⟨start, _, slots⟩ := planned_slots_of_chain platform schedule nowMs raw plan planned
  have times : (slotPlan (cronChain platform schedule.cron schedule.timezone) schedule.policy start nowMs).1.Nodup :=
    (slot_plan_sorted _ schedule.policy start nowMs).imp fun less => Int.ne_of_lt less
  rw [distinctSlots, slots, List.map_map, List.map_map]
  refine ⟨times.map ?_, times.map ?_⟩
  · intro a b same
    exact occurrence_id_injective schedule.id schedule.revision a b same
  · intro a b same
    simpa [slotOccurrence, slotAt] using same

end plan

section guard

variable (db : Database) (schedule : StoredScheduler) (now : Int)

-- The row the guarded UPDATE selects is there.
def guardMatches (raw : String) : Bool :=
  (db.schedulers.find? schedule.id).any fun row =>
    row.revision == schedule.revision && row.enabled && row.next_run_at == some raw

def claimedDb (plan : MisfirePlan) : Database :=
  (db.claimScheduler plan.advancedNext (toISOString plan.scheduledForMs) now schedule.id schedule.revision
    plan.scheduledForRaw).2

theorem claim_count (raw : String) :
    db.schedulers.rows.countP (SchedulerRow.matches schedule.id schedule.revision raw) =
      if guardMatches db schedule raw then 1 else 0 := by
  have count := db.schedulers.count_selected schedule.id fun row =>
    row.revision == schedule.revision && row.enabled && row.next_run_at == some raw
  refine count.trans ?_
  unfold guardMatches
  cases db.schedulers.find? schedule.id with
  | none => rfl
  | some row => rw [Option.toList_some, List.countP_singleton, Option.any_some]

theorem claim_exec (plan : MisfirePlan) :
    (claimStatement schedule plan now).exec db =
      .ok (if guardMatches db schedule plan.scheduledForRaw then 1 else 0, claimedDb db schedule now plan) := by
  rw [claimStatement, Statement.exec, ← claim_count]
  rfl

theorem claimed_db_tasks (plan : MisfirePlan) : (claimedDb db schedule now plan).tasks = db.tasks := rfl

theorem claimed_db_schedulers (plan : MisfirePlan) (unmatched : guardMatches db schedule plan.scheduledForRaw = false) :
    (claimedDb db schedule now plan).schedulers = db.schedulers := by
  have count := claim_count db schedule plan.scheduledForRaw
  rw [unmatched] at count
  exact Table.update_unselected db.schedulers _
    (SchedulerRow.claim plan.advancedNext (toISOString plan.scheduledForMs) now) (fun _ => rfl) count

theorem claimed_db_cursor (plan : MisfirePlan) (matched : guardMatches db schedule plan.scheduledForRaw = true) :
    ((claimedDb db schedule now plan).schedulers.find? schedule.id).map SchedulerRow.next_run_at =
      some plan.advancedNext := by
  obtain ⟨row, found, guarded⟩ := (Option.any_eq_true _ _).mp matched
  have updated := db.schedulers.find_update (SchedulerRow.matches schedule.id schedule.revision plan.scheduledForRaw)
    (SchedulerRow.claim plan.advancedNext (toISOString plan.scheduledForMs) now) (fun _ => rfl) schedule.id
  have chosen : SchedulerRow.matches schedule.id schedule.revision plan.scheduledForRaw row = true := by
    rw [SchedulerRow.matches, db.schedulers.find_key schedule.id row found, decide_eq_true rfl, Bool.true_and]
    exact guarded
  rw [found, Option.map_some, if_pos chosen] at updated
  exact congrArg (Option.map SchedulerRow.next_run_at) updated

theorem open_slots_tasks (other : Database) (same : other.tasks = db.tasks) (slots : List ClaimEnqueueSlot) :
    openSlots other schedule slots = openSlots db schedule slots := by
  unfold openSlots scheduleHeld slotStored
  rw [same]

theorem slot_taken_tasks (other : Database) (same : other.tasks = db.tasks) :
    slotTaken other schedule = slotTaken db schedule := by
  funext slot
  rw [slotTaken, same, ← slotTaken]

end guard

section transaction

variable (platform : Platform) (db : Database) (schedule : StoredScheduler) (now : Int)

def claimMarks (plan : MisfirePlan) : List Nat :=
  (if guardMatches db schedule plan.scheduledForRaw then 1 else 0) ::
    (plannedSlots platform schedule plan).map fun slot =>
      if slot ∈ openSlots db schedule (plannedSlots platform schedule plan) then 1 else 0

theorem claim_run_steps (plan : MisfirePlan) :
    runSteps db (claimSteps platform schedule plan now) =
      (runSteps (claimedDb db schedule now plan) ((plannedSlots platform schedule plan).map (slotStep schedule now))).map
        fun run => ((if guardMatches db schedule plan.scheduledForRaw then 1 else 0) :: run.1, run.2) := by
  simp only [claimSteps, runSteps, claim_exec, checkExpectedChanges]
  rfl

-- The whole transaction. Whether the guarded UPDATE found its row only shows in the first result.
theorem claim_transaction (plan : MisfirePlan) (distinct : distinctSlots schedule (plannedSlots platform schedule plan)) :
    if (openSlots db schedule (plannedSlots platform schedule plan)).any (slotTaken db schedule) then
      ∃ error, db.transaction (claimSteps platform schedule plan now) = (.error error, db)
    else
      ∃ after, db.transaction (claimSteps platform schedule plan now) = (.ok (claimMarks platform db schedule plan), after) ∧
        after.tasks.rows =
          db.tasks.rows ++ (openSlots db schedule (plannedSlots platform schedule plan)).map (slotRow schedule now) ∧
        after.schedulers = (claimedDb db schedule now plan).schedulers := by
  have same := claimed_db_tasks db schedule now plan
  have run := run_slots (claimedDb db schedule now plan) schedule now (plannedSlots platform schedule plan) distinct
  rw [SlotsRun, open_slots_tasks db schedule _ same, slot_taken_tasks db schedule _ same, same] at run
  rw [Database.transaction, claim_run_steps]
  split at run
  · obtain ⟨error, failed⟩ := run
    rw [if_pos ‹_›, failed]
    exact ⟨error, rfl⟩
  · obtain ⟨after, ran, rows, schedulers⟩ := run
    rw [if_neg ‹_›, ran]
    exact ⟨after, rfl, rows, schedulers⟩

end transaction

section outcome

variable (platform : Platform) (schedule : StoredScheduler) (agent : AgentState) (nowMs now : Int)

def claimAlone : Except AgentError ClaimResult × AgentState :=
  (claimAndEnqueue platform schedule nowMs now).runIn AgentOp.exec agent

-- What the claim is planned from; nothing is sent to the database without it.
def claimPlan : Option MisfirePlan :=
  if schedule.enabled then (truthy schedule.nextRunAt).bind fun raw => schedulePlan platform schedule nowMs raw else none

theorem claim_unplanned (unplanned : claimPlan platform schedule nowMs = none) :
    ∃ reason, claimAndEnqueue platform schedule nowMs now = pure (notClaimed reason none) := by
  unfold claimPlan at unplanned
  unfold claimAndEnqueue
  by_cases enabled : schedule.enabled = true
  · rw [if_pos enabled] at unplanned
    simp only [enabled, Bool.not_true, Bool.false_eq_true, if_false]
    cases cursor : truthy schedule.nextRunAt with
    | none => exact ⟨_, rfl⟩
    | some raw =>
        rw [cursor, Option.bind_some] at unplanned
        simp only [unplanned]
        exact ⟨_, rfl⟩
  · simp only [enabled, Bool.not_false, if_true]
    exact ⟨_, rfl⟩

theorem claim_planned (plan : MisfirePlan) (planned : claimPlan platform schedule nowMs = some plan) :
    claimAndEnqueue platform schedule nowMs now = (do
      let results ← call (.transaction (claimSteps platform schedule plan now))
      pure (claimResult platform schedule plan results)) := by
  unfold claimPlan at planned
  unfold claimAndEnqueue
  by_cases enabled : schedule.enabled = true
  · rw [if_pos enabled] at planned
    obtain ⟨raw, cursor, found⟩ := Option.bind_eq_some_iff.mp planned
    simp only [enabled, Bool.not_true, Bool.false_eq_true, if_false, cursor, found]
  · rw [if_neg enabled] at planned
    cases planned

theorem claim_alone_unplanned (unplanned : claimPlan platform schedule nowMs = none) :
    ∃ reason, claimAlone platform schedule agent nowMs now = (.ok (notClaimed reason none), agent) := by
  obtain ⟨reason, program⟩ := claim_unplanned platform schedule nowMs now unplanned
  exact ⟨reason, by rw [claimAlone, program, Async.run_in_pure]⟩

theorem claim_alone_planned (plan : MisfirePlan) (planned : claimPlan platform schedule nowMs = some plan) :
    claimAlone platform schedule agent nowMs now =
      ((storeResult (agent.db.transaction (claimSteps platform schedule plan now)).1).map (claimResult platform schedule plan),
        { agent with db := (agent.db.transaction (claimSteps platform schedule plan now)).2 }) := by
  rw [claimAlone, claim_planned platform schedule nowMs now plan planned, Async.run_in_bind, Async.run_in_perform,
    AgentOp.exec]
  cases (agent.db.transaction (claimSteps platform schedule plan now)).1 <;> rfl

theorem claim_plan_spec (plan : MisfirePlan) (planned : claimPlan platform schedule nowMs = some plan) :
    ∃ raw, schedule.enabled = true ∧ truthy schedule.nextRunAt = some raw ∧
      schedulePlan platform schedule nowMs raw = some plan := by
  unfold claimPlan at planned
  by_cases enabled : schedule.enabled = true
  · rw [if_pos enabled] at planned
    obtain ⟨raw, cursor, found⟩ := Option.bind_eq_some_iff.mp planned
    exact ⟨raw, enabled, cursor, found⟩
  · rw [if_neg enabled] at planned
    cases planned

end outcome

end Vacps.SchedulerStore
