import Vacps.Agent.AtMostOnce
import Vacps.Agent.Claim

/- What a claim under a policy without a queue inserts, and which tasks of the schedule are active then. -/
set_option autoImplicit false

namespace Vacps

open Library SchedulerStore

def TaskRow.live (row : TaskRow) : Bool := row.status == .queued || row.status == .running

-- A claimed occurrence has the schedule in its columns; every task dispatched for it, in its input.
def dispatchedFor (scheduleId : String) (row : TaskRow) : Bool :=
  row.occurrence.any (fun occurrence => occurrence.scheduleId = scheduleId) || row.task.schedule_id == some scheduleId

section claim

variable (platform : Platform) (db : Database) (schedule : StoredScheduler) (now : Int)

-- The slots a claim turns into rows: at most one unless the policy queues.
def claimable (slots : List ClaimEnqueueSlot) : List ClaimEnqueueSlot :=
  (openSlots db schedule slots).filter fun slot => !slotTaken db schedule slot

theorem claimable_single (slots : List ClaimEnqueueSlot) (single : schedule.policy.concurrency ≠ .queue) :
    (claimable db schedule slots).length ≤ 1 := by
  refine Nat.le_trans (List.length_filter_le _ _) ?_
  by_cases held : scheduleHeld db schedule = true
  · rw [open_slots_held db schedule slots held]
    exact Nat.zero_le 1
  · rw [open_slots_single db schedule slots (by simpa using held) single]
    exact List.length_take_le 1 _

theorem single_slots_rows (slots : List ClaimEnqueueSlot) (single : schedule.policy.concurrency ≠ .queue) :
    ((∃ error, runSteps db (slots.map (slotStep schedule now)) = .error error) ∧ claimable db schedule slots = []) ∨
      ∃ results after, runSteps db (slots.map (slotStep schedule now)) = .ok (results, after) ∧
        after.tasks.rows = db.tasks.rows ++ (claimable db schedule slots).map (slotRow schedule now) := by
  induction slots with
  | nil => exact Or.inr ⟨[], db, rfl, by simp [claimable, openSlots]⟩
  | cons slot rest ih =>
      by_cases held : scheduleHeld db schedule = true
      · refine Or.inr ⟨_, db, run_slots_held db schedule now (slot :: rest) held, ?_⟩
        simp [claimable, open_slots_held db schedule _ held]
      · have clear : scheduleHeld db schedule = false := by simpa using held
        by_cases stored : slotStored db slot = true
        · have same : claimable db schedule (slot :: rest) = claimable db schedule rest := by
            rw [claimable, open_slots_stored db schedule slot rest stored, ← claimable]
          rw [same, run_slots_step db schedule now slot rest 0 db (slot_exec_stored db schedule now slot stored)]
          rcases ih with ⟨⟨error, failed⟩, nothing⟩ | ⟨results, after, ran, rows⟩
          · exact Or.inl ⟨⟨error, by rw [failed]; rfl⟩, nothing⟩
          · exact Or.inr ⟨0 :: results, after, by rw [ran]; rfl, rows⟩
        · have absent : slotStored db slot = false := by simpa using stored
          have opened : openSlots db schedule (slot :: rest) = [slot] := by
            rw [open_slots_single db schedule _ clear single, List.filter_cons_of_pos (by simp [absent])]
            rfl
          by_cases taken : slotTaken db schedule slot = true
          · obtain ⟨error, failed⟩ := insert_task_taken db (slotRow schedule now slot) taken
            refine Or.inl ⟨⟨error, ?_⟩, by simp [claimable, opened, taken]⟩
            simp only [List.map_cons, runSteps, slotStep, slot_exec_open db schedule now slot clear absent, failed]
          · have free : slotTaken db schedule slot = false := by simpa using taken
            have fresh : db.tasks.find? (slotRow schedule now slot).id = none := by
              simpa [slotStored, slotRow, newTask, slotDispatch] using absent
            obtain ⟨after, inserted, rows, _⟩ := insert_task_free db (slotRow schedule now slot) fresh free
            have passed := (slot_exec_open db schedule now slot clear absent).trans inserted
            have others := inserted_holds db schedule now after slot rows single
            refine Or.inr ⟨1 :: rest.map fun _ => 0, after, ?_, by simp [claimable, opened, free, rows]⟩
            rw [run_slots_step db schedule now slot rest 1 after passed, run_slots_held after schedule now rest others]
            rfl

theorem single_claim_rows (plan : MisfirePlan) (single : schedule.policy.concurrency ≠ .queue) :
    (db.transaction (claimSteps platform schedule plan now)).2.tasks.rows =
      db.tasks.rows ++ (claimable db schedule (plannedSlots platform schedule plan)).map (slotRow schedule now) := by
  have same := claimed_db_tasks db schedule now plan
  have run := single_slots_rows (claimedDb db schedule now plan) schedule now (plannedSlots platform schedule plan) single
  rw [claimable, open_slots_tasks db schedule _ same, slot_taken_tasks db schedule _ same, same, ← claimable] at run
  rw [Database.transaction, claim_run_steps]
  rcases run with ⟨⟨error, failed⟩, nothing⟩ | ⟨results, after, ran, rows⟩
  · rw [failed, nothing, List.map_nil, List.append_nil]
    rfl
  · rw [ran]
    exact rows

-- One at a time: a claim that inserts finds no other task of the schedule active, and inserts one.
structure Exclusive (scheduleId : String) (before after : Database) : Prop where
  alone : after.tasks.rows ≠ before.tasks.rows → ∀ row ∈ before.tasks.rows, dispatchedFor scheduleId row = true → row.live = false
  single : after.tasks.rows.length ≤ before.tasks.rows.length + 1

-- Nothing is inserted, or no active task was dispatched for the schedule without being claimed.
def unshadowed (slots : List ClaimEnqueueSlot) : Prop :=
  claimable db schedule slots = [] ∨
    ∀ row ∈ db.tasks.rows, row.task.schedule_id = some schedule.id → row.live = false

theorem exclusive_claim_iff (plan : MisfirePlan) (single : schedule.policy.concurrency ≠ .queue) :
    Exclusive schedule.id db (db.transaction (claimSteps platform schedule plan now)).2 ↔
      unshadowed db schedule (plannedSlots platform schedule plan) := by
  have rows := single_claim_rows platform db schedule now plan single
  refine ⟨?_, ?_⟩
  · intro exclusive
    by_cases nothing : claimable db schedule (plannedSlots platform schedule plan) = []
    · exact Or.inl nothing
    · have changed : (db.transaction (claimSteps platform schedule plan now)).2.tasks.rows ≠ db.tasks.rows := by
        rw [rows]
        simpa using nothing
      refine Or.inr fun row member named => exclusive.alone changed row member ?_
      simp [dispatchedFor, named]
  · intro clear
    refine ⟨?_, ?_⟩
    · intro changed row member dispatched
      have inserts : claimable db schedule (plannedSlots platform schedule plan) ≠ [] := by
        intro nothing
        rw [rows, nothing, List.map_nil, List.append_nil] at changed
        exact changed rfl
      rcases Bool.or_eq_true_iff.mp dispatched with claimed | named
      · by_contra alive
        have active : row.active schedule.id = true := by
          rw [TaskRow.active, claimed, Bool.true_and]
          exact (Bool.not_eq_false _).mp alive
        have held : scheduleHeld db schedule = true := by
          simp only [scheduleHeld, Bool.and_eq_true, bne_iff_ne]
          exact ⟨single, List.any_eq_true.mpr ⟨row, member, active⟩⟩
        rw [claimable, open_slots_held db schedule _ held] at inserts
        exact inserts rfl
      · exact clear.resolve_left inserts row member (eq_of_beq named)
    · rw [rows, List.length_append, List.length_map]
      exact Nat.add_le_add_left (claimable_single db schedule _ single) _

end claim

-- The thread's next call is the transaction of this claim.
def claimPending (pool : AgentPool) (i : Nat) (platform : Platform) (schedule : StoredScheduler) (plan : MisfirePlan)
    (clock : Int) : Prop :=
  ∃ callMade rest, pool.threads[i]? = some ⟨callMade, .call (.transaction (claimSteps platform schedule plan clock)) rest⟩

theorem claim_step_db (pool : AgentPool) (i : Nat) (platform : Platform) (schedule : StoredScheduler) (plan : MisfirePlan)
    (clock : Int) (pending : claimPending pool i platform schedule plan clock) :
    (agentPerform pool (.step i)).state.db = (pool.state.db.transaction (claimSteps platform schedule plan clock)).2 := by
  obtain ⟨callMade, rest, found⟩ := pending
  rw [agentPerform, advance_taken AgentOp.exec pool i callMade _ rest found]
  rfl

-- The law of forbid over a run: every claim of it is exclusive exactly when none is shadowed.
theorem forbid_exclusive_iff (db : Database) (now : Int) (events : List AgentEvent) :
    (∀ before i after, events = before ++ .step i :: after → ∀ platform schedule plan clock,
        claimPending (agentRun db now before) i platform schedule plan clock → schedule.policy.concurrency = .forbid →
        Exclusive schedule.id (agentRun db now before).state.db (agentRun db now (before ++ [.step i])).state.db) ↔
      ∀ before i after, events = before ++ .step i :: after → ∀ platform schedule plan clock,
        claimPending (agentRun db now before) i platform schedule plan clock → schedule.policy.concurrency = .forbid →
        unshadowed (agentRun db now before).state.db schedule (plannedSlots platform schedule plan) := by
  have step : ∀ before i platform schedule plan clock,
      claimPending (agentRun db now before) i platform schedule plan clock → schedule.policy.concurrency = .forbid →
      (Exclusive schedule.id (agentRun db now before).state.db (agentRun db now (before ++ [.step i])).state.db ↔
        unshadowed (agentRun db now before).state.db schedule (plannedSlots platform schedule plan)) := by
    intro before i platform schedule plan clock pending forbid
    have single : schedule.policy.concurrency ≠ .queue := by
      rw [forbid]
      decide
    rw [← exclusive_claim_iff platform _ schedule clock plan single, agent_run_append,
      ← claim_step_db _ i platform schedule plan clock pending]
    rfl
  refine ⟨?_, ?_⟩
  · intro exclusive before i after split platform schedule plan clock pending forbid
    exact (step before i platform schedule plan clock pending forbid).mp
      (exclusive before i after split platform schedule plan clock pending forbid)
  · intro clear before i after split platform schedule plan clock pending forbid
    exact (step before i platform schedule plan clock pending forbid).mpr
      (clear before i after split platform schedule plan clock pending forbid)

-- A run-now task of a schedule with the default policy is queued when its occurrence is claimed.
theorem manual_run_unseen :
    let events : List AgentEvent :=
      [.step 0, .step 0, .start (.runScheduleNow "schedule" nightlyTask "manual" 10), .step 1,
        .start (.fireDueSchedulers utcMinutes 30000 30000), .step 2, .step 2]
    let rows (n : Nat) := (agentRun (Database.empty.upsertScheduler (minutely 1 none)) 0 (events.take n)).state.db.tasks.rows
    ((rows 6).map fun row => (row.id, row.status, row.task.schedule_id)) = [("manual", .queued, some "schedule")] ∧
      ((rows 7).map fun row => (row.id, row.status)) = [("manual", .queued), ("schedule:1:0", .queued)] ∧
      (rowToScheduler (minutely 1 none)).policy.concurrency = .forbid := by
  decide +kernel

end Vacps
