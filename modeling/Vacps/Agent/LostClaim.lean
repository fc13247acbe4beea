import Vacps.Agent.Claim

/- A claim whose guarded UPDATE finds no row: the inserts behind it are sent all the same. -/
set_option autoImplicit false

namespace Vacps.SchedulerStore

open Library

section lost

variable (platform : Platform) (schedule : StoredScheduler) (agent : AgentState) (nowMs now : Int)

-- A result claimed:false comes with the tables as they were.
def lostClaimIsNoOp : Prop :=
  ∀ result, (claimAlone platform schedule agent nowMs now).1 = .ok result → result.claimed = false →
    (claimAlone platform schedule agent nowMs now).2.db.tasks = agent.db.tasks ∧
      (claimAlone platform schedule agent nowMs now).2.db.schedulers = agent.db.schedulers

-- The guarded row is there, or no planned slot would be inserted, or one insert fails them all.
def claimInsertsNothingLost : Prop :=
  ∀ plan, claimPlan platform schedule nowMs = some plan →
    guardMatches agent.db schedule plan.scheduledForRaw = true ∨
      openSlots agent.db schedule (plannedSlots platform schedule plan) = [] ∨
      (openSlots agent.db schedule (plannedSlots platform schedule plan)).any (slotTaken agent.db schedule) = true

theorem claim_result_lost (plan : MisfirePlan) (lost : (claimResult platform schedule plan
    (claimMarks platform agent.db schedule plan)).claimed = false) :
    guardMatches agent.db schedule plan.scheduledForRaw = false := by
  by_contra found
  have matched : guardMatches agent.db schedule plan.scheduledForRaw = true := by simpa using found
  simp [claimResult, claimMarks, matched] at lost

theorem lost_claim_keeps (harmless : claimInsertsNothingLost platform schedule agent nowMs) :
    lostClaimIsNoOp platform schedule agent nowMs now := by
  intro result returned lost
  cases planned : claimPlan platform schedule nowMs with
  | none =>
      obtain ⟨reason, alone⟩ := claim_alone_unplanned platform schedule agent nowMs now planned
      rw [alone]
      exact ⟨rfl, rfl⟩
  | some plan =>
      obtain ⟨raw, _, _, found⟩ := claim_plan_spec platform schedule nowMs plan planned
      have distinct := planned_slots_distinct platform schedule nowMs raw plan found
      have transaction := claim_transaction platform agent.db schedule now plan distinct
      rw [claim_alone_planned platform schedule agent nowMs now plan planned] at returned ⊢
      split at transaction
      · obtain ⟨error, failed⟩ := transaction
        rw [failed] at returned
        cases returned
      · obtain ⟨after, ran, rows, schedulers⟩ := transaction
        rw [ran] at returned ⊢
        cases returned
        have unmatched := claim_result_lost platform schedule agent plan lost
        have closed : openSlots agent.db schedule (plannedSlots platform schedule plan) = [] := by
          rcases harmless plan planned with matched | closed | taken
          · rw [unmatched] at matched
            cases matched
          · exact closed
          · exact absurd taken ‹_›
        refine ⟨task_table_ext _ _ ?_, ?_⟩
        · rw [rows, closed, List.map_nil, List.append_nil]
        · rw [schedulers, claimed_db_schedulers agent.db schedule now plan unmatched]

theorem lost_claim_leaks (plan : MisfirePlan) (planned : claimPlan platform schedule nowMs = some plan)
    (unmatched : guardMatches agent.db schedule plan.scheduledForRaw = false)
    (opened : openSlots agent.db schedule (plannedSlots platform schedule plan) ≠ [])
    (free : ¬ (openSlots agent.db schedule (plannedSlots platform schedule plan)).any (slotTaken agent.db schedule) = true) :
    ¬ lostClaimIsNoOp platform schedule agent nowMs now := by
  intro noOp
  obtain ⟨raw, _, _, found⟩ := claim_plan_spec platform schedule nowMs plan planned
  have distinct := planned_slots_distinct platform schedule nowMs raw plan found
  have transaction := claim_transaction platform agent.db schedule now plan distinct
  rw [if_neg free] at transaction
  obtain ⟨after, ran, rows, _⟩ := transaction
  have alone := claim_alone_planned platform schedule agent nowMs now plan planned
  rw [ran] at alone
  have lost : (claimResult platform schedule plan (claimMarks platform agent.db schedule plan)).claimed = false := by
    simp [claimResult, claimMarks, unmatched, notClaimed]
  have unchanged := (noOp _ (congrArg Prod.fst alone) lost).1
  rw [alone] at unchanged
  have same : after.tasks.rows = agent.db.tasks.rows := congrArg (fun table : TaskTable => table.rows) unchanged
  rw [rows] at same
  exact opened (by simpa using same)

theorem lost_claim_iff :
    lostClaimIsNoOp platform schedule agent nowMs now ↔ claimInsertsNothingLost platform schedule agent nowMs := by
  refine ⟨?_, lost_claim_keeps platform schedule agent nowMs now⟩
  intro noOp plan planned
  by_contra harm
  rw [not_or, not_or] at harm
  obtain ⟨unmatched, opened, free⟩ := harm
  exact lost_claim_leaks platform schedule agent nowMs now plan planned (by simpa using unmatched) opened free noOp

end lost

-- The snapshot was read at revision 1; an edit has moved the row to revision 2. The claim is lost,
-- and its task is in the table.
theorem lost_claim_inserts :
    let outcome := claimAlone utcMinutes (rowToScheduler (minutely 1 none)) (agentWith (minutely 2 none)) 30000 30000
    outcome.1.toOption.map ClaimResult.claimed = some false ∧
      outcome.2.db.tasks.rows.map TaskRow.id = ["schedule:1:0"] ∧
      (agentWith (minutely 2 none)).db.tasks.rows.map TaskRow.id = [] := by
  decide

end Vacps.SchedulerStore
