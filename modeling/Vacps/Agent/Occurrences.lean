import Vacps.Agent.AtMostOnce
import Vacps.Agent.Claim

/- Occurrences over runs of the whole agent: each is stored under its own id, once. -/
set_option autoImplicit false

namespace Vacps

open Library SchedulerStore

section ids

theorem split_last (separator : Char) (a b c d : List Char) (left : separator ∉ b) (right : separator ∉ d)
    (same : a ++ separator :: b = c ++ separator :: d) : a = c ∧ b = d := by
  induction a generalizing c with
  | nil =>
      cases c with
      | nil =>
          cases same
          exact ⟨rfl, rfl⟩
      | cons first rest =>
          obtain ⟨rfl, tail⟩ := List.cons.inj same
          exact absurd (tail ▸ List.mem_append_right rest List.mem_cons_self) left
  | cons first rest ih =>
      cases c with
      | nil =>
          obtain ⟨rfl, tail⟩ := List.cons.inj same
          exact absurd (tail ▸ List.mem_append_right rest List.mem_cons_self) right
      | cons head tail =>
          obtain ⟨rfl, later⟩ := List.cons.inj same
          obtain ⟨front, back⟩ := ih tail later
          exact ⟨congrArg (List.cons first) front, back⟩

theorem int_text_plain (n : Int) : ':' ∉ (toString n).toList := by
  have digits : ∀ m : Nat, ':' ∉ (toString m).toList := by
    intro m member
    rw [show toString m = Nat.repr m from rfl, Nat.toList_repr] at member
    have digit := Nat.isDigit_of_mem_toDigits (by decide) (by decide) member
    exact absurd digit (by decide)
  cases n with
  | ofNat m => exact digits m
  | negSucc m =>
      intro member
      rw [show toString (Int.negSucc m) = "-" ++ toString (m + 1) from rfl, String.toList_append] at member
      rcases List.mem_append.mp member with sign | digit
      · exact absurd sign (by decide)
      · exact digits (m + 1) digit

theorem occurrence_id_chars (id : String) (revision time : Int) : (occurrenceId id revision time).toList =
    (id.toList ++ ':' :: (toString revision).toList) ++ ':' :: (toString time).toList := by
  have colon : ":".toList = [':'] := by decide
  simp only [occurrenceId, scheduleOccurrenceId, String.toList_append, colon]
  simp

-- An id of any form: the revision and the time are read off its end.
theorem occurrence_ids_differ (a b : Occurrence)
    (same : occurrenceId a.scheduleId a.scheduleRevision a.scheduledForMs =
      occurrenceId b.scheduleId b.scheduleRevision b.scheduledForMs) : a = b := by
  have chars := congrArg String.toList same
  rw [occurrence_id_chars, occurrence_id_chars] at chars
  obtain ⟨front, times⟩ := split_last ':' _ _ _ _ (int_text_plain a.scheduledForMs) (int_text_plain b.scheduledForMs) chars
  obtain ⟨ids, revisions⟩ := split_last ':' _ _ _ _ (int_text_plain a.scheduleRevision) (int_text_plain b.scheduleRevision) front
  obtain ⟨aId, aRevision, aTime⟩ := a
  obtain ⟨bId, bRevision, bTime⟩ := b
  cases String.toList_inj.mp ids
  cases Int.repr_injective (String.toList_inj.mp revisions)
  cases Int.repr_injective (String.toList_inj.mp times)
  rfl

end ids

def Occurrence.id (occurrence : Occurrence) : String :=
  occurrenceId occurrence.scheduleId occurrence.scheduleRevision occurrence.scheduledForMs

-- Every stored occurrence has its own id.
def occurrencesNamed (db : Database) : Prop :=
  ∀ row ∈ db.tasks.rows, ∀ occurrence, row.occurrence = some occurrence → row.id = occurrence.id

-- Rows stay, with their occurrences.
def keepsOccurrences (before after : Database) : Prop :=
  ∀ id row, before.tasks.find? id = some row → ∃ last, after.tasks.find? id = some last ∧ last.occurrence = row.occurrence

section statements

theorem updated_named (db : Database) (selects : TaskRow → Bool) (change : TaskRow → TaskState) (named : occurrencesNamed db) :
    occurrencesNamed (db.updateTasks selects change).2 := by
  intro row member occurrence held
  obtain ⟨old, stored, rfl⟩ := List.mem_map.mp member
  split at held
  · rw [if_pos ‹_›]
    exact named old stored occurrence held
  · rw [if_neg ‹_›]
    exact named old stored occurrence held

theorem updated_keeps (db : Database) (selects : TaskRow → Bool) (change : TaskRow → TaskState) :
    keepsOccurrences db (db.updateTasks selects change).2 := by
  intro id row found
  have updated : (db.updateTasks selects change).2.tasks.find? id = _ := find_updated_task db.tasks selects change id
  rw [found, Option.map_some] at updated
  refine ⟨_, updated, ?_⟩
  split <;> rfl

theorem inserted_named (db after : Database) (row : TaskRow) (changes : Nat) (passed : db.insertTask row = .ok (changes, after))
    (own : ∀ occurrence, row.occurrence = some occurrence → row.id = occurrence.id) (named : occurrencesNamed db) :
    occurrencesNamed after := by
  unfold Database.insertTask at passed
  split at passed
  · split at passed
    · cases passed
      intro other member occurrence held
      rcases List.mem_append.mp member with old | last
      · exact named other old occurrence held
      · cases List.mem_singleton.mp last
        exact own occurrence held
    · cases passed
  · cases passed

theorem statement_named (db after : Database) (statement : Statement) (changes : Nat) (plain : statement.named = true)
    (passed : statement.exec db = .ok (changes, after)) (named : occurrencesNamed db) : occurrencesNamed after := by
  cases statement with
  | insertTask task status occurrence now =>
      cases Option.isNone_iff_eq_none.mp plain
      simp only [Statement.exec] at passed
      split at passed
      · exact inserted_named db after _ changes passed (by intro _ same; cases same) named
      · cases passed
        exact named
  | insertOccurrence task occurrence concurrency now =>
      simp only [Statement.exec] at passed
      split at passed
      · split at passed
        · cases passed
          exact named
        · refine inserted_named db after _ changes passed ?_ named
          intro own held
          cases held
          exact eq_of_beq plain
      · cases passed
        exact named
  | insertIdempotency key taskId now =>
      simp only [Statement.exec, Database.insertIdempotency] at passed
      split at passed
      · split at passed
        · split at passed
          · cases passed
            exact named
          · cases passed
        · cases passed
      · cases passed
        exact named
  | insertLog taskId sequence stream data =>
      simp only [Statement.exec, Database.insertLog] at passed
      split at passed
      · split at passed
        · cases passed
          exact named
        · cases passed
      · cases passed
  | upsertScheduler id cron timezone enabled task next revision policy now =>
      cases passed
      unfold Database.upsertScheduler
      split <;> exact named
  | claimScheduler advanced claimedAt now id revision raw =>
      cases passed
      exact named
  | deleteScheduler id =>
      cases passed
      exact named
  | failInterrupted id now =>
      cases passed
      exact updated_named db _ _ named
  | setCancelRequested id now =>
      cases passed
      exact updated_named db _ _ named
  | writeTask id status result error startedAt finishedAt now =>
      cases passed
      exact updated_named db _ _ named

theorem run_named (db : Database) (statement : Statement) (plain : statement.named = true) (named : occurrencesNamed db) :
    occurrencesNamed (db.run statement).2 := by
  unfold Database.run
  cases passed : statement.exec db with
  | error error => exact named
  | ok outcome => exact statement_named db outcome.2 statement outcome.1 plain passed named

theorem transaction_named (db : Database) (steps : List TransactionStep) (plain : ∀ step ∈ steps, step.statement.named = true)
    (named : occurrencesNamed db) : occurrencesNamed (db.transaction steps).2 := by
  refine transaction_holds occurrencesNamed steps ?_ db named
  intro step member middle after changes here passed
  exact statement_named middle after step.statement changes (plain step member) passed here

-- The row that holds an occurrence has the id the insert asks for first.
theorem occurrence_inserts (db : Database) (task : TaskDispatch) (occurrence : Occurrence) (concurrency : Concurrency) (now : Int)
    (own : task.task_id = occurrence.id) (named : occurrencesNamed db) :
    ∃ outcome, (Statement.insertOccurrence task occurrence concurrency now).exec db = .ok outcome := by
  simp only [Statement.exec]
  split
  · split
    · exact ⟨_, rfl⟩
    · rename_i absent
      have fresh : db.tasks.find? (newTask task .queued (some occurrence) now).id = none := by
        cases found : db.tasks.find? task.task_id with
        | none => exact found
        | some row => exact absurd (by rw [found]; rfl) absent
      have free : db.tasks.taken (newTask task .queued (some occurrence) now).occurrence = false := by
        rw [← Bool.not_eq_true]
        intro taken
        obtain ⟨row, member, held⟩ := List.mem_filterMap.mp (List.contains_iff_mem.mp taken)
        have stored := db.tasks.find_of_mem row member
        rw [named row member occurrence held, ← own] at stored
        exact absurd (by rw [stored]; rfl) absent
      rw [Database.insertTask, dif_pos fresh, dif_pos free]
      exact ⟨_, rfl⟩
  · exact ⟨_, rfl⟩

theorem claim_inserts (db : Database) (schedule : StoredScheduler) (now : Int) (slots : List ClaimEnqueueSlot)
    (own : ∀ slot ∈ slots, slot.occurrenceId = (slotOccurrence schedule slot).id) (named : occurrencesNamed db) :
    ∃ outcome, runSteps db (slots.map (slotStep schedule now)) = .ok outcome := by
  induction slots generalizing db with
  | nil => exact ⟨_, rfl⟩
  | cons slot rest ih =>
      have mine := own slot List.mem_cons_self
      obtain ⟨⟨changes, after⟩, passed⟩ := occurrence_inserts db (slotDispatch schedule slot) (slotOccurrence schedule slot)
        schedule.policy.concurrency now mine named
      have later := statement_named db after (slotStatement schedule now slot) changes (beq_iff_eq.mpr mine) passed named
      obtain ⟨⟨results, final⟩, ran⟩ := ih after (fun other member => own other (List.mem_cons_of_mem _ member)) later
      rw [run_slots_step db schedule now slot rest changes after passed, ran]
      exact ⟨_, rfl⟩

theorem claim_succeeds (platform : Platform) (db : Database) (schedule : StoredScheduler) (plan : MisfirePlan) (now : Int)
    (named : occurrencesNamed db) : ∃ results, (db.transaction (claimSteps platform schedule plan now)).1 = .ok results := by
  obtain ⟨⟨results, after⟩, ran⟩ := claim_inserts (claimedDb db schedule now plan) schedule now
    (plannedSlots platform schedule plan) (by
      intro slot member
      obtain ⟨iso, _, rfl⟩ := List.mem_map.mp member
      rfl) named
  refine ⟨(if guardMatches db schedule plan.scheduledForRaw then 1 else 0) :: results, ?_⟩
  rw [Database.transaction, claim_run_steps, ran]
  rfl

end statements

section runs

-- What one call of the agent does to the stored occurrences.
structure OccurrenceStep (before after : Database) : Prop where
  named : occurrencesNamed before → occurrencesNamed after
  keeps : keepsOccurrences before after

theorem occurrence_step_refl (db : Database) : OccurrenceStep db db :=
  ⟨fun named => named, fun _ row found => ⟨row, found, rfl⟩⟩

theorem kept_rows_occurrences (before after : Database) (rows : keepsRows before after) : keepsOccurrences before after :=
  fun id row found => ⟨row, rows id row found, rfl⟩

theorem occurrence_updated (db : Database) (selects : TaskRow → Bool) (change : TaskRow → TaskState) :
    OccurrenceStep db (db.updateTasks selects change).2 :=
  ⟨updated_named db selects change, updated_keeps db selects change⟩

theorem occurrence_statement (db : Database) (statement : Statement) (plain : statement.named = true) :
    OccurrenceStep db (db.run statement).2 := by
  refine ⟨run_named db statement plain, ?_⟩
  by_cases adds : statement.addsOnly = true
  · exact kept_rows_occurrences db _ (run_keeps_rows db statement adds)
  · cases statement with
    | failInterrupted id now => exact updated_keeps db _ _
    | setCancelRequested id now => exact updated_keeps db _ _
    | writeTask id status result error startedAt finishedAt now => exact updated_keeps db _ _
    | _ => exact absurd rfl adds

theorem occurrence_claimed (db : Database) (now : Int) : OccurrenceStep db (claimOldest db now).2 := by
  unfold claimOldest
  split
  · exact occurrence_step_refl db
  · exact occurrence_updated db _ _

theorem occurrence_ordinary (op : AgentOp) (agent : AgentState) (ordinary : op.ordinary = true) :
    OccurrenceStep agent.db (op.exec agent).2.db := by
  cases op with
  | run statement => exact occurrence_statement agent.db statement (Bool.and_eq_true_iff.mp ordinary).2
  | transaction steps =>
      have adds : ∀ step ∈ steps, step.statement.addsOnly = true ∧ step.statement.named = true :=
        fun step member => Bool.and_eq_true_iff.mp (List.all_eq_true.mp ordinary step member)
      exact ⟨transaction_named agent.db steps fun step member => (adds step member).2,
        kept_rows_occurrences _ _ (transaction_keeps_rows agent.db steps fun step member => (adds step member).1)⟩
  | claimNextQueued now => cases ordinary
  | beginPump => cases ordinary
  | endPump => cases ordinary
  | enterExecutor id => cases ordinary
  | leaveExecutor id => cases ordinary
  | _ => exact occurrence_step_refl agent.db

theorem occurrence_moved (op : AgentOp) (agent : AgentState) (place there : PumpPlace)
    (moved : pumpNext place op agent = some there) : OccurrenceStep agent.db (op.exec agent).2.db := by
  unfold pumpNext at moved
  split at moved
  · rw [AgentOp.exec]
    split <;> exact occurrence_step_refl agent.db
  · exact occurrence_claimed agent.db _
  · exact occurrence_step_refl agent.db
  · exact occurrence_step_refl agent.db
  · exact occurrence_step_refl agent.db
  · exact occurrence_step_refl agent.db
  · exact occurrence_step_refl agent.db
  · split at moved
    · exact occurrence_ordinary op agent ‹_›
    · cases moved

theorem occurrence_event (pool : AgentPool) (event : AgentEvent) (here : agentOutlined pool) :
    OccurrenceStep pool.state.db (agentPerform pool event).state.db := by
  cases event with
  | start callMade =>
      by_cases admitted : callMade.admitted pool.state = true
      · rw [agentPerform, if_pos admitted]
        exact occurrence_step_refl pool.state.db
      · rw [agentPerform, if_neg admitted]
        exact occurrence_step_refl pool.state.db
  | step i =>
      rcases advance_cases AgentOp.exec pool i with lost | ⟨callMade, op, rest, found, taken⟩
      · rw [agentPerform, lost]
        exact occurrence_step_refl pool.state.db
      · obtain ⟨places, aligned, _⟩ := here
        obtain ⟨place, _, follows⟩ := aligned_place _ _ _ _ _ aligned i _ found
        obtain ⟨there, moved, _⟩ := follows pool.state
        rw [agentPerform, taken]
        exact occurrence_moved op pool.state place there moved
  | crash now => exact occurrence_step_refl pool.state.db

variable (db : Database) (now : Int)

theorem occurrence_run_kept (before after : List AgentEvent) :
    keepsOccurrences (agentRun db now before).state.db (agentRun db now (before ++ after)).state.db := by
  induction after using List.reverseRecOn with
  | nil =>
      rw [List.append_nil]
      exact (occurrence_step_refl _).keeps
  | append_singleton front last ih =>
      intro id row found
      obtain ⟨middle, there, same⟩ := ih id row found
      have step := occurrence_event _ last (agent_run_outlined db now (before ++ front))
      obtain ⟨final, reached, again⟩ := step.keeps id middle there
      rw [← List.append_assoc, agent_run_append]
      exact ⟨final, reached, again.trans same⟩

theorem occurrence_run_named (named : occurrencesNamed db) (events : List AgentEvent) :
    occurrencesNamed (agentRun db now events).state.db := by
  induction events using List.reverseRecOn with
  | nil => exact named
  | append_singleton front last ih =>
      rw [agent_run_append]
      exact (occurrence_event _ last (agent_run_outlined db now front)).named ih

-- Enqueued at most once: a triple has one row in the whole run, which stays; no claim fails; and two
-- triples never share an id.
theorem occurrences_once (named : occurrencesNamed db) (events : List AgentEvent) :
    (∀ first second firstRest secondRest, events = first ++ firstRest → events = second ++ secondRest →
      ∀ a ∈ (agentRun db now first).state.db.tasks.rows, ∀ b ∈ (agentRun db now second).state.db.tasks.rows,
        ∀ occurrence, a.occurrence = some occurrence → b.occurrence = some occurrence → a.id = b.id) ∧
    (∀ before after, events = before ++ after →
      keepsOccurrences (agentRun db now before).state.db (agentRun db now events).state.db) ∧
    (∀ before i after, events = before ++ .step i :: after → ∀ platform schedule plan clock callMade rest,
      (agentRun db now before).threads[i]? =
          some ⟨callMade, .call (.transaction (claimSteps platform schedule plan clock)) rest⟩ →
        ∃ results, ((agentRun db now before).state.db.transaction (claimSteps platform schedule plan clock)).1 = .ok results) ∧
    ∀ a b : Occurrence, a.id = b.id → a = b := by
  refine ⟨?_, ?_, ?_, occurrence_ids_differ⟩
  · intro first second firstRest secondRest _ _ a memberA b memberB occurrence heldA heldB
    have idA := occurrence_run_named db now named first a memberA occurrence heldA
    have idB := occurrence_run_named db now named second b memberB occurrence heldB
    exact idA.trans idB.symm
  · intro before after split
    rw [split]
    exact occurrence_run_kept db now before after
  · intro before i after _ platform schedule plan clock callMade rest _
    exact claim_succeeds platform _ schedule plan clock (occurrence_run_named db now named before)

theorem occurrences_once_minute :
    let events : List AgentEvent :=
      [.step 0, .step 0, .start (.fireDueSchedulers utcMinutes 30000 30000), .step 1, .step 1]
    ∀ a ∈ (agentRun (Database.empty.upsertScheduler (minutely 1 none)) 0 events).state.db.tasks.rows,
      ∀ b ∈ (agentRun (Database.empty.upsertScheduler (minutely 1 none)) 0 (events ++ events)).state.db.tasks.rows,
        a.occurrence = some ⟨"schedule", 1, 0⟩ → b.occurrence = some ⟨"schedule", 1, 0⟩ → a.id = b.id := by
  intro events a memberA b memberB
  have named : occurrencesNamed (Database.empty.upsertScheduler (minutely 1 none)) := by
    intro row member
    cases member
  exact (occurrences_once _ 0 named (events ++ events)).1 events (events ++ events) events [] rfl (List.append_nil _).symm
    a memberA b memberB _

end runs

end Vacps
