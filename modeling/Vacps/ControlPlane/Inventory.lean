import Mathlib.Logic.Function.Basic
import Vacps.Agent.TaskQueue
import Vacps.ControlPlane.ScheduleWrites

/- The schedules of D1 against the ones the agents store, over interleaved service calls whose agent
   requests may fail or lose their reply. -/
set_option autoImplicit false

namespace Vacps.ControlPlane

open Library

-- What becomes of one request: a lost one is served and its reply never arrives.
inductive Fate where
  | answered
  | lost
  | failed
deriving DecidableEq, Repr

-- The clock readings are the agent's while it serves.
structure Exchange where
  fate : Fate
  nowMs : Int
  now : Int

-- The n-th request sent has the n-th exchange.
structure Estate where
  cp : CpState
  agents : String → AgentState
  exchanges : Nat → Exchange
  requests : Nat

def Estate.next (estate : Estate) : Exchange := estate.exchanges estate.requests

def Estate.request (estate : Estate) (backendId : String) (served : Agent Unit) : Except AppError Unit × Estate :=
  let answer := served.runIn AgentOp.exec (estate.agents backendId)
  match estate.next.fate with
  | .failed => (.error unreachableBackend, { estate with requests := estate.requests + 1 })
  | .lost =>
      (.error unreachableBackend,
        { estate with
          agents := Function.update estate.agents backendId answer.2
          requests := estate.requests + 1 })
  | .answered =>
      (answer.1.mapError fun _ => unreachableBackend,
        { estate with
          agents := Function.update estate.agents backendId answer.2
          requests := estate.requests + 1 })

section calls

variable (platform : Platform) (hashes : ScheduleHashes)

def Estate.exec : (op : CpOp) → Estate → Except AppError op.Result × Estate
  | .upsertScheduler backendId request, estate =>
      estate.request backendId
        (TaskQueue.upsertScheduler platform (wireOf request) estate.next.nowMs estate.next.now)
  | .deleteScheduler backendId id, estate => estate.request backendId (TaskQueue.deleteScheduler id)
  | op, estate => ((op.exec estate.cp).1, { estate with cp := (op.exec estate.cp).2 })

inductive ServiceCall where
  | create (input : CreateScheduleInput) (id : String) (now syncedAt : Int)
  | update (id : String) (input : UpdateScheduleInput) (now syncedAt : Int)
  | patch (id : String) (input : PatchScheduleInput) (now syncedAt : Int)
  | delete (id : String) (idempotencyKey : Option String)
  | reconcile (syncedAt : Int)

def ServiceCall.body : ServiceCall → Service Unit
  | .create input id now syncedAt => do
      let _ ← ControlPlane.create platform hashes input id now syncedAt
      pure ()
  | .update id input now syncedAt => do
      let _ ← ControlPlane.update platform id input now syncedAt
      pure ()
  | .patch id input now syncedAt => do
      let _ ← ControlPlane.patch platform hashes id input now syncedAt
      pure ()
  | .delete id idempotencyKey => do
      let _ ← ControlPlane.delete hashes id idempotencyKey
      pure ()
  | .reconcile syncedAt => do
      let _ ← ControlPlane.reconcile platform syncedAt
      pure ()

-- The schedule a call is about; reconcile is about whatever is listed.
def ServiceCall.subject : ServiceCall → Option String
  | .create _ id _ _ => some id
  | .update id _ _ _ => some id
  | .patch id _ _ _ => some id
  | .delete id _ => some id
  | .reconcile _ => none

def ServiceCall.creates : ServiceCall → Bool
  | .create _ _ _ _ => true
  | _ => false

abbrev ServicePool : Type := Pool CpOp CpOp.Result AppError Unit ServiceCall Estate

end calls

section stored

variable (platform : Platform)

def storesSchedule (agent : AgentState) (id : String) : Bool := (agent.db.schedulers.find? id).isSome

theorem upsert_stores (agent : AgentState) (wire : SchedulerStore.SchedulerWire) (nowMs now : Int) (id : String) :
    (storesSchedule agent id = true →
        storesSchedule ((TaskQueue.upsertScheduler platform wire nowMs now).runIn AgentOp.exec agent).2 id = true) ∧
      (storesSchedule ((TaskQueue.upsertScheduler platform wire nowMs now).runIn AgentOp.exec agent).2 id = true →
        id = wire.id ∨ storesSchedule agent id = true) := by
  have kept : ∀ after : AgentState, after = agent → (storesSchedule agent id = true → storesSchedule after id = true) ∧
      (storesSchedule after id = true → id = wire.id ∨ storesSchedule agent id = true) := by
    intro after same
    rw [same]
    exact ⟨fun stored => stored, Or.inr⟩
  simp only [TaskQueue.upsertScheduler, SchedulerStore.upsertFromWire, SchedulerStore.get, Async.run_in_bind,
    Async.run_in_perform, AgentOp.exec, Async.run_in_pure]
  generalize (agent.db.schedulers.find? wire.id).map SchedulerStore.rowToScheduler = current
  simp only [SchedulerStore.wireStatement]
  generalize mergeSchedulerWire platform _ _ = merged
  cases merged with
  | ignore => exact kept _ rfl
  | apply revision cron timezone enabled task policy nextRunAt =>
      have found := find_upserted_scheduler agent.db
      simp only [SchedulerStore.writeRowStatement, Async.run_in_bind, Async.run_in_perform, AgentOp.exec, Database.run,
        Statement.exec, storeResult, Async.run_in_pure, storesSchedule, found]
      by_cases same : wire.id = id
      · simp [same]
      · simp only [if_neg same]
        exact ⟨fun stored => stored, Or.inr⟩

theorem delete_stores (agent : AgentState) (gone id : String) :
    storesSchedule ((TaskQueue.deleteScheduler gone).runIn AgentOp.exec agent).2 id =
      (storesSchedule agent id && decide (gone ≠ id)) := by
  simp only [TaskQueue.deleteScheduler, SchedulerStore.remove, Async.run_in_bind, Async.run_in_perform, AgentOp.exec,
    Database.run, Statement.exec, storeResult, Async.run_in_pure, storesSchedule, Table.find_delete]
  by_cases same : gone = id
  · simp [same]
  · simp [same]

theorem upsert_answers (agent : AgentState) (wire : SchedulerStore.SchedulerWire) (nowMs now : Int) :
    ((TaskQueue.upsertScheduler platform wire nowMs now).runIn AgentOp.exec agent).1 = .ok () := by
  simp only [TaskQueue.upsertScheduler, SchedulerStore.upsertFromWire, SchedulerStore.get, Async.run_in_bind,
    Async.run_in_perform, AgentOp.exec, Async.run_in_pure, SchedulerStore.wireStatement]
  generalize mergeSchedulerWire platform _ _ = merged
  cases merged <;> rfl

def backendOf (cp : CpState) (id : String) : Option String := (cp.schedules.find? id).map ScheduleRow.backend_id

-- Every schedule an agent stores is one D1 holds for that agent's backend.
def contained (estate : Estate) : Prop :=
  ∀ backendId id, storesSchedule (estate.agents backendId) id = true → backendOf estate.cp id = some backendId

theorem upsert_exec (estate : Estate) (backendId : String) (request : SchedulerRequest) :
    let after := (Estate.exec platform (.upsertScheduler backendId request) estate).2
    after.cp = estate.cp ∧
      (∀ other id, storesSchedule (estate.agents other) id = true → storesSchedule (after.agents other) id = true) ∧
      ∀ other id, storesSchedule (after.agents other) id = true →
        (other = backendId ∧ id = request.id ∧ estate.next.fate ≠ .failed) ∨ storesSchedule (estate.agents other) id = true := by
  intro after
  have stores := fun id =>
    upsert_stores platform (estate.agents backendId) (wireOf request) estate.next.nowMs estate.next.now id
  have served : ∀ agents, agents = Function.update estate.agents backendId
      ((TaskQueue.upsertScheduler platform (wireOf request) estate.next.nowMs estate.next.now).runIn AgentOp.exec
        (estate.agents backendId)).2 → estate.next.fate ≠ .failed →
      (∀ other id, storesSchedule (estate.agents other) id = true → storesSchedule (agents other) id = true) ∧
        ∀ other id, storesSchedule (agents other) id = true →
          (other = backendId ∧ id = request.id ∧ estate.next.fate ≠ .failed) ∨ storesSchedule (estate.agents other) id = true := by
    intro agents same taken
    rw [same]
    refine ⟨?_, ?_⟩
    · intro other id stored
      by_cases here : other = backendId
      · subst here
        rw [Function.update_self]
        exact (stores id).1 stored
      · rwa [Function.update_of_ne here]
    · intro other id stored
      by_cases here : other = backendId
      · subst here
        rw [Function.update_self] at stored
        rcases (stores id).2 stored with named | before
        · exact Or.inl ⟨rfl, named, taken⟩
        · exact Or.inr before
      · rw [Function.update_of_ne here] at stored
        exact Or.inr stored
  cases fate : estate.next.fate with
  | failed =>
      have same : after = { estate with requests := estate.requests + 1 } := by
        simp only [after, Estate.exec, Estate.request, fate]
      rw [same]
      exact ⟨rfl, fun _ _ stored => stored, fun _ _ stored => Or.inr stored⟩
  | lost =>
      rw [fate] at served
      simp only [after, Estate.exec, Estate.request, fate]
      exact ⟨trivial, served _ rfl (by decide)⟩
  | answered =>
      rw [fate] at served
      simp only [after, Estate.exec, Estate.request, fate]
      exact ⟨trivial, served _ rfl (by decide)⟩

theorem upsert_answered (estate : Estate) (backendId : String) (request : SchedulerRequest) :
    (Estate.exec platform (.upsertScheduler backendId request) estate).1 =
      if estate.next.fate = .answered then .ok () else .error unreachableBackend := by
  cases fate : estate.next.fate with
  | failed => simp [Estate.exec, Estate.request, fate]
  | lost => simp [Estate.exec, Estate.request, fate]
  | answered => simp [Estate.exec, Estate.request, fate, upsert_answers, Except.mapError]

theorem delete_exec (estate : Estate) (backendId gone : String) :
    let after := (Estate.exec platform (.deleteScheduler backendId gone) estate).2
    after.cp = estate.cp ∧
      (∀ other id, storesSchedule (after.agents other) id = true → storesSchedule (estate.agents other) id = true) ∧
      (estate.next.fate ≠ .failed → storesSchedule (after.agents backendId) gone = false) := by
  intro after
  have stores := fun id => delete_stores (estate.agents backendId) gone id
  have served : ∀ agents, agents = Function.update estate.agents backendId
      ((TaskQueue.deleteScheduler gone).runIn AgentOp.exec (estate.agents backendId)).2 →
      (∀ other id, storesSchedule (agents other) id = true → storesSchedule (estate.agents other) id = true) ∧
        storesSchedule (agents backendId) gone = false := by
    intro agents same
    rw [same]
    refine ⟨?_, by rw [Function.update_self, stores]; simp⟩
    intro other id stored
    by_cases here : other = backendId
    · subst here
      rw [Function.update_self, stores, Bool.and_eq_true] at stored
      exact stored.1
    · rwa [Function.update_of_ne here] at stored
  cases fate : estate.next.fate with
  | failed =>
      have same : after = { estate with requests := estate.requests + 1 } := by
        simp only [after, Estate.exec, Estate.request, fate]
      rw [same]
      exact ⟨rfl, fun _ _ stored => stored, fun taken => absurd rfl taken⟩
  | lost =>
      simp only [after, Estate.exec, Estate.request, fate]
      exact ⟨trivial, (served _ rfl).1, fun _ => (served _ rfl).2⟩
  | answered =>
      simp only [after, Estate.exec, Estate.request, fate]
      exact ⟨trivial, (served _ rfl).1, fun _ => (served _ rfl).2⟩

-- The wire sync sends for the schedule.
def syncRequest (schedule : ScheduleRecord) (now : Int) : SchedulerRequest where
  id := schedule.id
  cron := schedule.expression
  timezone := schedule.timezone
  enabled := schedule.enabled
  task := schedule.task
  policy := schedule.policy
  revision := schedule.revision
  next_run_at := canonicalText platform (schedule.next_run_at.or
    (if schedule.enabled then nextCronRunAtIso platform schedule.expression schedule.timezone now else none))

theorem sync_run (schedule : ScheduleRecord) (syncedAt : Int) (estate : Estate) :
    (sync platform schedule syncedAt).runIn (Estate.exec platform) estate =
      Estate.exec platform (.upsertScheduler schedule.backend_id (syncRequest platform schedule syncedAt)) estate := by
  have sent : sync platform schedule syncedAt =
      (call (.upsertScheduler schedule.backend_id (syncRequest platform schedule syncedAt)) >>= fun _ => pure ()) := rfl
  rw [sent, Async.run_in_bind, call, Async.run_in_perform]
  cases outcome : Estate.exec platform (.upsertScheduler schedule.backend_id (syncRequest platform schedule syncedAt)) estate with
  | mk result after => cases result <;> rfl

theorem reconcile_each_next (syncedAt : Int) (schedule : ScheduleRecord) (rest : List ScheduleRecord) (estate : Estate) :
    ((reconcileEach platform syncedAt (schedule :: rest)).runIn (Estate.exec platform) estate).2 =
      ((reconcileEach platform syncedAt rest).runIn (Estate.exec platform)
        ((sync platform schedule syncedAt).runIn (Estate.exec platform) estate).2).2 := by
  simp only [reconcileEach, Async.run_in_bind, Async.run_in_attempt]
  split
  · rename_i counts after outcome
    rw [outcome]
    split <;> rfl
  · rename_i error after outcome
    rw [outcome]

end stored

-- An estate for concrete runs: no schedule anywhere, and requests that meet these fates in turn.
def emptyEstate (fates : List Fate) : Estate where
  cp := ⟨Table.empty, Table.empty, Table.empty, true, []⟩
  agents _ := AgentState.booting Database.empty [] []
  exchanges n := ⟨fates.getD n .answered, 0, 0⟩
  requests := 0

def constantHashes : ScheduleHashes := ⟨fun _ => "create", fun _ _ _ => "patch", fun _ => "delete"⟩

end Vacps.ControlPlane
