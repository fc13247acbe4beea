import Vacps.ControlPlane.Reconciled

/- schedule-service.ts: what a patch whose sync fails leaves in D1, and what the same request finds there
   when it is made again. -/
set_option autoImplicit false

namespace Vacps.ControlPlane

open Library

section retry

variable (platform : Platform) (hashes : ScheduleHashes)

-- If the patch throws, the row is as it was; and where the throw comes from a request that went out, the
-- same patch succeeds against answering agents and leaves the change once, the agent in step.
def AtomicRetryable (estate : Estate) (row : ScheduleRow) (request : PatchScheduleInput) (now syncedAt : Int) : Prop :=
  let first := (patch platform hashes row.id request now syncedAt).runIn (Estate.exec platform) estate
  let next := patchedSchedule (toSchedule row) (mergeChanges (toSchedule row) request.changes)
  ∀ error, first.1 = .error error →
    first.2.cp.schedules.find? row.id = some row ∧
      (first.2.requests ≠ estate.requests → ∀ (again : Estate) (later lateSync : Int), again.cp = first.2.cp →
        again.agents = first.2.agents → again.answersAll →
          let retried := (patch platform hashes row.id request later lateSync).runIn (Estate.exec platform) again
          ∃ written, retried.1 = .ok written ∧
            retried.2.cp.schedules.find? row.id = some (row.rewrite (nextRevision platform next later)) ∧
            InStep platform retried.2 written.schedule)

theorem sync_failed (schedule : ScheduleRecord) (syncedAt : Int) (estate : Estate) (failed : estate.next.fate ≠ .answered) :
    ((sync platform schedule syncedAt).runIn (Estate.exec platform) estate).1 = .error unreachableBackend := by
  rw [sync_run, upsert_answered, if_neg failed]

theorem write_revision_run (current next : ScheduleRecord) (syncedAt : Int) (estate : Estate) (row : ScheduleRow)
    (found : estate.cp.schedules.find? current.id = some row) :
    (writeRevision platform current next syncedAt).runIn (Estate.exec platform) estate =
      if row.revision = current.revision then
        (do
          let _ ← sync platform next syncedAt
          get current.id : Service ScheduleRecord).runIn (Estate.exec platform)
          (Estate.exec platform (.updateSchedule next current.id current.revision) estate).2
      else (.error (modifiedConcurrently current.id), (Estate.exec platform (.updateSchedule next current.id current.revision) estate).2) := by
  have count : estate.cp.schedules.rows.countP (fun row => decide (row.id = current.id) && row.revision == current.revision) =
      if row.revision = current.revision then 1 else 0 := by
    have selected := estate.cp.schedules.count_selected current.id fun row => row.revision == current.revision
    rw [selected, found]
    by_cases same : row.revision = current.revision
    · simp [same]
    · simp [same]
  have ran : (writeRevision platform current next syncedAt).runIn (Estate.exec platform) estate =
      (if estate.cp.schedules.rows.countP (fun row => decide (row.id = current.id) && row.revision == current.revision) = 0
        then (.fail (modifiedConcurrently current.id) : Service ScheduleRecord)
        else do
          let _ ← sync platform next syncedAt
          get current.id).runIn (Estate.exec platform)
        (Estate.exec platform (.updateSchedule next current.id current.revision) estate).2 := rfl
  rw [ran, count]
  by_cases same : row.revision = current.revision
  · simp only [if_pos same]
    rfl
  · simp only [if_neg same]
    rfl

-- A patch that reaches its UPDATE throws what the sync throws.
theorem patch_fails (estate : Estate) (row : ScheduleRow) (request : PatchScheduleInput) (now syncedAt : Int)
    (found : estate.cp.schedules.find? row.id = some row) (failed : estate.next.fate ≠ .answered)
    (reaches : Reaches estate.cp row request.idempotency_key request.expected_revision)
    (differs : ¬ sameSchedule (patchedSchedule (toSchedule row) (mergeChanges (toSchedule row) request.changes)) (toSchedule row)) :
    ((patch platform hashes row.id request now syncedAt).runIn (Estate.exec platform) estate).1 = .error unreachableBackend := by
  have revision : row.revision = (toSchedule row).revision := by rw [toSchedule, if_pos reaches.stored]
  have expected : request.expected_revision.any (· != (toSchedule row).revision) = false := by
    rw [Option.any_eq_false]
    intro given named
    simp [reaches.expected given named, ← revision]
  simp only [patch, Async.run_in_bind, load_update_run, reaches.fresh, get_run platform row.id estate row found, expected,
    Bool.false_eq_true, if_false, applyUpdate, if_neg differs]
  rw [write_revision_run platform _ _ syncedAt estate row found, if_pos revision, Async.run_in_bind]
  have thrown := sync_failed platform
    (nextRevision platform (patchedSchedule (toSchedule row) (mergeChanges (toSchedule row) request.changes)) now) syncedAt
    (Estate.exec platform (.updateSchedule (nextRevision platform (patchedSchedule (toSchedule row)
      (mergeChanges (toSchedule row) request.changes)) now) (toSchedule row).id (toSchedule row).revision) estate).2 failed
  cases outcome : (sync platform (nextRevision platform (patchedSchedule (toSchedule row)
    (mergeChanges (toSchedule row) request.changes)) now) syncedAt).runIn (Estate.exec platform)
      (Estate.exec platform (.updateSchedule (nextRevision platform (patchedSchedule (toSchedule row)
        (mergeChanges (toSchedule row) request.changes)) now) (toSchedule row).id (toSchedule row).revision) estate).2 with
  | mk result after =>
      rw [outcome] at thrown
      cases thrown
      rfl

def CpOp.asksAgent : CpOp → Bool
  | .upsertScheduler _ _ => true
  | .deleteScheduler _ _ => true
  | _ => false

theorem exec_requests (op : CpOp) (estate : Estate) (quiet : op.asksAgent = false) :
    (Estate.exec platform op estate).2.requests = estate.requests := by
  cases op with
  | upsertScheduler backendId request => cases quiet
  | deleteScheduler backendId id => cases quiet
  | _ => rfl

theorem quiet_requests {α : Type} (program : Service α) (quiet : program.Uses fun op => op.asksAgent = false) (estate : Estate) :
    (program.runIn (Estate.exec platform) estate).2.requests = estate.requests :=
  run_in_keeps _ (Estate.exec platform) (fun after => after.requests = estate.requests)
    (fun op after allowed same => (exec_requests platform op after allowed).trans same) program quiet estate rfl

theorem store_update_quiet (key : Option String) (result : WrittenSchedule) :
    (match truthy key with
      | none => pure result
      | some key => do
          let _ ← call (.storeUpdate ⟨key, result.requestHash, result.schedule⟩)
          pure result : Service WrittenSchedule).Uses fun op => op.asksAgent = false := by
  cases truthy key with
  | none => exact trivial
  | some key => exact uses_bind _ _ _ (uses_perform _ _ rfl) fun _ => trivial

-- A patch that does not reach its UPDATE sends no request.
theorem patch_quiet (estate : Estate) (row : ScheduleRow) (request : PatchScheduleInput) (now syncedAt : Int)
    (found : estate.cp.schedules.find? row.id = some row)
    (stays : ¬ (Reaches estate.cp row request.idempotency_key request.expected_revision ∧
      ¬ sameSchedule (patchedSchedule (toSchedule row) (mergeChanges (toSchedule row) request.changes)) (toSchedule row))) :
    ((patch platform hashes row.id request now syncedAt).runIn (Estate.exec platform) estate).2.requests = estate.requests := by
  simp only [patch, Async.run_in_bind, load_update_run]
  cases replay : replayed estate.cp request.idempotency_key with
  | some cached =>
      dsimp only
      split <;> rfl
  | none =>
      simp only [Async.run_in_bind, get_run platform row.id estate row found]
      by_cases mismatch : request.expected_revision.any (· != (toSchedule row).revision) = true
      · rw [if_pos mismatch]
        rfl
      · rw [if_neg mismatch, applyUpdate]
        by_cases same : sameSchedule (patchedSchedule (toSchedule row) (mergeChanges (toSchedule row) request.changes))
            (toSchedule row)
        · rw [if_pos same]
          exact quiet_requests platform _ (store_update_quiet request.idempotency_key
            ⟨toSchedule row, false, hashes.patch row.id request.expected_revision request.changes⟩) estate
        · have stale : row.revision ≠ (toSchedule row).revision := by
            intro revision
            refine stays ⟨⟨replay, ?_, ?_⟩, same⟩
            · intro expected given
              by_contra differs
              exact mismatch ((Option.any_eq_true _ _).mpr ⟨expected, given, by simpa [← revision] using differs⟩)
            · by_contra absent
              have first : row.revision = 1 := by simpa [toSchedule, absent] using revision
              omega
          rw [if_neg same, Async.run_in_bind, write_revision_run platform _ _ syncedAt estate row found, if_neg stale]
          rfl

-- A patch whose request fails is atomic and can be retried just in case it never comes to its UPDATE: a
-- replay answers it, a revision check refuses it, or it changes nothing.
theorem patch_atomic_retryable (estate : Estate) (row : ScheduleRow) (request : PatchScheduleInput) (now syncedAt : Int)
    (found : estate.cp.schedules.find? row.id = some row) (failed : estate.next.fate ≠ .answered) :
    AtomicRetryable platform hashes estate row request now syncedAt ↔
      ¬ (Reaches estate.cp row request.idempotency_key request.expected_revision ∧
        ¬ sameSchedule (patchedSchedule (toSchedule row) (mergeChanges (toSchedule row) request.changes)) (toSchedule row)) := by
  obtain ⟨after, left, writes, stays⟩ := patch_row platform hashes row.id request now syncedAt estate row found
  constructor
  · rintro atomic ⟨reaches, differs⟩
    have thrown := patch_fails platform hashes estate row request now syncedAt found failed reaches differs
    have kept := (atomic _ thrown).1
    rw [left, writes ⟨reaches, differs⟩] at kept
    have revision := congrArg ScheduleRow.revision (Option.some.inj kept)
    have stored : (toSchedule row).revision = row.revision := by rw [toSchedule, if_pos reaches.stored]
    have bumped : (toSchedule row).revision + 1 = row.revision := revision
    omega
  · intro quiet error _
    refine ⟨?_, ?_⟩
    · rw [left, stays quiet]
    · intro sent
      exact absurd (patch_quiet platform hashes estate row request now syncedAt found quiet) sent

end retry

def parisFailing : Estate := { emptyEstate [.failed] with cp := controlPlaneWith parisRow }

def renamed (name : String) (expected : Option Int) : PatchScheduleInput :=
  ⟨expected, ⟨some name, none, none, none, none⟩, some "patch-1"⟩

-- Renaming a schedule to the name it has changes nothing.
theorem patch_atomic_retryable_same :
    AtomicRetryable utcMinutes constantHashes parisFailing parisRow (renamed "nightly" (some 1)) 0 0 := by
  refine (patch_atomic_retryable utcMinutes constantHashes parisFailing parisRow (renamed "nightly" (some 1)) 0 0 rfl
    (by decide)).mpr ?_
  rintro ⟨_, differs⟩
  exact differs ⟨rfl, rfl, rfl, rfl, rfl, rfl⟩

-- The request fails after the UPDATE: the row keeps the new name and revision, the same patch is refused for
-- its expected revision, and without one it changes nothing and leaves the agent without the schedule.
theorem patch_failure_keeps_change :
    let first (expected : Option Int) := (patch utcMinutes constantHashes parisRow.id (renamed "hourly" expected) 0 0).runIn
      (Estate.exec utcMinutes) parisFailing
    let retried (expected : Option Int) :=
      (patch utcMinutes constantHashes parisRow.id (renamed "hourly" expected) 0 0).runIn (Estate.exec utcMinutes) (first expected).2
    (first (some 1)).1.toOption.isNone = true ∧
      ((first (some 1)).2.cp.schedules.find? parisRow.id).map (fun row => (row.name, row.revision)) = some ("hourly", 2) ∧
      (retried (some 1)).1.toOption.isNone = true ∧
      (retried none).1.toOption.isSome = true ∧ storesSchedule ((retried none).2.agents "backend") parisRow.id = false ∧
      ¬ AtomicRetryable utcMinutes constantHashes parisFailing parisRow (renamed "hourly" (some 1)) 0 0 := by
  intro first retried
  have moved : ((first (some 1)).2.cp.schedules.find? parisRow.id).map (fun row => (row.name, row.revision)) =
      some ("hourly", 2) := by decide +kernel
  refine ⟨by decide +kernel, moved, by decide +kernel, by decide +kernel, by decide +kernel, ?_⟩
  intro atomic
  have differs : ¬ sameSchedule (patchedSchedule (toSchedule parisRow)
      (mergeChanges (toSchedule parisRow) (renamed "hourly" (some 1)).changes)) (toSchedule parisRow) :=
    fun same => absurd same.1 (by decide)
  have reaches : Reaches parisFailing.cp parisRow (renamed "hourly" (some 1)).idempotency_key
      (renamed "hourly" (some 1)).expected_revision := ⟨rfl, fun revision given => (Option.some.inj given).symm, by decide⟩
  have thrown := patch_fails utcMinutes constantHashes parisFailing parisRow (renamed "hourly" (some 1)) 0 0 rfl (by decide)
    reaches differs
  have kept := (atomic _ thrown).1
  rw [show (first (some 1)).2.cp.schedules.find? parisRow.id = some parisRow from kept] at moved
  exact absurd moved (by decide)

end Vacps.ControlPlane
