import Vacps.ControlPlane.Holds

/- TaskService.cleanupPreview, and what cleanupRun makes of the count it reports. -/
set_option autoImplicit false

namespace Vacps.Tasks

open Library

section calls

-- The time stands still from the preview to the run.
def atClock (now : Int) (state : TasksState) : TasksState := { state with clock := fun _ => now }

-- The rows a preview with the default limits looks at.
def previewRows (filters : CleanupFilters) : Service (List TaskRow) := do
  let clauses ← buildCleanupClauses filters false
  call (.selectTasks
    { clauses := clauses ++ [isTerminal] ++ (if filters.includeDeleted then [] else [isLive])
      order := (·.created_at)
      descending := true
      limit := scanLimit none CLEANUP_MAX_PER_RUN })

def summary (filters : CleanupFilters) (rows : List TaskRow) : CleanupPreview where
  matched_count := rows.length
  deletable_count := ((rows.filter (!·.isProtected)).map (·.id)).length
  protected_count := ((rows.filter (·.isProtected)).map (·.id)).length
  status_breakdown := statusBreakdown rows
  sample_task_ids := ((rows.filter (!·.isProtected)).map (·.id)).take 20
  sample_protected_ids := ((rows.filter (·.isProtected)).map (·.id)).take 20
  filters := filters

theorem preview_summary (filters : CleanupFilters) :
    cleanupPreview filters none none = (previewRows filters).bind fun rows => pure (summary filters rows) := by
  rw [previewRows]
  change _ = Async.bind (Async.bind (buildCleanupClauses filters false) _) _
  rw [Async.bind_assoc]
  rfl

-- The tasks that are deleted now and were not before are these, and the others are as they were.
structure DeletesExactly (before after : Table String TaskRow TaskRow.id) (counted : List TaskRow) : Prop where
  deleted : ∀ id, id ∈ counted.map (·.id) ↔ ∃ row later, before.find? id = some row ∧ row.deleted_at = none ∧
    after.find? id = some later ∧ later.deleted_at ≠ none
  others : ∀ id, id ∉ counted.map (·.id) → after.find? id = before.find? id

variable (platform : Platform) (hashOpaque : Hashed → String)

-- Once a preview has reported its count, a run told to expect it is accepted and deletes what the preview counted.
def DoesAsPreviewed (filters : CleanupFilters) (reason deletedBy : Option String) (state : TasksState) : Prop :=
  ∀ preview between, (cleanupPreview filters none none).runIn TaskOp.exec state = (.ok preview, between) →
    ∃ rows body after, ((previewRows filters).runIn TaskOp.exec state).1 = .ok rows ∧
      (cleanupRun platform hashOpaque filters (some .soft) reason deletedBy (some preview.deletable_count) none none).runIn
        TaskOp.exec between = (.ok (body, none), after) ∧
      DeletesExactly state.tasks after.tasks (rows.filter (!·.isProtected))

def previewClauses (filters : CleanupFilters) (now : Int) : List Clause :=
  clausesOf filters false (if filters.expiredOnly then some (toISOString now) else none) ++ [isTerminal] ++
    if filters.includeDeleted then [] else [isLive]

def runClauses (filters : CleanupFilters) (now : Int) : List Clause :=
  clausesOf filters true (if filters.expiredOnly then some (toISOString now) else none) ++ [isTerminal] ++ [isLive]

-- Of the rows found, the newest that the preview looks at, those a run may delete, and the oldest of these.
def shown (planner : Planner) (found : List TaskRow) : List TaskRow :=
  (planner.arrange (·.created_at) true found).take CLEANUP_MAX_PER_RUN

def open_ (found : List TaskRow) : List TaskRow := found.filter fun row => !row.isProtected && row.deleted_at.isNone

def batch (planner : Planner) (found : List TaskRow) : List TaskRow :=
  (planner.arrange (·.created_at) false (open_ found)).take CLEANUP_BATCH_SIZE

-- No row that is deleted already is counted; and the rows a run may delete are within one batch and all shown, or, where
-- they are more, they were created at one time and the ones shown happen to be the ones the run takes first.
def WithinScope (planner : Planner) (found : List TaskRow) : Prop :=
  (∀ row ∈ shown planner found, row.isProtected = false → row.deleted_at = none) ∧
    (((open_ found).length ≤ CLEANUP_BATCH_SIZE ∧ ∀ row ∈ open_ found, row ∈ shown planner found) ∨
      (CLEANUP_BATCH_SIZE < (open_ found).length ∧
        (∀ row ∈ open_ found, ∀ other ∈ open_ found, row.created_at = other.created_at) ∧
        ∀ row ∈ open_ found, row ∈ shown planner found ↔ row ∈ batch planner found))

end calls

section selection

-- A condition that can always be evaluated, put among conditions that were evaluated.
theorem holds_insert (front back : List Clause) (clause : Clause) (row : TaskRow) (found sure : Bool)
    (answers : clause row = .ok sure) (held : holds (front ++ back) row = .ok found) :
    holds (front ++ clause :: back) row = .ok (found && sure) := by
  induction front with
  | nil =>
      rw [List.nil_append] at held ⊢
      rw [holds, answers]
      cases sure with
      | false =>
          rw [Bool.and_false]
          rfl
      | true =>
          rw [Bool.and_true, ← held]
          rfl
  | cons first rest ih =>
      rw [List.cons_append, holds] at held ⊢
      cases here : first row with
      | error message =>
          rw [here] at held
          cases held
      | ok passes =>
          rw [here] at held
          cases passes with
          | false =>
              cases held
              rfl
          | true => exact ih held

theorem clauses_split (filters : CleanupFilters) (expiredAt : Option String) :
    ∃ front back, ∀ skip, clausesOf filters skip expiredAt = front ++ (if skip then [isUnprotected] else []) ++ back :=
  ⟨_, _, fun _ => List.append_assoc _ _ _⟩

-- Where the preview's conditions can be evaluated, so can the run's: a row has to be unprotected and live besides.
theorem holds_run (filters : CleanupFilters) (now : Int) (row : TaskRow) (found : Bool)
    (held : holds (previewClauses filters now) row = .ok found) :
    holds (runClauses filters now) row = .ok (found && (!row.isProtected && row.deleted_at.isNone)) := by
  obtain ⟨front, back, split_⟩ := clauses_split filters (if filters.expiredOnly then some (toISOString now) else none)
  have unprotected : isUnprotected row = .ok (!row.isProtected) := by
    simp only [isUnprotected, TaskRow.isProtected, isRetentionProtected]
    cases row.legal_hold <;> cases row.pinned_at <;> rfl
  have live : isLive row = .ok row.deleted_at.isNone := rfl
  have shape : previewClauses filters now = front ++ (back ++ [isTerminal] ++ if filters.includeDeleted then [] else [isLive]) := by
    rw [previewClauses, split_]
    simp
  have wanted : runClauses filters now = front ++ isUnprotected :: (back ++ [isTerminal] ++ [isLive]) := by
    rw [runClauses, split_]
    simp
  have spared := holds_insert front _ isUnprotected row found _ unprotected (shape ▸ held)
  rw [wanted]
  cases deleted : filters.includeDeleted with
  | true =>
      rw [deleted, if_pos rfl, List.append_nil] at spared
      have both := holds_insert (front ++ isUnprotected :: (back ++ [isTerminal])) [] isLive row _ _ live (by simpa using spared)
      rw [Bool.and_assoc] at both
      simpa using both
  | false =>
      rw [deleted, if_neg (by decide)] at spared
      rw [spared]
      cases found with
      | false => rfl
      | true =>
          have asked := (holds_true _ row).mp held isLive (by simp [previewClauses, deleted])
          rw [live, Except.ok.injEq] at asked
          rw [asked, Bool.and_true]

theorem matching_run (filters : CleanupFilters) (now : Int) (rows found : List TaskRow)
    (matched : matching (previewClauses filters now) rows = .ok found) :
    matching (runClauses filters now) rows = .ok (open_ found) := by
  induction rows generalizing found with
  | nil =>
      cases matched
      rfl
  | cons row rest ih =>
      rw [matching] at matched
      cases here : holds (previewClauses filters now) row with
      | error message =>
          rw [here] at matched
          cases matched
      | ok taken =>
          cases others : matching (previewClauses filters now) rest with
          | error message =>
              rw [here, others] at matched
              cases matched
          | ok later =>
              rw [here, others] at matched
              cases matched
              rw [matching, holds_run filters now row taken here, ih later others]
              cases taken with
              | false => rfl
              | true =>
                  change Except.ok (if (!row.isProtected && row.deleted_at.isNone) = true then row :: open_ later else open_ later) =
                    Except.ok (open_ (row :: later))
                  rw [open_, open_, List.filter_cons]

end selection

section runs

variable (platform : Platform) (hashOpaque : Hashed → String) (filters : CleanupFilters) (state : TasksState) (now : Int)

theorem preview_rows_run :
    ∃ between, (previewRows filters).runIn TaskOp.exec (atClock now state) =
        (((matching (previewClauses filters now) state.tasks.rows).mapError Thrown.d1).map (shown state.planner), between) ∧
      between.tasks = state.tasks ∧ between.planner = state.planner ∧ between.clock = fun _ => now := by
  obtain ⟨between, built, tasks, planner, clock⟩ := build_cleanup filters false (atClock now state)
  refine ⟨between, ?_, tasks, planner, clock⟩
  rw [previewRows, Async.run_in_bind, built]
  dsimp only
  rw [call, Async.run_in_perform, TaskOp.exec, TaskQuery.run, tasks, planner]
  change ((matching (previewClauses filters now) state.tasks.rows >>= _).mapError Thrown.d1, between) = _
  cases matching (previewClauses filters now) state.tasks.rows with
  | error message => rfl
  | ok found => rfl

theorem preview_run :
    ∃ between, (cleanupPreview filters none none).runIn TaskOp.exec (atClock now state) =
        (((matching (previewClauses filters now) state.tasks.rows).mapError Thrown.d1).map fun found =>
          summary filters (shown state.planner found), between) ∧
      between.tasks = state.tasks ∧ between.planner = state.planner ∧ between.clock = fun _ => now := by
  obtain ⟨between, ran, same⟩ := preview_rows_run filters state now
  refine ⟨between, ?_, same⟩
  rw [preview_summary]
  change ((previewRows filters) >>= _).runIn TaskOp.exec (atClock now state) = _
  rw [Async.run_in_bind, ran]
  cases matching (previewClauses filters now) state.tasks.rows with
  | error message => rfl
  | ok found => rfl

theorem candidates_run (between : TasksState) (clock : between.clock = fun _ => now) (found : List TaskRow)
    (matched : matching (previewClauses filters now) between.tasks.rows = .ok found) :
    ∃ later, (cleanupCandidates filters .soft CLEANUP_BATCH_SIZE).runIn TaskOp.exec between =
      (.ok (batch between.planner found), later) ∧ later.tasks = between.tasks := by
  obtain ⟨later, built, tasks, planner, -⟩ := build_cleanup filters true between
  refine ⟨later, ?_, tasks⟩
  rw [cleanupCandidates, Async.run_in_bind, built, clock]
  dsimp only
  rw [call, Async.run_in_perform, TaskOp.exec, TaskQuery.run, tasks, planner]
  have matches_ := matching_run filters now between.tasks.rows found matched
  rw [runClauses] at matches_
  dsimp only
  rw [decide_eq_true rfl, Bool.true_or, if_pos rfl, matches_]
  rfl

-- What the run leaves of the row under an id.
def afterwards (statement : TaskStatement) (ids : List String) (id : String) (row : TaskRow) : TaskRow :=
  if id ∈ ids ∧ statement.selects row = true then statement.change row else row

def softDeletion (now : Int) (deletedBy reason : String) : TaskStatement := .softDelete now deletedBy reason .terminal

theorem delete_candidates_run (reason deletedBy : String) (candidates : List TaskRow) (later : TasksState) :
    ∃ after, (deleteCandidates platform .soft reason deletedBy now candidates).runIn TaskOp.exec later =
        (.ok (candidates.map (·.id)), after) ∧
      ∀ id, after.tasks.find? id = (later.tasks.find? id).map
        (afterwards (softDeletion now deletedBy reason) (candidates.map (·.id)) id) := by
  induction candidates generalizing later with
  | nil =>
      refine ⟨later, rfl, fun id => ?_⟩
      cases later.tasks.find? id with
      | none => rfl
      | some row => simp [afterwards]
  | cons first rest ih =>
      obtain ⟨after, ran, left⟩ := ih { later with
        tasks := later.tasks.update (fun row => decide (row.id = first.id) && (softDeletion now deletedBy reason).selects row)
          (softDeletion now deletedBy reason).change (change_id _) }
      refine ⟨after, ?_, fun id => ?_⟩
      · rw [deleteCandidates, Async.run_in_bind, Async.run_in_attempt, call, Async.run_in_perform, TaskOp.exec]
        rw [softDeletion] at ran
        dsimp only
        rw [Async.run_in_bind, ran]
        rfl
      · rw [left, Table.find_update, Option.map_map]
        refine Option.map_congr fun row stored => ?_
        have named : row.id = id := later.tasks.find_key id row stored
        have gone : (softDeletion now deletedBy reason).selects ((softDeletion now deletedBy reason).change row) = false := rfl
        generalize softDeletion now deletedBy reason = statement at gone ⊢
        rw [Function.comp_apply, List.map_cons, afterwards, afterwards, named]
        by_cases here : id = first.id
        · cases selected : statement.selects row with
          | true => simp [here, gone]
          | false => simp [selected]
        · simp [here]

theorem run_counts (reason deletedBy : Option String) (between : TasksState) (clock : between.clock = fun _ => now)
    (found : List TaskRow) (matched : matching (previewClauses filters now) between.tasks.rows = .ok found) (expected : Nat) :
    (expected ≠ (batch between.planner found).length → ∃ error after,
      (cleanupRun platform hashOpaque filters (some .soft) reason deletedBy (some expected) none none).runIn TaskOp.exec between =
        (.error error, after)) ∧
    (expected = (batch between.planner found).length → ∃ body after at_ by_ because,
      (cleanupRun platform hashOpaque filters (some .soft) reason deletedBy (some expected) none none).runIn TaskOp.exec between =
        (.ok (body, none), after) ∧
      ∀ id, after.tasks.find? id = (between.tasks.find? id).map
        (afterwards (softDeletion at_ by_ because) ((batch between.planner found).map (·.id)) id)) := by
  obtain ⟨later, selected, tasks⟩ := candidates_run filters now between clock found matched
  have unfolded : cleanupRun platform hashOpaque filters (some .soft) reason deletedBy (some expected) none none =
      (((cleanupCandidates filters .soft CLEANUP_BATCH_SIZE).bind
        (cleanupDeletes platform .soft (trimmedOr reason "bulk_cleanup") (trimmedOr deletedBy "mcp") (some expected))) >>= fun body =>
          pure (body, none)) := by
    rw [← cleanup_body_candidates]
    rfl
  have bound : ∀ (first : Service (List TaskRow)) (next : List TaskRow → Service CleanupBody), first.bind next = first >>= next :=
    fun _ _ => rfl
  rw [unfolded, bound, Async.run_in_bind, Async.run_in_bind, selected]
  dsimp only
  constructor
  · intro differ
    have refused : (some expected).filter (fun expected => !scopeCountAcceptable expected (batch between.planner found).length) =
        some expected := by
      simp [Option.filter, scopeCountAcceptable, differ]
    rw [cleanupDeletes, refused]
    exact ⟨_, later, rfl⟩
  · intro same
    have accepted : (some expected).filter (fun expected => !scopeCountAcceptable expected (batch between.planner found).length) =
        none := by
      simp [Option.filter, scopeCountAcceptable, same]
    obtain ⟨after, ran, left⟩ := delete_candidates_run platform (later.clock later.readings) (trimmedOr reason "bulk_cleanup")
      (trimmedOr deletedBy "mcp") (batch between.planner found) { later with readings := later.readings + 1 }
    rw [cleanupDeletes, accepted]
    dsimp only
    rw [Async.run_in_bind, call, Async.run_in_perform, TaskOp.exec]
    dsimp only
    rw [Async.run_in_bind, ran]
    refine ⟨_, after, later.clock later.readings, trimmedOr deletedBy "mcp", trimmedOr reason "bulk_cleanup", rfl, ?_⟩
    rw [← tasks]
    exact left

end runs

section scope

variable (before after : Table String TaskRow TaskRow.id)

-- A run deletes its candidates and nothing else.
theorem deletes_iff (at_ : Int) (by_ because : String) (candidates counted : List TaskRow)
    (eligible : ∀ row ∈ candidates, row ∈ before.rows ∧ (softDeletion at_ by_ because).selects row = true)
    (left : ∀ id, after.find? id = (before.find? id).map (afterwards (softDeletion at_ by_ because) (candidates.map (·.id)) id)) :
    DeletesExactly before after counted ↔ ∀ id, id ∈ counted.map (·.id) ↔ id ∈ candidates.map (·.id) := by
  have untouched : ∀ id, id ∉ candidates.map (·.id) → after.find? id = before.find? id := by
    intro id other
    rw [left]
    cases before.find? id with
    | none => rfl
    | some row =>
        rw [Option.map_some, afterwards, if_neg]
        exact fun both => other both.1
  have gone : ∀ id, id ∈ candidates.map (·.id) ↔ ∃ row later, before.find? id = some row ∧ row.deleted_at = none ∧
      after.find? id = some later ∧ later.deleted_at ≠ none := by
    intro id
    constructor
    · intro inside
      obtain ⟨row, member, rfl⟩ := List.mem_map.mp inside
      obtain ⟨stored, selected⟩ := eligible row member
      have found := before.find_of_mem row stored
      have live : row.deleted_at = none := by
        simp only [softDeletion, TaskStatement.selects, Bool.and_eq_true, Option.isNone_iff_eq_none] at selected
        exact selected.1
      refine ⟨row, (softDeletion at_ by_ because).change row, found, live, ?_, ?_⟩
      · rw [left, found, Option.map_some, afterwards, if_pos ⟨inside, selected⟩]
      · exact Option.some_ne_none _
    · rintro ⟨row, later, found, live, remains, deleted⟩
      by_contra other
      rw [untouched id other, found, Option.some.injEq] at remains
      rw [← remains] at deleted
      exact deleted live
  constructor
  · intro exactly id
    rw [exactly.deleted, gone]
  · intro same
    refine ⟨fun id => ?_, fun id other => untouched id fun inside => other ((same id).mpr inside)⟩
    rw [same, gone]

-- Rows of one table are the same where their ids are.
theorem same_ids_iff (rows first second : List TaskRow) (unique : (rows.map (·.id)).Nodup) (one : ∀ row ∈ first, row ∈ rows)
    (other : ∀ row ∈ second, row ∈ rows) :
    (∀ id, id ∈ first.map (·.id) ↔ id ∈ second.map (·.id)) ↔ ∀ row ∈ rows, row ∈ first ↔ row ∈ second := by
  have named : ∀ within : List TaskRow, (∀ row ∈ within, row ∈ rows) → ∀ row ∈ rows, row.id ∈ within.map (·.id) ↔ row ∈ within := by
    intro within inside row stored
    constructor
    · intro listed
      obtain ⟨found, member, same⟩ := List.mem_map.mp listed
      exact List.inj_on_of_nodup_map unique (inside found member) stored same ▸ member
    · exact List.mem_map_of_mem
  constructor
  · intro same row stored
    rw [← named first one row stored, ← named second other row stored]
    exact same row.id
  · intro same id
    constructor
    · intro listed
      obtain ⟨row, member, rfl⟩ := List.mem_map.mp listed
      exact List.mem_map_of_mem ((same row (one row member)).mp member)
    · intro listed
      obtain ⟨row, member, rfl⟩ := List.mem_map.mp listed
      exact List.mem_map_of_mem ((same row (other row member)).mpr member)

theorem taken_first {α : Type} (related : α → α → Prop) (items : List α) (sorted : items.Pairwise related) (count : Nat)
    (first later : α) (taken : first ∈ items.take count) (member : later ∈ items) (left : later ∉ items.take count) :
    related first later := by
  rw [← List.take_append_drop count items, List.pairwise_append] at sorted
  rw [← List.take_append_drop count items, List.mem_append] at member
  exact sorted.2.2 first taken later (member.resolve_left left)

-- The newest rows are the oldest only where all are as old.
theorem created_together (planner : Planner) (found : List TaskRow) (unique : (found.map (·.id)).Nodup)
    (more : CLEANUP_BATCH_SIZE < (open_ found).length)
    (same : ∀ row ∈ open_ found, row ∈ shown planner found ↔ row ∈ batch planner found) :
    ∀ row ∈ open_ found, ∀ other ∈ open_ found, row.created_at = other.created_at := by
  have oldest := planner.perm (·.created_at) false (open_ found)
  have newest := planner.perm (·.created_at) true found
  have length : (batch planner found).length = CLEANUP_BATCH_SIZE := by
    rw [batch, List.length_take, oldest.length_eq]
    exact Nat.min_eq_left more.le
  obtain ⟨old, taken⟩ := List.exists_mem_of_length_pos (by rw [length]; decide : 0 < (batch planner found).length)
  have left : ∃ late ∈ open_ found, late ∉ batch planner found := by
    by_contra none_
    simp only [not_exists, not_and, not_not] at none_
    have distinct : (open_ found).Nodup := List.Nodup.of_map _ (unique.sublist (List.filter_sublist.map _))
    have bound := (List.subperm_of_subset distinct none_).length_le
    omega
  obtain ⟨late, waiting, missed⟩ := left
  have tied : ∀ row ∈ batch planner found, ∀ other ∈ open_ found, other ∉ batch planner found →
      row.created_at = other.created_at := by
    intro row first other member later
    have inside := oldest.mem_iff.mp (List.mem_of_mem_take first)
    have upward := taken_first _ _ (planner.sorted (·.created_at) false (open_ found)) _ row other first
      (oldest.mem_iff.mpr member) later
    have downward := taken_first _ _ (planner.sorted (·.created_at) true found) _ row other ((same row inside).mpr first)
      (newest.mem_iff.mpr (List.mem_of_mem_filter member)) fun here => later ((same other member).mp here)
    exact String.le_antisymm upward downward
  have level : ∀ row ∈ open_ found, row.created_at = late.created_at := by
    intro row member
    by_cases first : row ∈ batch planner found
    · exact tied row first late waiting missed
    · exact (tied old taken row member first).symm.trans (tied old taken late waiting missed)
  intro row member other inside
  exact (level row member).trans (level other inside).symm

theorem scope_iff (planner : Planner) (found : List TaskRow) (unique : (found.map (·.id)).Nodup) :
    (∀ id, id ∈ ((shown planner found).filter (!·.isProtected)).map (·.id) ↔ id ∈ (batch planner found).map (·.id)) ↔
      WithinScope planner found := by
  have shownFound : ∀ row ∈ shown planner found, row ∈ found := fun row member =>
    (planner.perm _ _ _).mem_iff.mp (List.mem_of_mem_take member)
  have batchOpen : ∀ row ∈ batch planner found, row ∈ open_ found := fun row member =>
    (planner.perm _ _ _).mem_iff.mp (List.mem_of_mem_take member)
  have open_iff : ∀ row, row ∈ open_ found ↔ row ∈ found ∧ row.isProtected = false ∧ row.deleted_at = none := by
    intro row
    simp only [open_, List.mem_filter, Bool.and_eq_true, Bool.not_eq_true', Option.isNone_iff_eq_none]
  have batchFound : ∀ row ∈ batch planner found, row ∈ found := fun row member => ((open_iff row).mp (batchOpen row member)).1
  have byOpen : (∀ row ∈ found, row ∈ (shown planner found).filter (!·.isProtected) ↔ row ∈ batch planner found) ↔
      (∀ row ∈ shown planner found, row.isProtected = false → row.deleted_at = none) ∧
        ∀ row ∈ open_ found, row ∈ shown planner found ↔ row ∈ batch planner found := by
    simp only [List.mem_filter, Bool.not_eq_true']
    constructor
    · intro same
      refine ⟨fun row counted unprotected => ?_, fun row member => ?_⟩
      · exact ((open_iff row).mp (batchOpen row ((same row (shownFound row counted)).mp ⟨counted, unprotected⟩))).2.2
      · obtain ⟨stored, unprotected, -⟩ := (open_iff row).mp member
        rw [← same row stored]
        exact (and_iff_left unprotected).symm
    · rintro ⟨live, same⟩ row stored
      constructor
      · rintro ⟨counted, unprotected⟩
        exact (same row ((open_iff row).mpr ⟨stored, unprotected, live row counted unprotected⟩)).mp counted
      · intro taken
        have member := batchOpen row taken
        exact ⟨(same row member).mpr taken, ((open_iff row).mp member).2.1⟩
  rw [same_ids_iff found _ _ unique (fun row member => shownFound row (List.mem_of_mem_filter member)) batchFound, byOpen, WithinScope]
  refine and_congr_right fun _ => ?_
  by_cases few : (open_ found).length ≤ CLEANUP_BATCH_SIZE
  · have whole : ∀ row, row ∈ batch planner found ↔ row ∈ open_ found := by
      intro row
      have arranged := planner.perm (·.created_at) false (open_ found)
      rw [batch, List.take_of_length_le (arranged.length_eq.trans_le few), arranged.mem_iff]
    simp only [whole, few, not_lt.mpr few, true_and, false_and, or_false]
    refine forall₂_congr fun row member => ?_
    exact iff_true_right member
  · have more := lt_of_not_ge few
    simp only [few, more, true_and, false_and, false_or]
    exact (and_iff_right_of_imp (created_together planner found unique more)).symm

variable (platform : Platform) (hashOpaque : Hashed → String) (filters : CleanupFilters) (state : TasksState) (now : Int)

theorem found_stored (found : List TaskRow) (matched : matching (previewClauses filters now) state.tasks.rows = .ok found) :
    (found.map (·.id)).Nodup ∧ ∀ row ∈ found, row ∈ state.tasks.rows ∧ isTerminalTaskStatus row.status = true := by
  rw [matching_satisfies _ _ found matched]
  refine ⟨state.tasks.unique.sublist (List.filter_sublist.map _), fun row member => ?_⟩
  obtain ⟨stored, satisfied⟩ := List.mem_filter.mp member
  refine ⟨stored, ?_⟩
  have terminal := (holds_true _ row).mp ((satisfies_iff _ row).mp satisfied) isTerminal (by simp [previewClauses])
  exact Except.ok.inj terminal

theorem run_as_previewed (reason deletedBy : Option String) (found : List TaskRow)
    (matched : matching (previewClauses filters now) state.tasks.rows = .ok found) (between : TasksState)
    (tasks : between.tasks = state.tasks) (planner : between.planner = state.planner) (clock : between.clock = fun _ => now) :
    (∃ body after, (cleanupRun platform hashOpaque filters (some .soft) reason deletedBy
        (some (summary filters (shown state.planner found)).deletable_count) none none).runIn TaskOp.exec between =
          (.ok (body, none), after) ∧
        DeletesExactly state.tasks after.tasks ((shown state.planner found).filter (!·.isProtected))) ↔
      WithinScope state.planner found := by
  obtain ⟨unique, stored⟩ := found_stored filters state now found matched
  obtain ⟨refused, accepted⟩ := run_counts platform hashOpaque filters now reason deletedBy between clock found
    (by rw [tasks]; exact matched) (summary filters (shown state.planner found)).deletable_count
  rw [planner] at refused accepted
  rw [tasks] at accepted
  have eligible : ∀ at_ by_ because, ∀ row ∈ batch state.planner found,
      row ∈ state.tasks.rows ∧ (softDeletion at_ by_ because).selects row = true := by
    intro at_ by_ because row taken
    have member := (state.planner.perm _ _ _).mem_iff.mp (List.mem_of_mem_take taken)
    obtain ⟨inside, free⟩ := List.mem_filter.mp member
    obtain ⟨here, ended⟩ := stored row inside
    rw [Bool.and_eq_true] at free
    exact ⟨here, Bool.and_eq_true_iff.mpr ⟨free.2, ended⟩⟩
  rw [← scope_iff state.planner found unique]
  constructor
  · rintro ⟨body, after, ran, exactly⟩
    by_cases same : (summary filters (shown state.planner found)).deletable_count = (batch state.planner found).length
    · obtain ⟨body', after', at_, by_, because, ran', left⟩ := accepted same
      rw [ran', Prod.mk.injEq] at ran
      rw [← ran.2] at exactly
      exact (deletes_iff state.tasks after'.tasks at_ by_ because _ _ (eligible at_ by_ because) left).mp exactly
    · obtain ⟨error, after', ran'⟩ := refused same
      rw [ran'] at ran
      cases ran
  · intro same
    have shownNodup : (((shown state.planner found).filter (!·.isProtected)).map (·.id)).Nodup :=
      (((state.planner.perm _ _ found).map _).nodup_iff.mpr unique).sublist
        ((List.filter_sublist.trans (List.take_sublist _ _)).map _)
    have openNodup : ((open_ found).map (·.id)).Nodup := unique.sublist (List.filter_sublist.map _)
    have batchNodup : ((batch state.planner found).map (·.id)).Nodup :=
      (((state.planner.perm _ _ (open_ found)).map _).nodup_iff.mpr openNodup).sublist ((List.take_sublist _ _).map _)
    have counts := ((List.perm_ext_iff_of_nodup shownNodup batchNodup).mpr same).length_eq.trans (List.length_map _)
    obtain ⟨body, after, at_, by_, because, ran, left⟩ := accepted counts
    exact ⟨body, after, ran, (deletes_iff state.tasks after.tasks at_ by_ because _ _ (eligible at_ by_ because) left).mpr same⟩

theorem previewed_iff (reason deletedBy : Option String) :
    DoesAsPreviewed platform hashOpaque filters reason deletedBy (atClock now state) ↔
      ∀ found, matching (previewClauses filters now) state.tasks.rows = .ok found → WithinScope state.planner found := by
  obtain ⟨between, ran, tasks, planner, clock⟩ := preview_run filters state now
  obtain ⟨read, ranRows, -⟩ := preview_rows_run filters state now
  rw [DoesAsPreviewed, ran, ranRows]
  cases matched : matching (previewClauses filters now) state.tasks.rows with
  | error message =>
      refine iff_of_true (fun preview reached failed => ?_) (fun found failed => ?_)
      · cases failed
      · cases failed
  | ok found =>
      have alone := run_as_previewed platform hashOpaque filters state now reason deletedBy found matched between tasks planner clock
      constructor
      · rintro does other same
        cases same
        obtain ⟨rows, body, after, same, ran, exactly⟩ := does (summary filters (shown state.planner found)) between rfl
        cases same
        exact alone.mp ⟨body, after, ran, exactly⟩
      · intro within preview reached same
        cases same
        obtain ⟨body, after, ran, exactly⟩ := alone.mpr (within found rfl)
        exact ⟨_, body, after, rfl, ran, exactly⟩

-- A cleanup does what its preview said: exactly where no deleted row is counted and one batch holds what is counted.
theorem cleanup_as_previewed_iff (reason deletedBy : Option String) :
    DoesAsPreviewed platform hashOpaque filters reason deletedBy (atClock now state) ↔
      ∀ found, matching (previewClauses filters now) state.tasks.rows = .ok found → WithinScope state.planner found :=
  previewed_iff platform hashOpaque filters state now reason deletedBy

end scope

section concrete

-- As many tasks that have succeeded, and no filter.
def endedRows (count : Nat) : List TaskRow :=
  (List.range count).map fun i => rowWith (String.ofList (List.replicate i 't')) .succeeded

theorem ended_distinct (count : Nat) : ((endedRows count).map (·.id)).Nodup := by
  rw [endedRows, List.map_map]
  refine List.nodup_range.map fun i j same => ?_
  have lengths := congrArg (fun id => id.toList.length) same
  simpa [rowWith] using lengths

def endedTasks (count : Nat) : TasksState :=
  { oneTask (rowWith "t" .succeeded) none with tasks := ⟨endedRows count, ended_distinct count⟩ }

def unfiltered : CleanupFilters := { everything with includeDeleted := false }

theorem ended_matched (now : Int) (rows : List TaskRow) (ended : ∀ row ∈ rows, ∃ id, row = rowWith id .succeeded) :
    matching (previewClauses unfiltered now) rows = .ok rows := by
  induction rows with
  | nil => rfl
  | cons row rest ih =>
      obtain ⟨id, rfl⟩ := ended row (List.mem_cons_self ..)
      have others := ih fun other member => ended other (List.mem_cons_of_mem _ member)
      have here : holds (previewClauses unfiltered now) (rowWith id .succeeded) = .ok true := rfl
      rw [matching, here, others]
      rfl

-- Rows that are more than a batch and that the preview shows: it counts all of them, the run finds a batch.
theorem beyond_batch (planner : Planner) (rows : List TaskRow) (unique : rows.Nodup) (whole : open_ rows = rows)
    (more : CLEANUP_BATCH_SIZE < rows.length) (few : rows.length ≤ CLEANUP_MAX_PER_RUN) : ¬ WithinScope planner rows := by
  rintro ⟨-, scope⟩
  rw [whole] at scope
  rcases scope with short | many
  · exact absurd short.1 (Nat.not_le.mpr more)
  · have inside : rows ⊆ batch planner rows := by
      intro row member
      refine (many.2.2 row member).mp ?_
      have arranged := planner.perm (·.created_at) true rows
      rw [shown, List.take_of_length_le (arranged.length_eq.trans_le few)]
      exact arranged.mem_iff.mpr member
    have bound := (List.subperm_of_subset unique inside).length_le
    rw [batch, List.length_take] at bound
    omega

theorem ended_beyond (now : Int) (count : Nat) (more : CLEANUP_BATCH_SIZE < count) (few : count ≤ CLEANUP_MAX_PER_RUN) :
    ¬ DoesAsPreviewed utcMinutes unhashed unfiltered none none (atClock now (endedTasks count)) := by
  rw [previewed_iff]
  intro within
  have ended : ∀ row ∈ endedRows count, ∃ id, row = rowWith id .succeeded := by
    intro row member
    obtain ⟨i, -, rfl⟩ := List.mem_map.mp member
    exact ⟨_, rfl⟩
  have whole : open_ (endedRows count) = endedRows count := by
    refine List.filter_eq_self.mpr fun row member => ?_
    obtain ⟨id, rfl⟩ := ended row member
    rfl
  have length : (endedRows count).length = count := by rw [endedRows, List.length_map, List.length_range]
  exact beyond_batch stablePlanner (endedRows count) (List.Nodup.of_map _ (ended_distinct count)) whole
    (by rw [length]; exact more) (by rw [length]; exact few) (within _ (ended_matched now (endedRows count) ended))

theorem cleanup_beyond_batch :
    ¬ DoesAsPreviewed utcMinutes unhashed unfiltered none none (atClock 0 (endedTasks (CLEANUP_BATCH_SIZE + 1))) :=
  ended_beyond 0 (CLEANUP_BATCH_SIZE + 1) (Nat.lt_succ_self _) (by decide)

end concrete

end Vacps.Tasks
