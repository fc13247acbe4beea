import Vacps.ControlPlane.TaskService

/- TaskService.list, the rows cleanupRun selects, and the filters on labels of both. -/
set_option autoImplicit false

namespace Vacps.Tasks

open Library

section queries

structure TaskListQuery where
  limit : Option Int
  offset : Option Int
  backendId : Option String
  type : Option String
  kind : Option String
  status : Option String
  source : Option String
  environment : Option String
  scheduleId : Option String
  terminal : Option Bool
  labels : Option Labels
  createdAfter : Option String
  createdBefore : Option String
  terminalBefore : Option String
  expiresBefore : Option String
  includeDeleted : Bool
  hideTest : Bool

def isKind (kind : String) : Clause := fun row => .ok (decide (row.kind = some kind ∨ row.type = kind))

def isActive : Clause := fun row => .ok (!isTerminalTaskStatus row.status)

-- A NULL column is unlike any value.
def unlessTest : Clause := fun row => .ok (decide (row.environment ≠ some "test" ∧ row.retention_class ≠ some .test))

def buildListClauses (opts : TaskListQuery) : List Clause :=
  (if opts.includeDeleted then [] else [isLive]) ++
    ((truthy opts.backendId).map (equals fun row => some row.backend_id)).toList ++
    ((truthy (opts.kind.or opts.type)).map isKind).toList ++
    ((truthy opts.status).map (equals fun row => some (statusText row.status))).toList ++
    ((truthy opts.source).map (equals fun row => some (sourceText row.source))).toList ++
    ((truthy opts.environment).map (equals (·.environment))).toList ++
    ((truthy opts.scheduleId).map (equals (·.schedule_id))).toList ++
    (opts.terminal.map fun terminal => if terminal then isTerminal else isActive).toList ++
    ((truthy opts.createdAfter).map (atLeast fun row => some row.created_at)).toList ++
    ((truthy opts.createdBefore).map (atMost fun row => some row.created_at)).toList ++
    ((truthy opts.terminalBefore).map (atMost (·.terminal_at))).toList ++
    ((truthy opts.expiresBefore).map (atMost (·.expires_at))).toList ++
    (if opts.hideTest then [unlessTest] else []) ++
    (opts.labels.getD []).map fun (key, value) => hasLabel key value

def listLimit (opts : TaskListQuery) : Nat := (min (max (opts.limit.getD 50) 1) 200).toNat

def listOffset (opts : TaskListQuery) : Nat := (max (opts.offset.getD 0) 0).toNat

-- LIMIT ? OFFSET ?: the rows after the first ones, of as many as both make.
def list (opts : TaskListQuery) : Service (List TaskIndex) := do
  let rows ← call (.selectTasks
    { clauses := buildListClauses opts
      order := (·.created_at)
      descending := true
      limit := listOffset opts + listLimit opts })
  pure ((rows.drop (listOffset opts)).map toTaskIndex)

-- The candidates of a cleanup.
def cleanupCandidates (filters : CleanupFilters) (mode : DeleteMode) (batchLimit : Nat) : Service (List TaskRow) := do
  let clauses ← buildCleanupClauses filters true
  call (.selectTasks
    { clauses := clauses ++ [isTerminal] ++ (if decide (mode = .soft) || !filters.includeDeleted then [isLive] else [])
      order := (·.created_at)
      descending := false
      limit := batchLimit })

-- What cleanupRun does to the candidates, once their number is the expected one.
def cleanupDeletes (platform : Platform) (mode : DeleteMode) (reason deletedBy : String) (expectedMatchedCount : Option Nat)
    (candidates : List TaskRow) : Service CleanupBody :=
  match expectedMatchedCount.filter fun expected => !scopeCountAcceptable expected candidates.length with
  | some expected => .fail (cleanupScopeChanged expected candidates.length)
  | none => do
      let now ← call .readClock
      let deleted ← deleteCandidates platform mode reason deletedBy now candidates
      pure
        { matched_count := candidates.length
          deleted_count := deleted.length
          skipped_count := candidates.length - deleted.length
          mode := mode
          reason := reason
          sample_deleted_ids := deleted.take 20 }

theorem cleanup_body_candidates (platform : Platform) (filters : CleanupFilters) (mode : DeleteMode) (reason deletedBy : String)
    (expectedMatchedCount : Option Nat) (batchLimit : Nat) :
    cleanupBody platform filters mode reason deletedBy expectedMatchedCount batchLimit =
      (cleanupCandidates filters mode batchLimit).bind (cleanupDeletes platform mode reason deletedBy expectedMatchedCount) := by
  rw [cleanupCandidates]
  change _ = Async.bind (Async.bind (buildCleanupClauses filters true) _) _
  rw [Async.bind_assoc]
  rfl

end queries

section meaning

def containsLabel (key value : String) (row : TaskRow) : Bool :=
  ((row.labels_json.bind fun labels => labels.member key).bind Json.asString) == some value

def satisfies (clauses : List Clause) (row : TaskRow) : Bool :=
  match holds clauses row with
  | .ok found => found
  | .error _ => false

theorem satisfies_iff (clauses : List Clause) (row : TaskRow) : satisfies clauses row = true ↔ holds clauses row = .ok true := by
  rw [satisfies]
  cases holds clauses row with
  | error message => simp
  | ok found => simp

-- The rows that match the other filters and contain every label.
def wanted (others : List Clause) (labels : Labels) (row : TaskRow) : Bool :=
  satisfies others row && labels.all fun (key, value) => containsLabel key value row

-- The conditions of a cleanup; expiredAt is the clock where the filter asks for what has expired.
def cleanupClauses (filters : CleanupFilters) (mode : DeleteMode) (state : TasksState) : List Clause :=
  clausesOf filters true (if filters.expiredOnly then some (toISOString (state.clock state.readings)) else none) ++ [isTerminal] ++
    if decide (mode = .soft) || !filters.includeDeleted then [isLive] else []

def SelectsExactly (labels : Labels) : Prop :=
  (∀ (opts : TaskListQuery) (state : TasksState), opts.labels = some labels →
    ((list opts).runIn TaskOp.exec state).1 = .ok
      ((((state.planner.arrange (·.created_at) true
        (state.tasks.rows.filter (wanted (buildListClauses { opts with labels := none }) labels))).drop (listOffset opts)).take
          (listLimit opts)).map toTaskIndex)) ∧
    ∀ (filters : CleanupFilters) (mode : DeleteMode) (batchLimit : Nat) (state : TasksState), filters.labels = some labels →
      ((cleanupCandidates filters mode batchLimit).runIn TaskOp.exec state).1 = .ok
        ((state.planner.arrange (·.created_at) false
          (state.tasks.rows.filter (wanted (cleanupClauses { filters with labels := none } mode state) labels))).take batchLimit)

-- z.record(z.string().min(1).max(64), z.string().max(256)), an object's keys once each.
structure AdmittedLabels (labels : Labels) : Prop where
  once : (labels.map Prod.fst).Nodup
  keys : ∀ label ∈ labels, 1 ≤ (Utf16.units label.1).length ∧ (Utf16.units label.1).length ≤ 64
  values : ∀ label ∈ labels, (Utf16.units label.2).length ≤ 256

-- A to Z, a to z, 0 to 9 and the underscore.
def isPathChar (char : Char) : Bool := char.isAlphanum || char == '_'

def PlainKey (key : String) : Prop := ∀ char ∈ key.toList, isPathChar char = true

end meaning

section clauses

-- A clause that no row makes fail.
def Steadfast (clause : Clause) : Prop := ∀ row, ∃ found, clause row = .ok found

def test (clause : Clause) (row : TaskRow) : Bool := satisfies [clause] row

theorem holds_all (clauses : List Clause) (steadfast : ∀ clause ∈ clauses, Steadfast clause) (row : TaskRow) :
    holds clauses row = .ok (clauses.all fun clause => test clause row) := by
  induction clauses with
  | nil => rfl
  | cons clause rest ih =>
      obtain ⟨found, answered⟩ := steadfast clause List.mem_cons_self row
      have later := ih fun other member => steadfast other (List.mem_cons_of_mem _ member)
      have here : test clause row = found := by
        simp only [test, satisfies, holds, answered]
        cases found <;> rfl
      rw [List.all_cons, here]
      simp only [holds, answered]
      cases found
      · rfl
      · exact later

theorem matching_filter (clauses : List Clause) (steadfast : ∀ clause ∈ clauses, Steadfast clause) (rows : List TaskRow) :
    matching clauses rows = .ok (rows.filter fun row => clauses.all fun clause => test clause row) := by
  induction rows with
  | nil => rfl
  | cons row rest ih =>
      rw [matching, holds_all clauses steadfast row, ih, List.filter_cons]
      rfl

theorem run_query (query : TaskQuery) (state : TasksState) (steadfast : ∀ clause ∈ query.clauses, Steadfast clause) :
    (call (.selectTasks query)).runIn TaskOp.exec state =
      (.ok ((state.planner.arrange query.order query.descending
        (state.tasks.rows.filter fun row => query.clauses.all fun clause => test clause row)).take query.limit), state) := by
  rw [call, Async.run_in_perform, TaskOp.exec, TaskQuery.run, matching_filter query.clauses steadfast]
  rfl

theorem build_cleanup (filters : CleanupFilters) (skipProtected : Bool) (state : TasksState) :
    ∃ after, (buildCleanupClauses filters skipProtected).runIn TaskOp.exec state = (.ok (clausesOf filters skipProtected
        (if filters.expiredOnly then some (toISOString (state.clock state.readings)) else none)), after) ∧
      after.tasks = state.tasks ∧ after.planner = state.planner ∧ after.clock = state.clock := by
  cases expired : filters.expiredOnly with
  | false => exact ⟨state, by simp [buildCleanupClauses, expired], rfl, rfl, rfl⟩
  | true =>
      exact ⟨{ state with readings := state.readings + 1 }, by simp [buildCleanupClauses, expired, call, TaskOp.exec], rfl, rfl, rfl⟩

theorem cleanup_query (filters : CleanupFilters) (mode : DeleteMode) (batchLimit : Nat) (state : TasksState)
    (steadfast : ∀ clause ∈ cleanupClauses filters mode state, Steadfast clause) :
    ((cleanupCandidates filters mode batchLimit).runIn TaskOp.exec state).1 = .ok
      ((state.planner.arrange (·.created_at) false
        (state.tasks.rows.filter fun row => (cleanupClauses filters mode state).all fun clause => test clause row)).take batchLimit) := by
  obtain ⟨after, built, tasks, planner, -⟩ := build_cleanup filters true state
  have run := run_query ⟨cleanupClauses filters mode state, (·.created_at), false, batchLimit⟩ after steadfast
  rw [tasks, planner] at run
  rw [cleanupCandidates, Async.run_in_bind, built]
  exact congrArg Prod.fst run

-- The clauses of the filters other than the labels.
theorem list_steadfast (opts : TaskListQuery) : ∀ clause ∈ buildListClauses { opts with labels := none }, Steadfast clause := by
  intro clause member
  simp only [buildListClauses, List.mem_append, Option.mem_toList, Option.map_eq_some_iff, Option.getD_none, List.map_nil,
    List.not_mem_nil, or_false, List.mem_ite_nil_left, List.mem_ite_nil_right, List.mem_singleton] at member
  rcases member with (((((((((((⟨_, rfl⟩ | ⟨_, _, rfl⟩) | ⟨_, _, rfl⟩) | ⟨_, _, rfl⟩) | ⟨_, _, rfl⟩) | ⟨_, _, rfl⟩) | ⟨_, _, rfl⟩) |
    ⟨terminal, _, rfl⟩) | ⟨_, _, rfl⟩) | ⟨_, _, rfl⟩) | ⟨_, _, rfl⟩) | ⟨_, _, rfl⟩) | ⟨_, rfl⟩
  case inl.inl.inl.inl.inl.inr =>
    cases terminal <;> exact fun row => ⟨_, rfl⟩
  all_goals exact fun row => ⟨_, rfl⟩

theorem list_labels (opts : TaskListQuery) (labels : Labels) (named : opts.labels = some labels) :
    buildListClauses opts = buildListClauses { opts with labels := none } ++ labels.map fun (key, value) => hasLabel key value := by
  simp [buildListClauses, named]

theorem cleanup_steadfast (filters : CleanupFilters) (mode : DeleteMode) (state : TasksState) :
    ∀ clause ∈ cleanupClauses { filters with labels := none } mode state, Steadfast clause := by
  intro clause member
  simp only [cleanupClauses, clausesOf, List.mem_append, Option.mem_toList, Option.map_eq_some_iff, Option.getD_none, List.map_nil,
    List.not_mem_nil, or_false, List.mem_ite_nil_right, List.mem_singleton, if_true] at member
  rcases member with (((((((((((((⟨_, _, rfl⟩ | ⟨_, _, rfl⟩) | ⟨_, _, rfl⟩) | ⟨_, _, rfl⟩) | ⟨_, _, rfl⟩) | ⟨_, _, rfl⟩) |
    ⟨_, _, rfl⟩) | ⟨_, _, rfl⟩) | ⟨_, _, rfl⟩) | ⟨_, _, rfl⟩) | ⟨_, rfl⟩) | rfl) | ⟨_, _, rfl⟩) | rfl) | ⟨_, rfl⟩
  all_goals exact fun row => ⟨_, rfl⟩

-- The labels stand between the other filters and the conditions every cleanup has.
theorem cleanup_labels (filters : CleanupFilters) (labels : Labels) (named : filters.labels = some labels) (mode : DeleteMode)
    (state : TasksState) :
    ∃ front back, cleanupClauses { filters with labels := none } mode state = front ++ back ∧
      cleanupClauses filters mode state = front ++ (labels.map fun (key, value) => hasLabel key value) ++ back := by
  refine ⟨clausesOf { filters with labels := none } true
    (if filters.expiredOnly then some (toISOString (state.clock state.readings)) else none),
    [isTerminal] ++ if decide (mode = .soft) || !filters.includeDeleted then [isLive] else [], ?_, ?_⟩
  · simp only [cleanupClauses, List.append_assoc]
  · simp [cleanupClauses, clausesOf, named]

end clauses

section plain

variable (key value : String)

theorem plain_path (plain : PlainKey key) : labelPath key = key := by
  have same : key.toList.filter isPathChar = key.toList := List.filter_eq_self.mpr plain
  rw [labelPath, show (fun char : Char => char.isAlphanum || char == '_') = isPathChar from rfl, same, String.ofList_toList]

theorem plain_clause (plain : PlainKey key) (some_ : key ≠ "") (row : TaskRow) :
    hasLabel key value row = .ok (containsLabel key value row) := by
  simp only [hasLabel, containsLabel, plain_path key plain, if_neg some_]
  cases row.labels_json <;> rfl

theorem plain_steadfast (plain : PlainKey key) (some_ : key ≠ "") : Steadfast (hasLabel key value) :=
  fun row => ⟨_, plain_clause key value plain some_ row⟩

theorem plain_test (plain : PlainKey key) (some_ : key ≠ "") (row : TaskRow) :
    test (hasLabel key value) row = containsLabel key value row := by
  simp only [test, satisfies, holds, plain_clause key value plain some_ row]
  cases containsLabel key value row <;> rfl

end plain

section exact

variable (labels : Labels) (plain : ∀ label ∈ labels, PlainKey label.1 ∧ label.1 ≠ "")

include plain

theorem labels_steadfast : ∀ clause ∈ labels.map (fun (key, value) => hasLabel key value), Steadfast clause := by
  intro clause member
  obtain ⟨⟨key, value⟩, inside, rfl⟩ := List.mem_map.mp member
  exact plain_steadfast key value (plain _ inside).1 (plain _ inside).2

theorem labels_test (row : TaskRow) :
    ((labels.map fun (key, value) => hasLabel key value).all fun clause => test clause row) =
      labels.all fun (key, value) => containsLabel key value row := by
  rw [List.all_map, Bool.eq_iff_iff, List.all_eq_true, List.all_eq_true]
  refine forall₂_congr fun label inside => ?_
  rw [Function.comp_apply, plain_test label.1 label.2 (plain label inside).1 (plain label inside).2 row]

-- With the label clauses among the others, the rows of both are the wanted ones.
theorem clauses_wanted (front back : List Clause) (steadfast : ∀ clause ∈ front ++ back, Steadfast clause) (row : TaskRow) :
    ((front ++ (labels.map fun (key, value) => hasLabel key value) ++ back).all fun clause => test clause row) =
      wanted (front ++ back) labels row := by
  rw [wanted, satisfies, holds_all (front ++ back) steadfast row]
  simp only [List.all_append, labels_test labels plain row]
  cases front.all fun clause => test clause row <;> simp [Bool.and_comm]

theorem list_exact (opts : TaskListQuery) (state : TasksState) (named : opts.labels = some labels) :
    ((list opts).runIn TaskOp.exec state).1 = .ok
      ((((state.planner.arrange (·.created_at) true
        (state.tasks.rows.filter (wanted (buildListClauses { opts with labels := none }) labels))).drop (listOffset opts)).take
          (listLimit opts)).map toTaskIndex) := by
  have others := list_steadfast opts
  have all : ∀ clause ∈ buildListClauses opts, Steadfast clause := by
    rw [list_labels opts labels named]
    exact List.forall_mem_append.mpr ⟨others, labels_steadfast labels plain⟩
  have rows : (fun row => (buildListClauses opts).all fun clause => test clause row) =
      wanted (buildListClauses { opts with labels := none }) labels := by
    funext row
    have found := clauses_wanted labels plain (buildListClauses { opts with labels := none }) [] (by simpa using others) row
    rw [List.append_nil, List.append_nil] at found
    rw [list_labels opts labels named, found]
  rw [list, Async.run_in_bind, run_query _ state all]
  simp only [rows, Async.run_in_pure, List.drop_take, Nat.add_sub_cancel_left]

theorem cleanup_exact (filters : CleanupFilters) (mode : DeleteMode) (batchLimit : Nat) (state : TasksState)
    (named : filters.labels = some labels) :
    ((cleanupCandidates filters mode batchLimit).runIn TaskOp.exec state).1 = .ok
      ((state.planner.arrange (·.created_at) false
        (state.tasks.rows.filter (wanted (cleanupClauses { filters with labels := none } mode state) labels))).take batchLimit) := by
  have others := cleanup_steadfast filters mode state
  obtain ⟨front, back, apart, joined⟩ := cleanup_labels filters labels named mode state
  rw [apart] at others ⊢
  have all : ∀ clause ∈ cleanupClauses filters mode state, Steadfast clause := by
    rw [joined]
    obtain ⟨first, last⟩ := List.forall_mem_append.mp others
    exact List.forall_mem_append.mpr ⟨List.forall_mem_append.mpr ⟨first, labels_steadfast labels plain⟩, last⟩
  have rows : (fun row => (cleanupClauses filters mode state).all fun clause => test clause row) =
      wanted (front ++ back) labels := by
    funext row
    rw [joined, clauses_wanted labels plain front back others row]
  rw [cleanup_query filters mode batchLimit state all, rows]

end exact

section single

-- A table of one row with these labels.
def labelledRow (stored : Labels) : TaskRow :=
  { rowWith "task" .succeeded with labels_json := some (.obj (stored.map fun label => (label.1, .str label.2))) }

-- The list of everything with these labels.
def listLabels (labels : Labels) : TaskListQuery where
  limit := none
  offset := none
  backendId := none
  type := none
  kind := none
  status := none
  source := none
  environment := none
  scheduleId := none
  terminal := none
  labels := some labels
  createdAfter := none
  createdBefore := none
  terminalBefore := none
  expiresBefore := none
  includeDeleted := true
  hideTest := false

variable (labels stored : Labels) (once : (stored.map Prod.fst).Nodup)

theorem holds_true (clauses : List Clause) (row : TaskRow) :
    holds clauses row = .ok true ↔ ∀ clause ∈ clauses, clause row = .ok true := by
  induction clauses with
  | nil => simp [holds]
  | cons clause rest ih =>
      rw [List.forall_mem_cons, ← ih, holds]
      cases clause row with
      | error message => exact iff_of_false (by intro found; cases found) fun both => by cases both.1
      | ok found =>
          cases found with
          | false => exact iff_of_false (by intro found; cases found) fun both => by cases both.1
          | true => exact (and_iff_right rfl).symm

include once in
theorem stored_contains (key value : String) : containsLabel key value (labelledRow stored) = true ↔ (key, value) ∈ stored := by
  have read : ∀ rest : Labels, (rest.map Prod.fst).Nodup →
      (((rest.map fun label => (label.1, Json.str label.2)).lookup key).bind Json.asString = some value ↔ (key, value) ∈ rest) := by
    intro rest
    induction rest with
    | nil => simp
    | cons label later ih =>
        intro distinct
        obtain ⟨name, text⟩ := label
        obtain ⟨absent, others⟩ := List.nodup_cons.mp distinct
        rw [List.map_cons, List.lookup_cons, List.mem_cons, Prod.mk.injEq]
        by_cases same : key = name
        · subst same
          have elsewhere : (key, value) ∉ later := fun member => absent (List.mem_map.mpr ⟨_, member, rfl⟩)
          simp [Json.asString, elsewhere, eq_comm]
        · rw [beq_false_of_ne same]
          dsimp only
          rw [ih others]
          simp [same]
  rw [containsLabel, beq_iff_eq]
  exact read stored once

include once in
theorem stored_clause (key value : String) :
    hasLabel key value (labelledRow stored) = .ok true ↔ labelPath key ≠ "" ∧ (labelPath key, value) ∈ stored := by
  rw [← stored_contains stored once (labelPath key) value]
  by_cases empty : labelPath key = ""
  · simp [hasLabel, labelledRow, empty]
  · simp [hasLabel, containsLabel, labelledRow, empty]

theorem list_single (row : TaskRow) :
    ((list (listLabels labels)).runIn TaskOp.exec (oneTask row none)).1 =
      ((holds (labels.map fun (key, value) => hasLabel key value) row).mapError Thrown.d1).map fun found =>
        if found then [toTaskIndex row] else [] := by
  have clauses : buildListClauses (listLabels labels) = labels.map fun (key, value) => hasLabel key value := rfl
  rw [list, Async.run_in_bind, call, Async.run_in_perform, TaskOp.exec, TaskQuery.run, clauses,
    show (oneTask row none).tasks.rows = [row] from rfl, matching]
  cases holds (labels.map fun (key, value) => hasLabel key value) row with
  | error message => rfl
  | ok found => cases found <;> rfl

-- An exact filter takes the row of these labels just when it holds all of its own.
theorem exact_single (exact_ : SelectsExactly labels) :
    holds (labels.map fun (key, value) => hasLabel key value) (labelledRow stored) = .ok true ↔
      ∀ label ∈ labels, containsLabel label.1 label.2 (labelledRow stored) = true := by
  have listed := exact_.1 (listLabels labels) (oneTask (labelledRow stored) none) rfl
  have others : buildListClauses { listLabels labels with labels := none } = [] := rfl
  have all : (∀ label ∈ labels, containsLabel label.1 label.2 (labelledRow stored) = true) ↔
      wanted [] labels (labelledRow stored) = true := by simp [wanted, satisfies, holds]
  rw [list_single, others, show (oneTask (labelledRow stored) none).tasks.rows = [labelledRow stored] from rfl, List.filter_cons,
    List.filter_nil] at listed
  rw [all]
  cases found : holds (labels.map fun (key, value) => hasLabel key value) (labelledRow stored) with
  | error message =>
      rw [found] at listed
      cases listed
  | ok taken =>
      rw [found] at listed
      cases taken <;> cases here : wanted [] labels (labelledRow stored) <;> rw [here] at listed
      · simp
      · cases listed
      · cases listed
      · simp

theorem path_plain (key : String) : PlainKey (labelPath key) := by
  intro char member
  rw [labelPath, String.toList_ofList] at member
  exact (List.mem_filter.mp member).2

-- An exact filter finds its labels in the row that has just these, so its paths are keys of its own; and then in
-- the row that has only those, so it has no others.
theorem exact_plain (once : (labels.map Prod.fst).Nodup) (exact_ : SelectsExactly labels) :
    ∀ label ∈ labels, PlainKey label.1 := by
  have contains : ∀ label ∈ labels, containsLabel label.1 label.2 (labelledRow labels) = true :=
    fun label member => (stored_contains labels once label.1 label.2).mpr member
  have taken := (holds_true _ _).mp ((exact_single labels labels exact_).mpr contains)
  have paths : ∀ label ∈ labels, labelPath label.1 ≠ "" ∧ (labelPath label.1, label.2) ∈ labels :=
    fun label member => (stored_clause labels once label.1 label.2).mp (taken _ (List.mem_map_of_mem member))
  let pathed := labels.filter fun label => label.1.toList.all isPathChar
  have pathedOnce : (pathed.map Prod.fst).Nodup := once.sublist (List.filter_sublist.map Prod.fst)
  have still : ∀ clause ∈ labels.map (fun (key, value) => hasLabel key value), clause (labelledRow pathed) = .ok true := by
    intro clause member
    obtain ⟨⟨key, value⟩, inside, rfl⟩ := List.mem_map.mp member
    obtain ⟨named, found⟩ := paths _ inside
    refine (stored_clause pathed pathedOnce key value).mpr ⟨named, List.mem_filter.mpr ⟨found, ?_⟩⟩
    exact List.all_eq_true.mpr (path_plain key)
  intro label member
  have inside := (exact_single labels pathed exact_).mp ((holds_true _ _).mpr still) label member
  have kept := (stored_contains pathed pathedOnce label.1 label.2).mp inside
  exact List.all_eq_true.mp (List.mem_filter.mp kept).2

end single

-- Both select exactly the rows that contain the labels just when the path of each key is the key.
theorem label_filter_exact_iff (labels : Labels) (admitted : AdmittedLabels labels) :
    SelectsExactly labels ↔ ∀ label ∈ labels, PlainKey label.1 := by
  constructor
  · exact exact_plain labels admitted.once
  · intro plain
    have named : ∀ label ∈ labels, PlainKey label.1 ∧ label.1 ≠ "" := by
      intro label member
      refine ⟨plain label member, fun empty => ?_⟩
      have long := (admitted.keys label member).1
      rw [empty] at long
      exact absurd long (by decide)
    exact ⟨fun opts state given => list_exact labels named opts state given,
      fun filters mode batchLimit state given => cleanup_exact labels named filters mode batchLimit state given⟩

theorem label_filter_environment : SelectsExactly [("environment", "test"), ("suite_2", "smoke")] := by
  refine (label_filter_exact_iff _ ⟨by decide, by decide, by decide⟩).mpr ?_
  simp only [List.forall_mem_cons, PlainKey, ← List.all_eq_true]
  decide

-- A filter for app.tier passes over the task with that label, and a cleanup takes the one labelled apptier instead.
theorem dotted_key_confused :
    let labels : Labels := [("app.tier", "web")]
    let cleaned (stored : Labels) := ((cleanupCandidates
      ⟨none, none, none, none, none, some labels, none, none, none, none, false, false, false, none⟩ .soft 500).runIn TaskOp.exec
        (oneTask (labelledRow stored) none)).1.toOption.map (List.map (·.id))
    AdmittedLabels labels ∧ ¬SelectsExactly labels ∧ cleaned labels = some [] ∧ cleaned [("apptier", "web")] = some ["task"] := by
  intro labels cleaned
  refine ⟨⟨by decide, by decide, by decide⟩, fun exact_ => ?_, by decide +kernel, by decide +kernel⟩
  have listed := exact_.1 (listLabels labels) (oneTask (labelledRow labels) none) rfl
  have ids := congrArg (fun found => found.toOption.map (List.map (·.id))) listed
  revert ids
  decide +kernel

end Vacps.Tasks
