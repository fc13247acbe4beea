import Vacps.ControlPlane.LabelFilters

/- TaskService.listPage, and the pages a caller gets who follows next_offset from the first one on. -/
set_option autoImplicit false

namespace Vacps.Tasks

open Library

section pages

structure TaskPage where
  tasks : List TaskIndex
  returned_count : Nat
  next_offset : Option Nat

-- One row more than the page holds is asked for, to see whether there is another page.
def listPage (query : TaskListQuery) : Service TaskPage := do
  let limit := listLimit query
  let offset := listOffset query
  let tasks ← list { query with limit := some (limit + 1), offset := some offset }
  let page := tasks.take limit
  pure
    { tasks := page
      returned_count := page.length
      next_offset := if limit < tasks.length then some (offset + page.length) else none }

def pageAt (query : TaskListQuery) (limit : Int) (offset : Nat) : Service TaskPage :=
  listPage { query with limit := some limit, offset := some offset }

-- The pages of the requests from this one on, each at the offset the one before it named. The n-th request finds
-- the n-th state.
inductive Walk (query : TaskListQuery) (limit : Int) (states : Nat → TasksState) : Nat → Nat → List (List TaskIndex) → Prop where
  | last (request offset : Nat) (page : TaskPage)
      (answered : ((pageAt query limit offset).runIn TaskOp.exec (states request)).1 = .ok page)
      (done : page.next_offset = none) : Walk query limit states request offset [page.tasks]
  | next (request offset following : Nat) (page : TaskPage) (pages : List (List TaskIndex))
      (answered : ((pageAt query limit offset).runIn TaskOp.exec (states request)).1 = .ok page)
      (more : page.next_offset = some following)
      (later : Walk query limit states (request + 1) following pages) :
      Walk query limit states request offset (page.tasks :: pages)

def latestFirst (first later : TaskRow) : Prop := later.created_at < first.created_at

-- The table's rows that satisfy the filters, each once and the latest first.
def Listed (query : TaskListQuery) (table : Table String TaskRow TaskRow.id) (visited : List TaskRow) : Prop :=
  visited.Perm (table.rows.filter (satisfies (buildListClauses query))) ∧ visited.Pairwise latestFirst

-- As long as the table stays as it is, the walk ends and its pages are those rows.
def PagesCover (table : Table String TaskRow TaskRow.id) (query : TaskListQuery) (limit : Int) : Prop :=
  ∀ states : Nat → TasksState, (∀ request, (states request).tasks = table) →
    ∃ (pages : List (List TaskIndex)) (visited : List TaskRow), Walk query limit states 0 0 pages ∧
      pages.flatten = visited.map toTaskIndex ∧ Listed query table visited

end pages

section answers

theorem matching_satisfies (clauses : List Clause) (rows found : List TaskRow) (matched : matching clauses rows = .ok found) :
    found = rows.filter (satisfies clauses) := by
  induction rows generalizing found with
  | nil =>
      cases matched
      rfl
  | cons row rest ih =>
      rw [matching] at matched
      rw [List.filter_cons]
      cases here : holds clauses row with
      | error message =>
          rw [here] at matched
          cases matched
      | ok taken =>
          cases others : matching clauses rest with
          | error message =>
              rw [here, others] at matched
              cases matched
          | ok later =>
              rw [here, others] at matched
              have tail := ih later others
              cases matched
              rw [satisfies, here, tail]

theorem list_run (opts : TaskListQuery) (state : TasksState) :
    (list opts).runIn TaskOp.exec state =
      (((matching (buildListClauses opts) state.tasks.rows).mapError Thrown.d1).map fun found =>
        (((state.planner.arrange (·.created_at) true found).drop (listOffset opts)).take (listLimit opts)).map toTaskIndex,
        state) := by
  rw [list, Async.run_in_bind, call, Async.run_in_perform, TaskOp.exec, TaskQuery.run]
  cases matching (buildListClauses opts) state.tasks.rows with
  | error message => rfl
  | ok found =>
      change (Except.ok _, state) = (Except.ok _, state)
      rw [List.drop_take, Nat.add_sub_cancel_left]

theorem admitted_limit (query : TaskListQuery) (limit : Int) (admitted : 1 ≤ limit ∧ limit ≤ 200) :
    listLimit { query with limit := some limit } = limit.toNat := by
  simp only [listLimit, Option.getD_some]
  omega

-- The list gives at most 200 rows, however many are asked for.
theorem asked_limit (query : TaskListQuery) (limit : Nat) :
    listLimit { query with limit := some (limit + 1) } = min (limit + 1) 200 := by
  simp only [listLimit, Option.getD_some]
  omega

variable (query : TaskListQuery) (limit : Int) (admitted : 1 ≤ limit ∧ limit ≤ 200)

include admitted

theorem page_run (offset : Nat) (state : TasksState) :
    ((pageAt query limit offset).runIn TaskOp.exec state).1 =
      ((matching (buildListClauses query) state.tasks.rows).mapError Thrown.d1).map fun found =>
        let rest := (state.planner.arrange (·.created_at) true found).drop offset
        { tasks := (rest.take limit.toNat).map toTaskIndex
          returned_count := min limit.toNat rest.length
          next_offset := if limit.toNat < min 200 rest.length then some (offset + limit.toNat) else none } := by
  have own : listLimit { query with limit := some limit, offset := some (offset : Int) } = limit.toNat :=
    admitted_limit { query with offset := some (offset : Int) } limit admitted
  have start : ∀ asked : Option Int, listOffset { query with limit := asked, offset := some (offset : Int) } = offset := by
    intro asked
    simp only [listOffset, Option.getD_some]
    omega
  have extra : listLimit { query with limit := some ((limit.toNat : Int) + 1), offset := some (offset : Int) } =
      min (limit.toNat + 1) 200 := asked_limit { query with offset := some (offset : Int) } limit.toNat
  rw [pageAt, listPage, own, start, Async.run_in_bind, list_run, start, extra]
  have same : buildListClauses { query with limit := some ((limit.toNat : Int) + 1), offset := some (offset : Int) } =
      buildListClauses query := rfl
  rw [same]
  cases matching (buildListClauses query) state.tasks.rows with
  | error message => rfl
  | ok found =>
      have fits : limit.toNat ≤ min (limit.toNat + 1) 200 := by omega
      generalize kept : (state.planner.arrange (·.created_at) true found).drop offset = rest
      have page : ((rest.take (min (limit.toNat + 1) 200)).map toTaskIndex).take limit.toNat =
          (rest.take limit.toNat).map toTaskIndex := by rw [← List.map_take, List.take_take, min_eq_left fits]
      have asked : limit.toNat < min (min (limit.toNat + 1) 200) rest.length ↔ limit.toNat < min 200 rest.length := by omega
      simp only [Except.mapError, Except.map, kept, page, Async.run_in_pure, List.length_map, List.length_take, asked]
      by_cases more : limit.toNat < min 200 rest.length
      · have full : min limit.toNat rest.length = limit.toNat := by omega
        rw [if_pos more, if_pos more, full]
      · rw [if_neg more, if_neg more]

end answers

section walks

-- A control plane with these tasks.
def holding (table : Table String TaskRow TaskRow.id) : TasksState :=
  { oneTask (rowWith "task" .succeeded) none with tasks := table }

variable (table : Table String TaskRow TaskRow.id) (distinct : (table.rows.map (·.created_at)).Nodup) (query : TaskListQuery)

include distinct in
-- With distinct times ORDER BY leaves nothing open.
theorem arranged_listed (planner : Planner) :
    Listed query table (planner.arrange (·.created_at) true (table.rows.filter (satisfies (buildListClauses query)))) := by
  have perm := planner.perm (·.created_at) true (table.rows.filter (satisfies (buildListClauses query)))
  have times : ((planner.arrange (·.created_at) true (table.rows.filter (satisfies (buildListClauses query)))).map
      (·.created_at)).Nodup :=
    (perm.map _).nodup_iff.mpr (distinct.sublist (List.filter_sublist.map _))
  refine ⟨perm, ?_⟩
  rw [List.Nodup, List.pairwise_map] at times
  refine (times.and (planner.sorted (·.created_at) true _)).imp ?_
  intro first later both
  obtain ⟨different, order⟩ := both
  exact String.not_le.mp fun back => different (String.le_antisymm back order)

theorem listed_unique (first second : List TaskRow) (one : Listed query table first) (other : Listed query table second) :
    first = second := by
  refine List.Perm.eq_of_pairwise ?_ one.2 other.2 (one.1.trans other.1.symm)
  intro a b _ _ before after
  exact absurd after (String.lt_asymm before)

variable (limit : Int) (admitted : 1 ≤ limit ∧ limit ≤ 200)

include admitted in
-- A query that fails has no page.
theorem walk_matched (states : Nat → TasksState) (still : ∀ request, (states request).tasks = table) (request offset : Nat)
    (pages : List (List TaskIndex)) (walk : Walk query limit states request offset pages) :
    ∃ found, matching (buildListClauses query) table.rows = .ok found := by
  have answers : ∃ page, ((pageAt query limit offset).runIn TaskOp.exec (states request)).1 = .ok page := by
    cases walk with
    | last request offset page answered done => exact ⟨page, answered⟩
    | next request offset following page pages answered more later => exact ⟨page, answered⟩
  obtain ⟨page, answered⟩ := answers
  rw [page_run query limit admitted, still request] at answered
  cases matched : matching (buildListClauses query) table.rows with
  | error message =>
      rw [matched] at answered
      cases answered
  | ok found => exact ⟨found, rfl⟩

variable (visited found : List TaskRow)
  (matched : matching (buildListClauses query) table.rows = .ok found) (listed : Listed query table visited)

include distinct admitted matched listed

theorem page_listed (state : TasksState) (same : state.tasks = table) (offset : Nat) :
    ((pageAt query limit offset).runIn TaskOp.exec state).1 = .ok
      { tasks := ((visited.drop offset).take limit.toNat).map toTaskIndex
        returned_count := min limit.toNat (visited.length - offset)
        next_offset := if limit.toNat < min 200 (visited.length - offset) then some (offset + limit.toNat) else none } := by
  have arranged := listed_unique table query _ visited (arranged_listed table distinct query state.planner) listed
  rw [page_run query limit admitted, same, matched, matching_satisfies _ _ found matched]
  simp only [Except.mapError, Except.map, arranged, List.length_drop]

theorem walk_whole (states : Nat → TasksState) (still : ∀ request, (states request).tasks = table)
    (enough : limit < 200 ∨ visited.length ≤ 200) (request offset : Nat) :
    ∃ pages : List (List TaskIndex), Walk query limit states request offset pages ∧
      pages.flatten = (visited.drop offset).map toTaskIndex := by
  generalize size : visited.length - offset = left
  induction left using Nat.strongRecOn generalizing request offset with
  | ind left ih =>
      have answered := page_listed table distinct query limit admitted visited found matched listed (states request)
        (still request) offset
      by_cases more : limit.toNat < min 200 (visited.length - offset)
      · rw [if_pos more] at answered
        obtain ⟨pages, walk, whole⟩ := ih (visited.length - (offset + limit.toNat)) (by omega) (request + 1)
          (offset + limit.toNat) rfl
        refine ⟨_, Walk.next request offset _ _ pages answered rfl walk, ?_⟩
        rw [List.flatten_cons, whole, ← List.map_append, ← List.drop_drop, List.take_append_drop]
      · rw [if_neg more] at answered
        have all : (visited.drop offset).length ≤ limit.toNat := by
          rw [List.length_drop]
          omega
        refine ⟨_, Walk.last request offset _ answered rfl, ?_⟩
        rw [List.flatten_singleton, List.take_of_length_le all]

-- The pages of the largest limit are one page.
theorem walk_largest (states : Nat → TasksState) (still : ∀ request, (states request).tasks = table) (largest : limit = 200)
    (request offset : Nat) (pages : List (List TaskIndex)) (walk : Walk query limit states request offset pages) :
    pages.flatten.length ≤ 200 := by
  have answered := page_listed table distinct query limit admitted visited found matched listed (states request)
    (still request) offset
  have nothing : ¬limit.toNat < min 200 (visited.length - offset) := by omega
  rw [if_neg nothing] at answered
  cases walk with
  | last request offset page given done =>
      rw [answered] at given
      cases given
      rw [List.flatten_singleton, List.length_map, List.length_take]
      omega
  | next request offset following page pages given more later =>
      rw [answered] at given
      cases given
      cases more

end walks

section concrete

-- A task for each of the first milliseconds.
def taskAt (ms : Nat) : TaskRow :=
  { rowWith (toISOString ms) .succeeded with created_at := toISOString ms }

theorem task_times (count : Nat) (small : count ≤ 1000) : ((List.range count).map fun ms : Nat => toISOString ms).Nodup := by
  refine List.Nodup.map_on ?_ List.nodup_range
  intro first here later there same
  rw [List.mem_range] at here there
  have equal := to_iso_injective first later (by unfold validTime maxTime; omega) (by unfold validTime maxTime; omega) same
  omega

def tasksEach (count : Nat) (small : count ≤ 1000) : Table String TaskRow TaskRow.id where
  rows := (List.range count).map taskAt
  unique := by
    rw [List.map_map]
    exact task_times count small

theorem tasks_each_times (count : Nat) (small : count ≤ 1000) : ((tasksEach count small).rows.map (·.created_at)).Nodup := by
  rw [tasksEach, List.map_map]
  exact task_times count small

theorem tasks_each_matched (count : Nat) (small : count ≤ 1000) :
    matching (buildListClauses (listLabels [])) (tasksEach count small).rows = .ok (tasksEach count small).rows := by
  rw [show buildListClauses (listLabels []) = [] from rfl, matching_filter [] (by simp)]
  simp

end concrete

theorem task_pages_cover_iff (table : Table String TaskRow TaskRow.id) (distinct : (table.rows.map (·.created_at)).Nodup)
    (query : TaskListQuery) (limit : Int) (admitted : 1 ≤ limit ∧ limit ≤ 200) :
    PagesCover table query limit ↔
      ∃ found, matching (buildListClauses query) table.rows = .ok found ∧ (limit < 200 ∨ found.length ≤ 200) := by
  have arranged := arranged_listed table distinct query stablePlanner
  constructor
  · intro cover
    obtain ⟨pages, visited, walk, whole, listed⟩ := cover (fun _ => holding table) fun _ => rfl
    obtain ⟨found, matched⟩ := walk_matched table query limit admitted (fun _ => holding table) (fun _ => rfl) 0 0 pages walk
    refine ⟨found, matched, ?_⟩
    by_cases largest : limit = 200
    · have short := walk_largest table distinct query limit admitted visited found matched listed (fun _ => holding table)
        (fun _ => rfl) largest 0 0 pages walk
      rw [whole, List.length_map, listed.1.length_eq, ← matching_satisfies _ _ found matched] at short
      exact Or.inr short
    · exact Or.inl (by omega)
  · intro holds
    obtain ⟨found, matched, enough⟩ := holds
    intro states still
    have count := arranged.1.length_eq
    rw [matching_satisfies _ _ found matched, ← count] at enough
    obtain ⟨pages, walk, whole⟩ := walk_whole table distinct query limit admitted _ found matched arranged states still
      enough 0 0
    exact ⟨pages, _, walk, whole, arranged⟩

theorem task_pages_cover_three : PagesCover (tasksEach 3 (by decide)) (listLabels []) 2 :=
  (task_pages_cover_iff _ (tasks_each_times 3 (by decide)) (listLabels []) 2 (by decide)).mpr
    ⟨_, tasks_each_matched 3 (by decide), Or.inl (by decide)⟩

-- The list gives no row beyond the 200 of the page, so the page is taken for the last one.
theorem last_task_unvisited :
    let table := tasksEach 201 (by decide)
    (table.rows.map (·.created_at)).Nodup ∧ ¬PagesCover table (listLabels []) 200 := by
  intro table
  refine ⟨tasks_each_times 201 (by decide), fun cover => ?_⟩
  have matched := tasks_each_matched 201 (by decide)
  obtain ⟨pages, visited, walk, whole, listed⟩ := cover (fun _ => holding table) fun _ => rfl
  have short := walk_largest table (tasks_each_times 201 (by decide)) (listLabels []) 200 (by decide) visited table.rows matched listed
    (fun _ => holding table) (fun _ => rfl) rfl 0 0 pages walk
  rw [whole, List.length_map, listed.1.length_eq, ← matching_satisfies _ _ _ matched, tasksEach, List.length_map,
    List.length_range] at short
  omega

end Vacps.Tasks
