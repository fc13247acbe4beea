import Vacps.ControlPlane.KeyedCalls
import Vacps.ControlPlane.TaskPages

/- What holds of one backend and idempotency key while its creates interleave with what removes the task: one task is
   known under it, to the rows or to the ledger, and is on its way to the agent. -/
set_option autoImplicit false

namespace Vacps.Tasks

open Library

section conditions

variable (hashOpaque : Hashed → String) (backendId key : String)

def TaskRow.under (row : TaskRow) : Prop := row.backend_id = backendId ∧ row.idempotency_key = some key

def inserts (op : TaskOp) (_ : Unit) : Prop := ∃ row, op = .insertTask row ∧ row.under backendId key

def consults (op : TaskOp) : Prop := ∃ now, op = .selectTombstone backendId key now

def ledger (state : TasksState) : Option Tombstone := state.tombstones.find? (backendId, key)

-- The agent takes the task, and what comes back is no capability error.
def accepts (state : TasksState) : Bool :=
  (state.exchanges state.requests).refused.isNone && !isCapabilityReply (state.exchanges state.requests).lost

-- The task goes to the agent, unless one of the calls before that fails.
def Dispatches (id : String) : Service (Option Created) → Prop
  | .ret _ => False
  | .fail _ => False
  | .call op rest => (∃ other task, op = .createTask other task ∧ task.task_id = id) ∨ ∀ value, Dispatches id (rest (.ok value))

end conditions

section ahead

variable (hashOpaque : Hashed → String) (backendId key : String)

-- D1 and the agents with no task and nothing failing, at a reading of the clock.
def calm (now : Int) : KeyedState where
  base := { oneTask (rowWith "" .created) none with tasks := Table.empty, clock := fun _ => now }
  fails := fun _ => false
  performed := 0
  dispatched := []

def pending : KeyedPlace → Bool
  | .missed false => true
  | .unknown => true
  | .inserting _ => true
  | _ => false

-- A create that found nothing has its INSERT ahead.
theorem pending_aims (asked : KeyedCall) (place : KeyedPlace) (waits : pending place = true) (program : Service (Option Created))
    (follows : program.Follows (KeyedState.exec backendId key) (keyedNext hashOpaque backendId key asked) place (asked.ends hashOpaque)) :
    asked.creates = true ∧ program.Aims (inserts backendId key) (consults backendId key) () := by
  induction program generalizing place with
  | ret value =>
      cases place with
      | missed again =>
          cases again with
          | false => exact False.elim follows
          | true => cases waits
      | unknown => exact False.elim follows
      | inserting id => exact False.elim follows
      | _ => cases waits
  | fail error =>
      cases place with
      | missed again =>
          cases again with
          | false => exact False.elim follows
          | true => cases waits
      | unknown => exact False.elim follows
      | inserting id => exact False.elim follows
      | _ => cases waits
  | call op rest ih =>
      obtain ⟨there, moved, later⟩ := follows (calm 0)
      have after : ∀ result, ¬ consults backendId key op →
          (asked.creates = true ∧ (rest result).Aims (inserts backendId key) (consults backendId key) ()) →
            asked.creates = true ∧ (Async.call op rest).Aims (inserts backendId key) (consults backendId key) () :=
        fun result blind aims => ⟨aims.1, Or.inr ⟨blind, result, aims.2⟩⟩
      cases place with
      | missed again =>
          cases again with
          | true => cases waits
          | false =>
              cases op with
              | selectTaskByIdempotency other otherKey =>
                  simp only [keyedNext] at moved
                  split at moved
                  · cases moved
                    refine after _ ?_ (ih _ .unknown rfl later)
                    rintro ⟨now, same⟩
                    cases same
                  · cases moved
              | _ => cases moved
      | unknown =>
          cases op with
          | randomUUID =>
              cases moved
              refine after _ ?_ (ih _ _ rfl later)
              rintro ⟨now, same⟩
              cases same
          | _ => cases moved
      | inserting id =>
          cases op with
          | readClock =>
              cases moved
              refine after _ ?_ (ih _ _ rfl later)
              rintro ⟨now, same⟩
              cases same
          | insertTask row =>
              simp only [keyedNext] at moved
              split at moved
              · rename_i mine
                exact ⟨mine.1, Or.inl ⟨row, rfl, mine.2.2.1, mine.2.2.2.1⟩⟩
              · cases moved
          | _ => cases moved
      | _ => cases waits

-- One that has inserted its row goes on to the dispatch.
theorem owning_dispatches (asked : KeyedCall) (id hash : String) (program : Service (Option Created))
    (follows : program.Follows (KeyedState.exec backendId key) (keyedNext hashOpaque backendId key asked) (.owning id hash)
      (asked.ends hashOpaque)) : Dispatches id program := by
  induction program with
  | ret value => exact False.elim follows
  | fail error => exact False.elim follows
  | call op rest ih =>
      cases op with
      | upsertTombstone tomb =>
          refine Or.inr fun value => ih _ ?_
          obtain ⟨there, moved, later⟩ := follows (calm 0)
          simp only [keyedNext] at moved
          split at moved
          · cases moved
            rw [keyed_performed _ _ _ _ rfl, upsert_done] at later
            exact later
          · cases moved
      | readClock =>
          refine Or.inr fun value => ih _ ?_
          obtain ⟨there, moved, later⟩ := follows (calm value)
          cases moved
          exact later
      | updateTask statement other =>
          refine Or.inr fun value => ih _ ?_
          obtain ⟨there, moved, later⟩ := follows (calm 0)
          cases statement with
          | setStatus status now =>
              cases status with
              | dispatching =>
                  cases moved
                  exact later
              | _ => cases moved
          | _ => cases moved
      | createTask other task =>
          obtain ⟨there, moved, later⟩ := follows (calm 0)
          simp only [keyedNext] at moved
          split at moved
          · rename_i mine
            exact Or.inl ⟨other, task, rfl, mine.2.2.1⟩
          · cases moved
      | _ =>
          obtain ⟨there, moved, later⟩ := follows (calm 0)
          cases moved

end ahead

section frames

variable (backendId key : String)

-- No row gains or loses its id, key or request hash.
structure SameRows (before after : TasksState) : Prop where
  drawn : after.uuids = before.uuids
  back : ∀ row ∈ after.tasks.rows, ∃ old ∈ before.tasks.rows, row.id = old.id ∧ row.backend_id = old.backend_id ∧
    row.idempotency_key = old.idempotency_key ∧ row.request_hash = old.request_hash
  forth : ∀ old ∈ before.tasks.rows, ∃ row ∈ after.tasks.rows, row.id = old.id ∧ row.backend_id = old.backend_id ∧
    row.idempotency_key = old.idempotency_key ∧ row.request_hash = old.request_hash

-- And the ledger is the same.
structure SameKeys (before after : TasksState) : Prop extends SameRows before after where
  book : after.tombstones = before.tombstones

theorem same_rows (before after : TasksState) (drawn : after.uuids = before.uuids) (tasks : after.tasks = before.tasks) :
    SameRows before after where
  drawn := drawn
  back := fun row member => ⟨row, tasks ▸ member, rfl, rfl, rfl, rfl⟩
  forth := fun row member => ⟨row, tasks ▸ member, rfl, rfl, rfl, rfl⟩

theorem same_tables (before after : TasksState) (drawn : after.uuids = before.uuids) (book : after.tombstones = before.tombstones)
    (tasks : after.tasks = before.tasks) : SameKeys before after :=
  ⟨same_rows before after drawn tasks, book⟩

theorem request_same {Reply : Type} (serve : TasksState → Except AppError Reply × TasksState) (state : TasksState)
    (keeps : ∀ sent, SameKeys sent (serve sent).2) : SameKeys state (state.request serve).2 := by
  have apart : ∀ sent : TasksState, sent.tasks = state.tasks → sent.tombstones = state.tombstones → sent.uuids = state.uuids →
      SameKeys sent (serve sent).2 → SameKeys state (serve sent).2 := by
    intro sent tasks book drawn kept
    refine ⟨⟨kept.drawn.trans drawn, ?_, ?_⟩, kept.book.trans book⟩
    · rw [← tasks]
      exact kept.back
    · rw [← tasks]
      exact kept.forth
  unfold TasksState.request
  dsimp only
  split
  · exact same_tables _ _ rfl rfl rfl
  · split
    · exact apart _ rfl rfl rfl (keeps _)
    · exact apart _ rfl rfl rfl (keeps _)

theorem statement_columns (statement : TaskStatement) (row : TaskRow) :
    (statement.change row).backend_id = row.backend_id ∧ (statement.change row).idempotency_key = row.idempotency_key ∧
      (statement.change row).request_hash = row.request_hash := by
  cases statement <;> exact ⟨rfl, rfl, rfl⟩

theorem update_same (statement : TaskStatement) (id : String) (state : TasksState) :
    SameKeys state (TaskOp.exec (.updateTask statement id) state).2 := by
  have changed : ∀ row : TaskRow, ∀ selected : Bool, ((if selected then statement.change row else row).id = row.id) ∧
      (if selected then statement.change row else row).backend_id = row.backend_id ∧
      (if selected then statement.change row else row).idempotency_key = row.idempotency_key ∧
      (if selected then statement.change row else row).request_hash = row.request_hash := by
    intro row selected
    cases selected with
    | false => exact ⟨rfl, rfl, rfl, rfl⟩
    | true => exact ⟨change_id statement row, statement_columns statement row⟩
  refine ⟨⟨rfl, ?_, ?_⟩, rfl⟩
  · intro row member
    obtain ⟨old, stored, rfl⟩ := List.mem_map.mp member
    exact ⟨old, stored, changed old _⟩
  · intro old stored
    exact ⟨_, List.mem_map_of_mem stored, changed old _⟩

-- What an upsert does to the ledger: it is the key's entry, or leaves it as it is.
theorem upsert_ours (tomb : Tombstone) (state : TasksState) (ours : tomb.key = (backendId, key)) :
    ∃ entry, ledger backendId key (TaskOp.exec (.upsertTombstone tomb) state).2 = some entry ∧ entry.task_id = tomb.task_id ∧
      entry.request_hash = tomb.request_hash := by
  simp only [TaskOp.exec, ledger]
  split
  · exact ⟨tomb, by rw [Table.find_insert, if_pos ours], rfl, rfl⟩
  · rename_i old found
    rw [ours] at found
    refine ⟨_, (state.tombstones.find_update _ _ (by intro row; rfl) (backendId, key)).trans (congrArg _ found), ?_⟩
    dsimp only
    rw [if_pos (decide_eq_true ((state.tombstones.find_key _ old found).trans ours.symm))]
    exact ⟨rfl, rfl⟩

theorem upsert_foreign (tomb : Tombstone) (state : TasksState) (foreign : tomb.key ≠ (backendId, key)) :
    ledger backendId key (TaskOp.exec (.upsertTombstone tomb) state).2 = ledger backendId key state := by
  simp only [TaskOp.exec, ledger]
  split
  · rw [Table.find_insert, if_neg foreign]
  · refine (state.tombstones.find_update _ _ (by intro row; rfl) (backendId, key)).trans ?_
    cases found : state.tombstones.find? (backendId, key) with
    | none => rfl
    | some old =>
        rw [Option.map_some, if_neg]
        rw [state.tombstones.find_key _ old found, decide_eq_true_iff]
        exact Ne.symm foreign

theorem upsert_rows (tomb : Tombstone) (state : TasksState) : SameRows state (TaskOp.exec (.upsertTombstone tomb) state).2 := by
  simp only [TaskOp.exec]
  split
  · exact same_rows _ _ rfl rfl
  · exact same_rows _ _ rfl rfl

-- The statements and requests that leave every key alone.
def leavesKeys : TaskOp → Bool
  | .selectTombstone _ _ _ => true
  | .selectTaskByIdempotency _ _ => true
  | .selectTask _ => true
  | .selectTasks _ => true
  | .randomUUID => true
  | .getCapabilities _ => true
  | .createTask _ _ => true
  | op => aside op

theorem leaves_same (op : TaskOp) (leaves : leavesKeys op = true) (state : TasksState) : SameKeys state (op.exec state).2 := by
  have same : ∀ after : TasksState, after.uuids = state.uuids → after.tombstones = state.tombstones → after.tasks = state.tasks →
      SameKeys state after := fun after => same_tables state after
  cases op with
  | updateTask statement id => exact update_same statement id state
  | getCapabilities other => exact request_same _ state fun sent => same_tables _ _ rfl rfl rfl
  | createTask other task =>
      refine request_same _ state fun sent => ?_
      unfold serveCreate
      dsimp only
      split
      · exact same_tables _ _ rfl rfl rfl
      · exact same_tables _ _ rfl rfl rfl
  | getTask other id =>
      refine request_same _ state fun sent => ?_
      unfold serveGet
      split
      · exact same_tables _ _ rfl rfl rfl
      · exact same_tables _ _ rfl rfl rfl
  | agentMoves id status =>
      simp only [TaskOp.exec]
      split
      · exact same _ rfl rfl rfl
      · exact same _ rfl rfl rfl
  | insertTask row => cases leaves
  | insertTaskOrIgnore row => cases leaves
  | deleteTask id => cases leaves
  | upsertTombstone tomb => cases leaves
  | deleteTombstone other otherKey => cases leaves
  | deleteExpiredTombstones now => cases leaves
  | cancelTask other id => cases leaves
  | retryTask other id => cases leaves
  | _ => exact same _ rfl rfl rfl

-- A statement that fails changes nothing, and so does not the count of what was performed.
theorem exec_same (op : TaskOp) (leaves : leavesKeys op = true) (state : KeyedState) :
    SameKeys state.base (KeyedState.exec backendId key op state).2.base := by
  rw [KeyedState.exec]
  split
  · exact same_tables _ _ rfl rfl rfl
  · exact leaves_same op leaves state.base

theorem exec_dispatched (op : TaskOp) (other : ∀ id task, op ≠ .createTask id task) (state : KeyedState) :
    (KeyedState.exec backendId key op state).2.dispatched = state.dispatched := by
  rw [KeyedState.exec]
  split
  · rfl
  · cases op with
    | createTask id task => exact absurd rfl (other id task)
    | _ => rfl

end frames

section held

variable (hashOpaque : Hashed → String) (backendId key : String) (uuids : Nat → String)

-- A task and the hash of its arguments, once one is known under the key.
abbrev Holder : Type := Option (String × String)

def rowStored (state : TasksState) : Prop := ∃ row ∈ state.tasks.rows, row.under backendId key

-- What a place may rely on.
def standing (holder : Holder) (state : TasksState) : KeyedPlace → Prop
  | .missed false => holder = none ∨ rowStored backendId key state
  | .unknown => holder = none ∨ rowStored backendId key state
  | .inserting id => (holder = none ∨ rowStored backendId key state) ∧ ∃ n, id = uuids n
  | .finding tomb id => tomb.task_id = some id ∧ holder = some (id, tomb.request_hash)
  | .owning id hash => holder = some (id, hash)
  | .sent id hash => holder = some (id, hash)
  | .answered id hash => holder = some (id, hash)
  | .removing known filed =>
      (∀ row ∈ known, row.under backendId key → ∃ hash, row.request_hash = some hash ∧ holder = some (row.id, hash)) ∧
        (∀ row ∈ known, ¬ row.under backendId key → ∀ n, row.id ≠ uuids n) ∧
        ∀ id, filed = some id → (∃ row ∈ known, row.id = id) ∧
          ∀ hash, holder = some (id, hash) → (ledger backendId key state).isSome = true
  | .stray => False
  | _ => True

structure KeyHeld (holder : Holder) (state : KeyedState) (places : List KeyedPlace) : Prop where
  drawn : state.base.uuids = uuids
  mine : ∀ row ∈ state.base.tasks.rows, row.under backendId key → ∃ hash, row.request_hash = some hash ∧ holder = some (row.id, hash)
  others : ∀ row ∈ state.base.tasks.rows, ¬ row.under backendId key → ∀ n, row.id ≠ uuids n
  entry : ∀ tomb, ledger backendId key state.base = some tomb → ∃ id, tomb.task_id = some id ∧ holder = some (id, tomb.request_hash)
  known : ∀ id hash, holder = some (id, hash) →
    rowStored backendId key state.base ∨ (ledger backendId key state.base).isSome = true
  named : ∀ id hash, holder = some (id, hash) → id ≠ "" ∧ hash ≠ "" ∧ ∃ n, id = uuids n
  took : ∀ task ∈ state.dispatched, holder = some (task.task_id, requestHashOf hashOpaque task.toCreateTaskInput)
  onWay : ∀ id hash, holder = some (id, hash) → (∃ task ∈ state.dispatched, task.task_id = id) ∨ .owning id hash ∈ places
  stands : ∀ place ∈ places, standing backendId key uuids holder state.base place

section same

variable (before after : TasksState) (same : SameRows before after)

include same

theorem under_back (row : TaskRow) (member : row ∈ after.tasks.rows) (under : row.under backendId key) :
    ∃ old ∈ before.tasks.rows, old.under backendId key ∧ row.id = old.id ∧ row.request_hash = old.request_hash := by
  obtain ⟨old, stored, id, backend, named, hash⟩ := same.back row member
  exact ⟨old, stored, ⟨backend ▸ under.1, named ▸ under.2⟩, id, hash⟩

theorem row_stays (stored : rowStored backendId key before) : rowStored backendId key after := by
  obtain ⟨old, member, under⟩ := stored
  obtain ⟨row, there, id, backend, named, hash⟩ := same.forth old member
  exact ⟨row, there, backend.trans under.1, named.trans under.2⟩

end same

-- What a place relies on stays, as long as a row stays under the key for the pending ones and an entry in the ledger.
theorem standing_stays (before after : TasksState) (holder : Holder) (place : KeyedPlace)
    (rows : pending place = true → rowStored backendId key before → rowStored backendId key after)
    (found : (ledger backendId key before).isSome = true → (ledger backendId key after).isSome = true)
    (stands : standing backendId key uuids holder before place) : standing backendId key uuids holder after place := by
  cases place with
  | missed again =>
      cases again with
      | false => exact stands.imp id (rows rfl)
      | true => trivial
  | unknown => exact stands.imp id (rows rfl)
  | inserting other => exact ⟨stands.1.imp id (rows rfl), stands.2⟩
  | removing known filed =>
      refine ⟨stands.1, stands.2.1, ?_⟩
      intro id put
      exact ⟨(stands.2.2 id put).1, fun hash held => found ((stands.2.2 id put).2 hash held)⟩
  | finding tomb id => exact stands
  | owning id hash => exact stands
  | sent id hash => exact stands
  | answered id hash => exact stands
  | looking again => trivial
  | conflicted => trivial
  | refused => trivial
  | stray => exact stands

section moves

variable (holder : Holder) (state after : KeyedState) (places : List KeyedPlace) (i : Nat) (place there : KeyedPlace)
  (ready : KeyHeld hashOpaque backendId key uuids holder state places) (located : places[i]? = some place)

include located

theorem owner_stays (id hash : String) (owns : .owning id hash ∈ places) :
    place = .owning id hash ∨ .owning id hash ∈ places.set i there := by
  obtain ⟨j, found⟩ := List.getElem?_of_mem owns
  by_cases here : j = i
  · subst here
    rw [located] at found
    exact Or.inl (Option.some.inj found)
  · exact Or.inr (List.mem_of_getElem? ((located_set places i j place there _ located).mpr (Or.inr ⟨here, found⟩)))

theorem there_member : there ∈ places.set i there :=
  List.mem_of_getElem? ((located_set places i i place there there located).mpr (Or.inl ⟨rfl, rfl⟩))

include ready

-- A step that leaves the rows' keys alone; what it does to the ledger and sends fits.
theorem held_rows (same : SameRows state.base after.base)
    (entry : ∀ tomb, ledger backendId key after.base = some tomb → ∃ id, tomb.task_id = some id ∧ holder = some (id, tomb.request_hash))
    (found : (ledger backendId key state.base).isSome = true → (ledger backendId key after.base).isSome = true)
    (took : ∀ task ∈ after.dispatched, holder = some (task.task_id, requestHashOf hashOpaque task.toCreateTaskInput))
    (gone : ∀ task ∈ state.dispatched, task ∈ after.dispatched)
    (owner : ∀ id hash, place = .owning id hash → (∃ task ∈ after.dispatched, task.task_id = id) ∨ there = .owning id hash)
    (stands : standing backendId key uuids holder after.base there) :
    KeyHeld hashOpaque backendId key uuids holder after (places.set i there) where
  drawn := same.drawn.trans ready.drawn
  mine := by
    intro row member under
    obtain ⟨old, stored, under_, id, hash⟩ := under_back backendId key _ _ same row member under
    rw [id, hash]
    exact ready.mine old stored under_
  others := by
    intro row member apart
    obtain ⟨old, stored, id, backend, named, _⟩ := same.back row member
    rw [id]
    exact ready.others old stored fun under => apart ⟨backend.trans under.1, named.trans under.2⟩
  entry := entry
  known := fun id hash held => (ready.known id hash held).imp (row_stays backendId key _ _ same) found
  named := ready.named
  took := took
  onWay := by
    intro id hash held
    rcases ready.onWay id hash held with ⟨task, sent, named⟩ | owns
    · exact Or.inl ⟨task, gone task sent, named⟩
    · rcases owner_stays places i place there located id hash owns with here | elsewhere
      · refine (owner id hash here).imp (fun sent => sent) fun still => ?_
        rw [← still]
        exact there_member places i place there located
      · exact Or.inr elsewhere
  stands := by
    intro other member
    obtain ⟨j, found_⟩ := List.getElem?_of_mem member
    rcases (located_set places i j place there other located).mp found_ with ⟨_, rfl⟩ | ⟨_, old⟩
    · exact stands
    · exact standing_stays backendId key uuids _ _ holder other (fun _ => row_stays backendId key _ _ same) found
        (ready.stands other (List.mem_of_getElem? old))

-- A step that leaves every key alone.
theorem held_same (same : SameKeys state.base after.base)
    (took : ∀ task ∈ after.dispatched, holder = some (task.task_id, requestHashOf hashOpaque task.toCreateTaskInput))
    (gone : ∀ task ∈ state.dispatched, task ∈ after.dispatched)
    (owner : ∀ id hash, place = .owning id hash → (∃ task ∈ after.dispatched, task.task_id = id) ∨ there = .owning id hash)
    (stands : standing backendId key uuids holder state.base there) :
    KeyHeld hashOpaque backendId key uuids holder after (places.set i there) := by
  have book : ledger backendId key after.base = ledger backendId key state.base := by rw [ledger, ledger, same.book]
  refine held_rows hashOpaque backendId key uuids holder state after places i place there ready located same.toSameRows
    ?_ ?_ took gone owner ?_
  · rw [book]
    exact ready.entry
  · rw [book]
    exact fun found => found
  · exact standing_stays backendId key uuids _ _ holder there (fun _ => row_stays backendId key _ _ same.toSameRows)
      (fun found => book ▸ found) stands

theorem stands_here : standing backendId key uuids holder state.base place := ready.stands place (List.mem_of_getElem? located)

end moves

section steps

variable (asked : KeyedCall) (holder : Holder) (state : KeyedState) (places : List KeyedPlace) (i : Nat)
  (ready : KeyHeld hashOpaque backendId key uuids holder state places)

theorem reused_standing (base : TasksState) (own : String) (existing : TaskIndex) (id hash : String) (held : holder = some (id, hash))
    (named : existing.id = id) (hashed : existing.requestHash = some hash) :
    standing backendId key uuids holder base (reusedPlace own existing) := by
  rw [reusedPlace, hashed]
  dsimp only
  split
  · trivial
  · rename_i same
    rw [not_not] at same
    rw [named, ← same]
    exact held

theorem shown_hash (hash : String) (some_ : hash ≠ "") : truthy (some hash) = some hash := by
  simp [truthy, Option.filter, some_]

include ready

theorem row_reused (own : String) (row : TaskRow) (stored : row ∈ state.base.tasks.rows) (under : row.under backendId key) :
    standing backendId key uuids holder state.base (reusedPlace own (toTaskIndex row)) := by
  obtain ⟨hash, hashed, held⟩ := ready.mine row stored under
  refine reused_standing backendId key uuids holder state.base own _ row.id hash held rfl ?_
  change truthy row.request_hash = some hash
  rw [hashed, shown_hash hash (ready.named row.id hash held).2.1]

theorem tomb_reused (own : String) (tomb : Tombstone) (id : String) (deletedAt : Option String)
    (held : holder = some (id, tomb.request_hash)) :
    standing backendId key uuids holder state.base (reusedPlace own (tombstoneIndex tomb id deletedAt)) :=
  reused_standing backendId key uuids holder state.base own _ id tomb.request_hash held rfl
    (shown_hash _ (ready.named id _ held).2.1)

-- With no entry in the ledger the key is new or its row is there.
theorem unclaimed_without (absent : ledger backendId key state.base = none) : holder = none ∨ rowStored backendId key state.base := by
  cases held : holder with
  | none => exact Or.inl rfl
  | some pair =>
      obtain ⟨id, hash⟩ := pair
      rcases ready.known id hash held with stored | found
      · exact Or.inr stored
      · rw [absent] at found
        cases found

theorem entry_found (now : String) (tomb : Tombstone) (id : String) (found : entryAt backendId key now state.base = some (tomb, id)) :
    tomb.task_id = some id ∧ holder = some (id, tomb.request_hash) := by
  obtain ⟨entry, listed, named⟩ := Option.bind_eq_some_iff.mp found
  obtain ⟨taskId, shown, same⟩ := Option.map_eq_some_iff.mp named
  cases same
  have stored : ledger backendId key state.base = some tomb := (Option.filter_eq_some_iff.mp listed).1
  obtain ⟨other, task, held⟩ := ready.entry tomb stored
  rw [truthy, Option.filter_eq_some_iff] at shown
  have same := shown.1.symm.trans task
  cases same
  exact ⟨task, held⟩

theorem entry_missed (now : String) (fresh : ∀ tomb, ledger backendId key state.base = some tomb → now < tomb.expires_at)
    (missed : entryAt backendId key now state.base = none) : ledger backendId key state.base = none := by
  cases stored : ledger backendId key state.base with
  | none => rfl
  | some tomb =>
      obtain ⟨id, task, held⟩ := ready.entry tomb stored
      rw [ledger] at stored
      rw [entryAt, stored, Option.filter_some, if_pos (decide_eq_true (fresh tomb stored)), Option.bind_some, task,
        shown_hash id (ready.named id _ held).1] at missed
      cases missed

theorem held_quiet (place : KeyedPlace) (located : places[i]? = some place) (op : TaskOp) (there : KeyedPlace)
    (leaves : leavesKeys op = true) (other : ∀ id task, op ≠ .createTask id task)
    (owner : ∀ id hash, place = .owning id hash → there = .owning id hash)
    (stands : standing backendId key uuids holder state.base there) :
    KeyHeld hashOpaque backendId key uuids holder (KeyedState.exec backendId key op state).2 (places.set i there) := by
  have sent := exec_dispatched backendId key op other state
  refine held_same hashOpaque backendId key uuids holder state _ places i place there ready located (exec_same backendId key op leaves state)
    ?_ ?_ (fun id hash here => Or.inr (owner id hash here)) stands
  · rw [sent]
    exact ready.took
  · rw [sent]
    exact fun _ gone => gone

theorem looking_step (again : Bool) (op : TaskOp) (there : KeyedPlace) (located : places[i]? = some (.looking again))
    (moved : keyedNext hashOpaque backendId key asked (.looking again) op state = some there)
    (careful : ∀ now, op = .selectTombstone backendId key now →
      (state.failing op = true → ledger backendId key state.base = none ∨ rowStored backendId key state.base) ∧
        ∀ tomb, ledger backendId key state.base = some tomb → now < tomb.expires_at) :
    KeyHeld hashOpaque backendId key uuids holder (KeyedState.exec backendId key op state).2 (places.set i there) := by
  have missing : holder = none ∨ rowStored backendId key state.base →
      standing backendId key uuids holder state.base (.missed again) := by
    intro unclaimed
    cases again with
    | false => exact unclaimed
    | true => trivial
  cases op with
  | selectTombstone other otherKey now =>
      simp only [keyedNext] at moved
      split at moved
      · rename_i mine
        obtain ⟨rfl, rfl⟩ := mine
        cases moved
        obtain ⟨failed, fresh⟩ := careful now rfl
        refine held_quiet hashOpaque other otherKey uuids holder state places i ready _ located _ _ rfl (fun _ _ same => by cases same)
          (fun _ _ same => by cases same) ?_
        split
        · rename_i lost
          refine missing ?_
          rcases failed lost with absent | stored
          · exact unclaimed_without hashOpaque other otherKey uuids holder state places ready absent
          · exact Or.inr stored
        · cases entry : entryAt other otherKey now state.base with
          | none =>
              exact missing (unclaimed_without hashOpaque other otherKey uuids holder state places ready
                (entry_missed hashOpaque other otherKey uuids holder state places ready now fresh entry))
          | some found =>
              obtain ⟨tomb, id⟩ := found
              obtain ⟨task, held⟩ := entry_found hashOpaque other otherKey uuids holder state places ready now tomb id entry
              dsimp only
              split
              · exact tomb_reused hashOpaque other otherKey uuids holder state places ready _ tomb id _ held
              · exact ⟨task, held⟩
      · cases moved
  | selectBackend other =>
      cases moved
      exact held_quiet hashOpaque backendId key uuids holder state places i ready _ located _ _ rfl (fun _ _ same => by cases same)
        (fun _ _ same => by cases same) trivial
  | getCapabilities other =>
      cases moved
      exact held_quiet hashOpaque backendId key uuids holder state places i ready _ located _ _ rfl (fun _ _ same => by cases same)
        (fun _ _ same => by cases same) trivial
  | readClock =>
      cases moved
      exact held_quiet hashOpaque backendId key uuids holder state places i ready _ located _ _ rfl (fun _ _ same => by cases same)
        (fun _ _ same => by cases same) trivial
  | _ => cases moved

theorem missed_step (again : Bool) (op : TaskOp) (there : KeyedPlace) (located : places[i]? = some (.missed again))
    (moved : keyedNext hashOpaque backendId key asked (.missed again) op state = some there) :
    KeyHeld hashOpaque backendId key uuids holder (KeyedState.exec backendId key op state).2 (places.set i there) := by
  cases op with
  | selectTaskByIdempotency other otherKey =>
      simp only [keyedNext] at moved
      split at moved
      · cases moved
        refine held_quiet hashOpaque backendId key uuids holder state places i ready _ located _ _ rfl (fun _ _ same => by cases same)
          (fun _ _ same => by cases same) ?_
        split
        · trivial
        · cases read : rowAt backendId key state.base with
          | some row =>
              have stored := List.mem_of_find?_eq_some read
              have under := of_decide_eq_true (List.find?_some (p := fun row : TaskRow =>
                decide (row.backend_id = backendId ∧ row.idempotency_key = some key)) read)
              exact row_reused hashOpaque backendId key uuids holder state places ready _ row stored under
          | none =>
              dsimp only
              split
              · trivial
              · rename_i first
                have here := ready.stands _ (List.mem_of_getElem? located)
                rw [Bool.not_eq_true] at first
                rw [first] at here
                exact here
      · cases moved
  | _ => cases moved

theorem finding_step (tomb : Tombstone) (id : String) (op : TaskOp) (there : KeyedPlace)
    (located : places[i]? = some (.finding tomb id))
    (moved : keyedNext hashOpaque backendId key asked (.finding tomb id) op state = some there) :
    KeyHeld hashOpaque backendId key uuids holder (KeyedState.exec backendId key op state).2 (places.set i there) := by
  have here : tomb.task_id = some id ∧ holder = some (id, tomb.request_hash) := ready.stands _ (List.mem_of_getElem? located)
  cases op with
  | selectTask other =>
      simp only [keyedNext] at moved
      split at moved
      · cases moved
        refine held_quiet hashOpaque backendId key uuids holder state places i ready _ located _ _ rfl (fun _ _ same => by cases same)
          (fun _ _ same => by cases same) ?_
        split
        · trivial
        · cases read : state.base.tasks.find? id with
          | none => exact tomb_reused hashOpaque backendId key uuids holder state places ready _ tomb id _ here.2
          | some row =>
              have stored := state.base.tasks.find_mem id row read
              have under : row.under backendId key := by
                by_contra apart
                obtain ⟨n, drawn⟩ := (ready.named id _ here.2).2.2
                exact ready.others row stored apart n ((state.base.tasks.find_key id row read).trans drawn)
              exact row_reused hashOpaque backendId key uuids holder state places ready _ row stored under
      · cases moved
  | _ => cases moved

theorem unknown_step (op : TaskOp) (there : KeyedPlace) (located : places[i]? = some .unknown)
    (moved : keyedNext hashOpaque backendId key asked .unknown op state = some there) :
    KeyHeld hashOpaque backendId key uuids holder (KeyedState.exec backendId key op state).2 (places.set i there) := by
  cases op with
  | randomUUID =>
      cases moved
      refine held_quiet hashOpaque backendId key uuids holder state places i ready _ located _ _ rfl (fun _ _ same => by cases same)
        (fun _ _ same => by cases same) ?_
      exact ⟨ready.stands _ (List.mem_of_getElem? located), _, congrFun ready.drawn _⟩
  | _ => cases moved

theorem sent_step (id hash : String) (op : TaskOp) (there : KeyedPlace) (located : places[i]? = some (.sent id hash))
    (moved : keyedNext hashOpaque backendId key asked (.sent id hash) op state = some there) :
    KeyHeld hashOpaque backendId key uuids holder (KeyedState.exec backendId key op state).2 (places.set i there) := by
  have here : holder = some (id, hash) := ready.stands _ (List.mem_of_getElem? located)
  cases op with
  | selectTask other =>
      simp only [keyedNext] at moved
      split at moved
      · rename_i mine
        subst mine
        cases moved
        refine held_quiet hashOpaque backendId key uuids holder state places i ready _ located _ _ rfl (fun _ _ same => by cases same)
          (fun _ _ same => by cases same) ?_
        cases failed : state.failing (.selectTask other) with
        | true =>
            rw [keyed_failing _ _ _ _ failed]
            exact here
        | false =>
            rw [keyed_performed _ _ _ _ failed]
            have read : (TaskOp.exec (.selectTask other) state.base).1 = .ok (state.base.tasks.find? other) := rfl
            rw [read]
            cases found : state.base.tasks.find? other with
            | none => exact here
            | some row =>
                dsimp only
                split
                · exact here
                · rw [show row.id = other from state.base.tasks.find_key other row found]
                  exact here
      · cases moved
  | readClock =>
      cases moved
      exact held_quiet hashOpaque backendId key uuids holder state places i ready _ located _ _ rfl (fun _ _ same => by cases same)
        (fun _ _ same => by cases same) here
  | selectRetention other =>
      cases moved
      exact held_quiet hashOpaque backendId key uuids holder state places i ready _ located _ _ rfl (fun _ _ same => by cases same)
        (fun _ _ same => by cases same) here
  | updateTask statement other =>
      cases moved
      exact held_quiet hashOpaque backendId key uuids holder state places i ready _ located _ _ rfl (fun _ _ same => by cases same)
        (fun _ _ same => by cases same) here
  | _ => cases moved

omit ready in
-- The unique index lets one row under the key in.
theorem inserted_holder (row : TaskRow) (under : row.under backendId key) (free : taken state.base.tasks row = false)
    (unclaimed : holder = none ∨ rowStored backendId key state.base) : holder = none := by
  refine unclaimed.resolve_right ?_
  rintro ⟨other, stored, otherUnder⟩
  rw [taken, Bool.or_eq_false_iff, under.2] at free
  have apart := List.any_eq_false.mp free.2 other stored
  exact apart (decide_eq_true ⟨otherUnder.1.trans under.1.symm, otherUnder.2⟩)

omit ready in
-- What stands before the key has a task stands with the first one.
theorem claimed_standing (before after : TasksState) (id hash : String) (drawn : ∃ n, id = uuids n)
    (stored : rowStored backendId key after) (place : KeyedPlace) (stands : standing backendId key uuids none before place) :
    standing backendId key uuids (some (id, hash)) after place := by
  cases place with
  | missed again =>
      cases again with
      | false => exact Or.inr stored
      | true => trivial
  | unknown => exact Or.inr stored
  | inserting other => exact ⟨Or.inr stored, stands.2⟩
  | finding tomb other => cases stands.2
  | owning other otherHash => cases stands
  | sent other otherHash => cases stands
  | answered other otherHash => cases stands
  | removing known filed =>
      obtain ⟨mine, others, put⟩ := stands
      have foreign : ∀ row ∈ known, row.id ≠ id := by
        intro row member
        obtain ⟨n, rfl⟩ := drawn
        refine others row member ?_ n
        intro under
        obtain ⟨_, _, held⟩ := mine row member under
        cases held
      refine ⟨?_, others, ?_⟩
      · intro row member under
        obtain ⟨_, _, held⟩ := mine row member under
        cases held
      · intro other filed_
        obtain ⟨row, member, named⟩ := (put other filed_).1
        refine ⟨⟨row, member, named⟩, fun otherHash held => ?_⟩
        cases held
        exact absurd named (foreign row member)
  | looking again => trivial
  | conflicted => trivial
  | refused => trivial
  | stray => exact stands

theorem inserted_step (row : TaskRow) (hash : String) (located : places[i]? = some (.inserting row.id))
    (under : row.under backendId key) (hashed : row.request_hash = some hash) (whole : hash ≠ "" ∧ row.id ≠ "")
    (went : state.failing (.insertTask row) = false) (free : taken state.base.tasks row = false) :
    KeyHeld hashOpaque backendId key uuids (some (row.id, hash)) (KeyedState.exec backendId key (.insertTask row) state).2
      (places.set i (.owning row.id hash)) := by
  obtain ⟨unclaimed, drawn⟩ := ready.stands _ (List.mem_of_getElem? located)
  have none_ := inserted_holder backendId key holder state row under free unclaimed
  subst none_
  have absent : state.base.tasks.find? row.id = none := by
    rw [taken, Bool.or_eq_false_iff] at free
    exact Option.not_isSome_iff_eq_none.mp (by rw [free.1]; decide)
  have after : (KeyedState.exec backendId key (.insertTask row) state).2.base =
      { state.base with tasks := state.base.tasks.insert row absent } := by
    rw [KeyedState.exec, if_neg (by rw [went]; decide), TaskOp.exec, if_neg (by rw [free]; decide)]
    simp only [TasksState.insert, dif_pos absent]
  have rows : ∀ other, other ∈ (KeyedState.exec backendId key (.insertTask row) state).2.base.tasks.rows ↔
      other ∈ state.base.tasks.rows ∨ other = row := by
    intro other
    rw [after]
    simp [Table.insert]
  have stored : rowStored backendId key (KeyedState.exec backendId key (.insertTask row) state).2.base :=
    ⟨row, (rows row).mpr (Or.inr rfl), under⟩
  have book : ledger backendId key (KeyedState.exec backendId key (.insertTask row) state).2.base = ledger backendId key state.base := by
    rw [ledger, ledger, after]
  refine ⟨?_, ?_, ?_, ?_, ?_, ?_, ?_, ?_, ?_⟩
  · rw [after]
    exact ready.drawn
  · intro other member otherUnder
    rcases (rows other).mp member with old | rfl
    · obtain ⟨_, _, held⟩ := ready.mine other old otherUnder
      cases held
    · exact ⟨hash, hashed, rfl⟩
  · intro other member apart
    rcases (rows other).mp member with old | rfl
    · exact ready.others other old apart
    · exact absurd under apart
  · intro tomb found
    rw [book] at found
    obtain ⟨_, _, held⟩ := ready.entry tomb found
    cases held
  · intro id other held
    exact Or.inl stored
  · intro id other held
    cases held
    exact ⟨whole.2, whole.1, drawn⟩
  · intro task gone
    rw [exec_dispatched backendId key _ (fun _ _ same => by cases same) state] at gone
    cases ready.took task gone
  · intro id other held
    cases held
    exact Or.inr (List.mem_of_getElem? ((located_set places i i _ _ _ located).mpr (Or.inl ⟨rfl, rfl⟩)))
  · intro place member
    obtain ⟨j, found⟩ := List.getElem?_of_mem member
    rcases (located_set places i j _ _ place located).mp found with ⟨_, rfl⟩ | ⟨_, old⟩
    · exact rfl
    · exact claimed_standing backendId key uuids _ _ row.id hash drawn stored place (ready.stands place (List.mem_of_getElem? old))

theorem inserting_step (id : String) (whole : (∀ input, requestHashOf hashOpaque input ≠ "") ∧ ∀ n, uuids n ≠ "") (op : TaskOp) (there : KeyedPlace)
    (located : places[i]? = some (.inserting id))
    (moved : keyedNext hashOpaque backendId key asked (.inserting id) op state = some there) :
    ∃ holder, KeyHeld hashOpaque backendId key uuids holder (KeyedState.exec backendId key op state).2 (places.set i there) := by
  have here : (holder = none ∨ rowStored backendId key state.base) ∧ ∃ n, id = uuids n :=
    ready.stands _ (List.mem_of_getElem? located)
  cases op with
  | readClock =>
      cases moved
      exact ⟨holder, held_quiet hashOpaque backendId key uuids holder state places i ready _ located _ _ rfl (fun _ _ same => by cases same)
        (fun _ _ same => by cases same) here⟩
  | insertTask row =>
      simp only [keyedNext] at moved
      split at moved
      · rename_i mine
        obtain ⟨creates, rfl, backend, named, hashed⟩ := mine
        cases moved
        split
        · rename_i lost
          have sent := exec_dispatched backendId key (.insertTask row) (fun _ _ same => by cases same) state
          refine ⟨holder, held_same hashOpaque backendId key uuids holder state _ places i _ _ ready located ?_ ?_ ?_
            (fun _ _ same => by cases same) trivial⟩
          · rw [KeyedState.exec]
            split
            · exact same_tables _ _ rfl rfl rfl
            · rename_i went
              have taken_ := lost
              rw [Bool.or_eq_true] at taken_
              rw [TaskOp.exec, if_pos (taken_.resolve_left went)]
              exact same_tables _ _ rfl rfl rfl
          · rw [sent]
            exact ready.took
          · rw [sent]
            exact fun _ gone => gone
        · rename_i free
          rw [Bool.not_eq_true, Bool.or_eq_false_iff] at free
          have drawn : row.id ≠ "" := by
            obtain ⟨n, same⟩ := here.2
            rw [same]
            exact whole.2 n
          have hash : asked.hash hashOpaque ≠ "" := by
            cases asked with
            | create input source scheduleId => exact whole.1 input
            | _ => cases creates
          exact ⟨_, inserted_step hashOpaque backendId key uuids holder state places i ready row _ located ⟨backend, named⟩ hashed
            ⟨hash, drawn⟩ free.1 free.2⟩
      · cases moved
  | _ => cases moved

omit ready in
theorem filed_entry (tomb : Tombstone) (id : String) (ours : tomb.key = (backendId, key)) (named : tomb.task_id = some id)
    (held : holder = some (id, tomb.request_hash)) :
    (ledger backendId key (TaskOp.exec (.upsertTombstone tomb) state.base).2).isSome = true ∧
      ∀ entry, ledger backendId key (TaskOp.exec (.upsertTombstone tomb) state.base).2 = some entry →
        ∃ id, entry.task_id = some id ∧ holder = some (id, entry.request_hash) := by
  obtain ⟨entry, found, task, hashed⟩ := upsert_ours backendId key tomb state.base ours
  rw [found]
  refine ⟨rfl, fun other same => ?_⟩
  cases same
  exact ⟨id, task.trans named, by rw [hashed]; exact held⟩

omit ready in
theorem went_base (op : TaskOp) (went : state.failing op = false) :
    (KeyedState.exec backendId key op state).2.base = (op.exec state.base).2 := by
  rw [KeyedState.exec, if_neg (by rw [went]; decide)]

theorem owning_step (id hash : String) (op : TaskOp) (there : KeyedPlace) (located : places[i]? = some (.owning id hash))
    (moved : keyedNext hashOpaque backendId key asked (.owning id hash) op state = some there)
    (went : state.failing op = false) (taken : ∀ other task, op = .createTask other task → accepts state.base = true) :
    KeyHeld hashOpaque backendId key uuids holder (KeyedState.exec backendId key op state).2 (places.set i there) := by
  have here : holder = some (id, hash) := ready.stands _ (List.mem_of_getElem? located)
  cases op with
  | upsertTombstone tomb =>
      simp only [keyedNext] at moved
      split at moved
      · rename_i mine
        obtain ⟨ours, named, rfl, -⟩ := mine
        rw [if_neg (by rw [went]; decide)] at moved
        cases moved
        obtain ⟨found, fits⟩ := filed_entry backendId key holder state tomb id ours named here
        have base := went_base backendId key state (.upsertTombstone tomb) went
        have sent := exec_dispatched backendId key (.upsertTombstone tomb) (fun _ _ same => by cases same) state
        refine held_rows hashOpaque backendId key uuids holder state _ places i _ _ ready located ?_ ?_ ?_ ?_ ?_
          (fun _ _ same => Or.inr same) here
        · rw [base]
          exact upsert_rows tomb state.base
        · rw [base]
          exact fits
        · rw [base]
          exact fun _ => found
        · rw [sent]
          exact ready.took
        · rw [sent]
          exact fun _ gone => gone
      · cases moved
  | readClock =>
      cases moved
      exact held_quiet hashOpaque backendId key uuids holder state places i ready _ located _ _ rfl (fun _ _ same => by cases same)
        (fun _ _ same => same) here
  | updateTask statement other =>
      cases statement with
      | setStatus status now =>
          cases status with
          | dispatching =>
              simp only [keyedNext] at moved
              rw [if_neg (by rw [went]; decide)] at moved
              cases moved
              exact held_quiet hashOpaque backendId key uuids holder state places i ready _ located _ _ rfl
                (fun _ _ same => by cases same) (fun _ _ same => same) here
          | _ => cases moved
      | _ => cases moved
  | createTask other task =>
      have accepted := taken other task rfl
      simp only [keyedNext] at moved
      split at moved
      · rename_i mine
        obtain ⟨backend, named, rfl, hashed⟩ := mine
        rw [accepts] at accepted
        rw [if_pos accepted] at moved
        cases moved
        have gone : (KeyedState.exec backendId key (.createTask other task) state).2.dispatched = task :: state.dispatched := by
          rw [Bool.and_eq_true] at accepted
          rw [KeyedState.exec, if_neg (by rw [went]; decide)]
          simp only [taken_, backend, named, accepted.1, and_self, if_true, Option.toList_some, List.singleton_append]
        refine held_same hashOpaque backendId key uuids holder state _ places i _ _ ready located
          (exec_same backendId key (.createTask other task) rfl state) ?_ ?_ ?_ here
        · rw [gone]
          intro sent member
          rcases List.mem_cons.mp member with rfl | old
          · rw [here, hashed]
          · exact ready.took sent old
        · rw [gone]
          exact fun _ old => List.mem_cons_of_mem task old
        · rw [gone]
          intro id hash same
          cases same
          exact Or.inl ⟨task, List.mem_cons_self, rfl⟩
      · cases moved
  | _ => cases moved

omit ready in
theorem known_same (known : List TaskRow) (filed : Option String) (base : TasksState)
    (here : standing backendId key uuids holder base (.removing known filed)) :
    standing backendId key uuids holder base (.removing known none) :=
  ⟨here.1, here.2.1, fun _ same => by cases same⟩

theorem read_standing (known : List TaskRow) (stored : ∀ row ∈ known, row ∈ state.base.tasks.rows) :
    standing backendId key uuids holder state.base (.removing known none) :=
  ⟨fun row member => ready.mine row (stored row member), fun row member => ready.others row (stored row member),
    fun _ same => by cases same⟩

omit ready in
theorem selected_rows (query : TaskQuery) (rows : List TaskRow)
    (read : (KeyedState.exec backendId key (.selectTasks query) state).1 = .ok rows) : ∀ row ∈ rows, row ∈ state.base.tasks.rows := by
  cases went : state.failing (.selectTasks query) with
  | true =>
      rw [keyed_failing _ _ _ _ went] at read
      cases read
  | false =>
      rw [keyed_performed _ _ _ _ went, TaskOp.exec, TaskQuery.run] at read
      cases matched : matching query.clauses state.base.tasks.rows with
      | error message =>
          rw [matched] at read
          cases read
      | ok found =>
          rw [matched] at read
          cases read
          intro row member
          have arranged := (state.base.planner.perm query.order query.descending found).mem_iff.mp (List.mem_of_mem_take member)
          rw [matching_satisfies query.clauses _ found matched] at arranged
          exact (List.mem_filter.mp arranged).1

-- The ledger may lose or keep entries, as long as the key's stays.
theorem swept_step (now : String) (known : List TaskRow) (filed : Option String) (located : places[i]? = some (.removing known filed))
    (fresh : ∀ tomb, ledger backendId key state.base = some tomb → now < tomb.expires_at) :
    KeyHeld hashOpaque backendId key uuids holder (KeyedState.exec backendId key (.deleteExpiredTombstones now) state).2
      (places.set i (.removing known none)) := by
  have here := ready.stands _ (List.mem_of_getElem? located)
  have sent := exec_dispatched backendId key (.deleteExpiredTombstones now) (fun _ _ same => by cases same) state
  have rows : SameRows state.base (KeyedState.exec backendId key (.deleteExpiredTombstones now) state).2.base := by
    rw [KeyedState.exec]
    split
    · exact same_rows _ _ rfl rfl
    · exact same_rows _ _ rfl rfl
  have book : ledger backendId key (KeyedState.exec backendId key (.deleteExpiredTombstones now) state).2.base =
      ledger backendId key state.base := by
    rw [KeyedState.exec]
    split
    · rfl
    · simp only [TaskOp.exec, ledger]
      rw [Table.find_remaining]
      cases found : state.base.tombstones.find? (backendId, key) with
      | none => rfl
      | some tomb =>
          have later := fresh tomb found
          rw [Option.filter_some, if_pos (by simpa using later)]
  refine held_rows hashOpaque backendId key uuids holder state _ places i _ _ ready located rows ?_ ?_ ?_ ?_
    (fun _ _ same => by cases same) ?_
  · rw [book]
    exact ready.entry
  · rw [book]
    exact fun found => found
  · rw [sent]
    exact ready.took
  · rw [sent]
    exact fun _ gone => gone
  · exact standing_stays backendId key uuids _ _ holder _ (fun _ => row_stays backendId key _ _ rows) (fun found => book ▸ found)
      (known_same backendId key uuids holder known filed _ here)

theorem filed_step (tomb : Tombstone) (known : List TaskRow) (filed : Option String) (located : places[i]? = some (.removing known filed))
    (row : TaskRow) (member : row ∈ known) (puts : files row tomb = true) :
    KeyHeld hashOpaque backendId key uuids holder (KeyedState.exec backendId key (.upsertTombstone tomb) state).2
      (places.set i (.removing known (if state.failing (.upsertTombstone tomb) then none else tomb.task_id))) := by
  obtain ⟨mine, others, -⟩ : standing backendId key uuids holder state.base (.removing known filed) :=
    ready.stands _ (List.mem_of_getElem? located)
  have sent := exec_dispatched backendId key (.upsertTombstone tomb) (fun _ _ same => by cases same) state
  cases went : state.failing (.upsertTombstone tomb) with
  | true =>
      rw [if_pos rfl]
      have same : SameKeys state.base (KeyedState.exec backendId key (.upsertTombstone tomb) state).2.base := by
        rw [KeyedState.exec, if_pos went]
        exact same_tables _ _ rfl rfl rfl
      refine held_same hashOpaque backendId key uuids holder state _ places i _ _ ready located same ?_ ?_
        (fun _ _ same => by cases same) ⟨mine, others, fun _ same => by cases same⟩
      · rw [sent]
        exact ready.took
      · rw [sent]
        exact fun _ gone => gone
  | false =>
      rw [if_neg (by decide)]
      have base := went_base backendId key state _ went
      rw [files, Bool.and_eq_true, decide_eq_true_iff, Option.any_eq_true] at puts
      obtain ⟨⟨name, named, keyed⟩, hashed, task⟩ := puts
      rw [decide_eq_true_iff] at keyed
      rw [truthy, Option.filter_eq_some_iff] at named
      have moved : ∀ (entry : ∀ entry, ledger backendId key (TaskOp.exec (.upsertTombstone tomb) state.base).2 = some entry →
            ∃ id, entry.task_id = some id ∧ holder = some (id, entry.request_hash))
          (found : (ledger backendId key state.base).isSome = true →
            (ledger backendId key (TaskOp.exec (.upsertTombstone tomb) state.base).2).isSome = true)
          (put : ∀ hash, holder = some (row.id, hash) →
            (ledger backendId key (TaskOp.exec (.upsertTombstone tomb) state.base).2).isSome = true),
          KeyHeld hashOpaque backendId key uuids holder (KeyedState.exec backendId key (.upsertTombstone tomb) state).2
            (places.set i (.removing known tomb.task_id)) := by
        intro entry found put
        refine held_rows hashOpaque backendId key uuids holder state _ places i _ _ ready located ?_ ?_ ?_ ?_ ?_
          (fun _ _ same => by cases same) ?_
        · rw [base]
          exact upsert_rows tomb state.base
        · rw [base]
          exact entry
        · rw [base]
          exact found
        · rw [sent]
          exact ready.took
        · rw [sent]
          exact fun _ gone => gone
        · refine ⟨mine, others, fun id same => ?_⟩
          rw [task] at same
          cases same
          rw [base]
          exact ⟨⟨row, member, rfl⟩, put⟩
      by_cases ours : tomb.key = (backendId, key)
      · obtain ⟨rfl, rfl⟩ := Prod.mk.inj (keyed.symm.trans ours)
        obtain ⟨hash, stored, held⟩ := mine row member ⟨rfl, named.1⟩
        rw [stored, Option.getD_some] at hashed
        rw [← hashed] at held
        obtain ⟨found, fits⟩ := filed_entry _ _ holder state tomb row.id ours task held
        exact moved fits (fun _ => found) fun _ _ => found
      · have book := upsert_foreign backendId key tomb state.base ours
        rw [book] at moved
        refine moved ready.entry (fun found => found) fun hash held => ?_
        obtain ⟨-, -, n, drawn⟩ := ready.named row.id hash held
        refine absurd drawn (others row member ?_ n)
        rintro ⟨backend, keyName⟩
        refine ours (keyed.trans ?_)
        rw [backend]
        exact congrArg _ (Option.some.inj (named.1.symm.trans keyName))

-- The key's row goes only when the ledger has its entry; no create is about to insert one then.
theorem deleted_step (id : String) (whole : key ≠ "") (known : List TaskRow) (filed : Option String)
    (located : places[i]? = some (.removing known filed))
    (listed : filed = some id ∨ known.any (fun row => decide (row.id = id) && (truthy row.idempotency_key).isNone) = true)
    (quiet : (∃ row ∈ state.base.tasks.rows, row.under backendId key ∧ row.id = id) → ∀ place ∈ places, pending place = false) :
    KeyHeld hashOpaque backendId key uuids holder (KeyedState.exec backendId key (.deleteTask id) state).2
      (places.set i (.removing known none)) := by
  have here : standing backendId key uuids holder state.base (.removing known filed) := ready.stands _ (List.mem_of_getElem? located)
  have sent := exec_dispatched backendId key (.deleteTask id) (fun _ _ same => by cases same) state
  have drawn : (KeyedState.exec backendId key (.deleteTask id) state).2.base.uuids = state.base.uuids := by
    rw [KeyedState.exec]
    split <;> rfl
  have book : ledger backendId key (KeyedState.exec backendId key (.deleteTask id) state).2.base = ledger backendId key state.base := by
    rw [KeyedState.exec]
    split <;> rfl
  have stored : ∀ row ∈ (KeyedState.exec backendId key (.deleteTask id) state).2.base.tasks.rows, row ∈ state.base.tasks.rows := by
    rw [KeyedState.exec]
    split
    · exact fun _ member => member
    · exact fun _ member => List.mem_of_mem_filter member
  have stays : ∀ row ∈ state.base.tasks.rows, row.id ≠ id →
      row ∈ (KeyedState.exec backendId key (.deleteTask id) state).2.base.tasks.rows := by
    intro row member apart
    rw [KeyedState.exec]
    split
    · exact member
    · exact List.mem_filter.mpr ⟨member, by simpa using apart⟩
  -- A row without a key is none that a create of this one has drawn an id for.
  have covered : ∀ hash, holder = some (id, hash) → (ledger backendId key state.base).isSome = true := by
    intro hash held
    rcases listed with put | bare
    · exact (here.2.2 id put).2 hash held
    · obtain ⟨row, member, keyless⟩ := List.any_eq_true.mp bare
      rw [Bool.and_eq_true, decide_eq_true_iff] at keyless
      obtain ⟨-, -, n, taken⟩ := ready.named id hash held
      refine absurd (keyless.1.trans taken) (here.2.1 row member ?_ n)
      intro under
      rw [under.2, shown_hash key whole] at keyless
      exact absurd keyless.2 Bool.false_ne_true
  refine ⟨drawn.trans ready.drawn, ?_, ?_, ?_, ?_, ready.named, ?_, ?_, ?_⟩
  · exact fun row member under => ready.mine row (stored row member) under
  · exact fun row member apart => ready.others row (stored row member) apart
  · rw [book]
    exact ready.entry
  · intro other hash held
    rw [book]
    rcases ready.known other hash held with ⟨row, member, under⟩ | found
    · by_cases same : row.id = id
      · obtain ⟨_, _, mine⟩ := ready.mine row member under
        rw [same] at mine
        exact Or.inr (covered _ mine)
      · exact Or.inl ⟨row, stays row member same, under⟩
    · exact Or.inr found
  · rw [sent]
    exact ready.took
  · rw [sent]
    intro other hash held
    refine (ready.onWay other hash held).imp (fun gone => gone) fun owns => ?_
    exact (owner_stays places i _ (.removing known none) located other hash owns).resolve_left fun same => by cases same
  · intro place member
    obtain ⟨j, found⟩ := List.getElem?_of_mem member
    have kept : (pending place = true → rowStored backendId key state.base →
        rowStored backendId key (KeyedState.exec backendId key (.deleteTask id) state).2.base) →
        standing backendId key uuids holder state.base place →
          standing backendId key uuids holder (KeyedState.exec backendId key (.deleteTask id) state).2.base place := fun rows =>
      standing_stays backendId key uuids _ _ holder place rows fun found => book ▸ found
    rcases (located_set places i j _ _ place located).mp found with ⟨_, rfl⟩ | ⟨_, old⟩
    · exact kept (fun waits => by cases waits) (known_same backendId key uuids holder known filed _ here)
    · have place_member := List.mem_of_getElem? old
      refine kept (fun waits there => ?_) (ready.stands place place_member)
      obtain ⟨row, member, under⟩ := there
      refine ⟨row, stays row member fun same => ?_, under⟩
      rw [quiet ⟨row, member, under, same⟩ place place_member] at waits
      cases waits

theorem removing_step (whole : key ≠ "") (known : List TaskRow) (filed : Option String) (op : TaskOp) (there : KeyedPlace)
    (located : places[i]? = some (.removing known filed))
    (moved : keyedNext hashOpaque backendId key asked (.removing known filed) op state = some there)
    (fresh : ∀ now, op = .deleteExpiredTombstones now → ∀ tomb, ledger backendId key state.base = some tomb → now < tomb.expires_at)
    (quiet : ∀ id, op = .deleteTask id → (∃ row ∈ state.base.tasks.rows, row.under backendId key ∧ row.id = id) →
      ∀ place ∈ places, pending place = false) :
    KeyHeld hashOpaque backendId key uuids holder (KeyedState.exec backendId key op state).2 (places.set i there) := by
  have here := ready.stands _ (List.mem_of_getElem? located)
  have quietly : leavesKeys op = true → (∀ id task, op ≠ .createTask id task) →
      standing backendId key uuids holder state.base there →
      KeyHeld hashOpaque backendId key uuids holder (KeyedState.exec backendId key op state).2 (places.set i there) := by
    intro leaves other stands
    exact held_quiet hashOpaque backendId key uuids holder state places i ready _ located op there leaves other
      (fun _ _ same => by cases same) stands
  by_cases aside_ : aside op = true
  · rw [aside_next hashOpaque backendId key asked known filed op state aside_, Option.some.injEq] at moved
    subst moved
    refine quietly ?_ ?_ (known_same backendId key uuids holder known filed _ here)
    · cases op <;> first | rfl | cases aside_
    · rintro id task rfl
      cases aside_
  · cases op with
    | selectTask id =>
        cases moved
        refine quietly rfl (fun _ _ same => by cases same) (read_standing hashOpaque backendId key uuids holder state places ready _ ?_)
        intro row member
        split at member
        · cases member
        · exact state.base.tasks.find_mem id row (Option.mem_toList.mp member)
    | selectTasks query =>
        cases moved
        refine quietly rfl (fun _ _ same => by cases same) (read_standing hashOpaque backendId key uuids holder state places ready _ ?_)
        intro row member
        cases read : (KeyedState.exec backendId key (.selectTasks query) state).1 with
        | ok rows =>
            rw [read] at member
            exact selected_rows backendId key state query rows read row member
        | error error =>
            rw [read] at member
            cases member
    | upsertTombstone tomb =>
        simp only [keyedNext] at moved
        split at moved
        · rename_i puts
          cases moved
          obtain ⟨row, member, puts_⟩ := List.any_eq_true.mp puts
          exact filed_step hashOpaque backendId key uuids holder state places i ready tomb known filed located row member puts_
        · cases moved
    | deleteTask id =>
        simp only [keyedNext] at moved
        split at moved
        · rename_i listed
          cases moved
          exact deleted_step hashOpaque backendId key uuids holder state places i ready id whole known filed located listed (quiet id rfl)
        · cases moved
    | deleteExpiredTombstones now =>
        cases moved
        exact swept_step hashOpaque backendId key uuids holder state places i ready now known filed located (fresh now rfl)
    | _ => first | exact absurd rfl aside_ | cases moved

end steps

end held

end Vacps.Tasks
