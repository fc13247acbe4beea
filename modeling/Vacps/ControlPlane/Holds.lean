import Vacps.ControlPlane.TaskPages

/- Legal holds and pins against the calls of task-service.ts that delete. Each of these looks at the rows first and takes
   them away in later statements; only the first pass of the purge asks again, in the statement itself. -/
set_option autoImplicit false

namespace Vacps.Tasks

open Library

-- The row a statement takes away whatever protects it by then.
def takes : TaskOp → Option String
  | .updateTask (.softDelete _ _ _ .live) id => some id
  | .updateTask (.softDelete _ _ _ .terminal) id => some id
  | .deleteTask id => some id
  | _ => none

-- The row a statement pins or puts under hold.
def shields : TaskOp → Option String
  | .updateTask (.pin _ _) id => some id
  | .updateTask (.hold _ _ _) id => some id
  | _ => none

def endangers (op : TaskOp) (id : String) : Prop := takes op = some id

def looks : TaskOp → Prop
  | .selectTask _ => True
  | .selectTasks _ => True
  -- After a hold the call starts anew.
  | op => (shields op).isSome = true

def Unheld (state : TasksState) (id : String) : Prop := ∀ row, state.tasks.find? id = some row → row.isProtected = false

def unheldSeen : TaskOp → TasksState → String → Prop
  | .selectTask _, state, id => Unheld state id
  | .selectTasks _, state, id => Unheld state id
  | _, _, _ => False

-- The statements of these calls. None of them files a row.
def tends : TaskOp → Prop
  | .readClock => True
  | .selectTask _ => True
  | .selectTasks _ => True
  | .updateTask _ _ => True
  | .deleteTask _ => True
  | .upsertTombstone _ => True
  | .deleteExpiredTombstones _ => True
  | .loadOpIdempotency _ _ => True
  | .storeOpIdempotency _ _ => True
  | _ => False

section rows

variable (state : TasksState) (op : TaskOp) (allowed : tends op) (id : String)

-- What becomes of the row under an id.
inductive Tended (op : TaskOp) (id : String) : Option TaskRow → Option TaskRow → Prop where
  | same (row : Option TaskRow) : Tended op id row row
  | changed (statement : TaskStatement) (row : TaskRow) (is : op = .updateTask statement id)
      (selected : statement.selects row = true) : Tended op id (some row) (some (statement.change row))
  | gone (row : Option TaskRow) (is : op = .deleteTask id) : Tended op id row none

include allowed

theorem tended_step : Tended op id (state.tasks.find? id) ((op.exec state).2.tasks.find? id) := by
  cases op with
  | updateTask statement other =>
      have found := Table.find_update state.tasks (fun row => decide (row.id = other) && statement.selects row) statement.change
        (change_id statement) id
      refine found.symm ▸ ?_
      cases stored : state.tasks.find? id with
      | none => exact .same none
      | some row =>
          have key := Table.find_key state.tasks id row stored
          rw [Option.map_some]
          split
          · rename_i selected
            rw [Bool.and_eq_true, decide_eq_true_eq] at selected
            have same : other = id := selected.1.symm.trans key
            subst same
            exact .changed statement row rfl selected.2
          · exact .same _
  | deleteTask other =>
      have found := Table.find_delete state.tasks other id
      refine found.symm ▸ ?_
      by_cases same : other = id
      · subst same
        rw [if_pos rfl]
        exact .gone _ rfl
      · rw [if_neg same]
        exact .same _
  | upsertTombstone tombstone =>
      simp only [TaskOp.exec]
      split <;> exact .same _
  | readClock => exact .same _
  | selectTask other => exact .same _
  | selectTasks query => exact .same _
  | deleteExpiredTombstones now => exact .same _
  | loadOpIdempotency scope key => exact .same _
  | storeOpIdempotency scope replay => exact .same _
  | _ => exact False.elim allowed

-- Only a pin or a hold protects a row.
theorem unheld_next (unshielded : shields op ≠ some id) (unheld : Unheld state id) : Unheld (op.exec state).2 id := by
  intro row stored
  have step := tended_step state op allowed id
  rw [stored] at step
  generalize before : state.tasks.find? id = old at step
  cases step with
  | same => exact unheld row before
  | changed statement row is selected =>
      subst is
      have open_ := unheld row before
      simp only [TaskRow.isProtected, isRetentionProtected, Bool.or_eq_false_iff] at open_ ⊢
      cases statement with
      | pin now pinnedBy => exact absurd rfl unshielded
      | hold reason now heldBy => exact absurd rfl unshielded
      | unpin expiresAt now => exact ⟨rfl, open_.2⟩
      | clearHold now => exact ⟨open_.1, rfl⟩
      | _ => exact open_

-- A protected row survives what does not take it blindly.
theorem protected_stays (row : TaskRow) (stored : state.tasks.find? id = some row) (held : row.isProtected = true)
    (spared : takes op ≠ some id) : ∃ later, (op.exec state).2.tasks.find? id = some later ∧ later.deleted_at = row.deleted_at := by
  have step := tended_step state op allowed id
  rw [stored] at step
  generalize (op.exec state).2.tasks.find? id = after at step
  cases step with
  | same => exact ⟨row, rfl, rfl⟩
  | changed statement row is selected =>
      subst is
      refine ⟨statement.change row, rfl, ?_⟩
      cases statement with
      | softDelete now deletedBy reason where_ =>
          cases where_ with
          | live => exact absurd rfl spared
          | terminal => exact absurd rfl spared
          | unprotected =>
              simp only [TaskStatement.selects, Bool.and_eq_true, Bool.not_eq_true'] at selected
              have unpinned := Option.isNone_iff_eq_none.mp selected.2
              rw [TaskRow.isProtected, isRetentionProtected, selected.1.2, unpinned] at held
              cases held
      | _ => rfl
  | gone row is =>
      subst is
      exact absurd rfl spared

end rows

-- What the query leaves out held rows for is not held.
theorem selected_unheld (query : TaskQuery) (asked : isUnprotected ∈ query.clauses) (state : TasksState) (rows : List TaskRow)
    (selected : (TaskOp.exec (.selectTasks query) state).1 = .ok rows) (id : String) (member : id ∈ rows.map (·.id)) :
    Unheld state id := by
  obtain ⟨row, here, rfl⟩ := List.mem_map.mp member
  rw [TaskOp.exec, TaskQuery.run] at selected
  cases matched : matching query.clauses state.tasks.rows with
  | error message =>
      rw [matched] at selected
      cases selected
  | ok found =>
      rw [matched] at selected
      cases selected
      have stored := (state.planner.perm query.order query.descending found).mem_iff.mp (List.mem_of_mem_take here)
      rw [matching_satisfies query.clauses _ found matched] at stored
      obtain ⟨filed, passes⟩ := List.mem_filter.mp stored
      have free := (holds_true query.clauses row).mp ((satisfies_iff query.clauses row).mp passes) isUnprotected asked
      intro other again
      have same := (Table.find_of_mem state.tasks row filed).symm.trans again
      cases same
      simp only [isUnprotected, Except.ok.injEq, Bool.and_eq_true, Bool.not_eq_true'] at free
      rw [TaskRow.isProtected, isRetentionProtected, free.1, Option.isNone_iff_eq_none.mp free.2]
      rfl

section programs

variable {α β : Type} (platform : Platform) (hashOpaque : Hashed → String)

abbrev HoldCareful (program : Service α) : Prop := Careful endangers looks TaskOp.exec unheldSeen tends program

def gentle (op : TaskOp) : Prop := tends op ∧ ∀ id, ¬ endangers op id

theorem call_gentle (op : TaskOp) (allowed : tends op) (still : takes op = none) : (call op).Uses gentle := by
  refine uses_perform _ _ ⟨allowed, fun id here => ?_⟩
  rw [endangers, still] at here
  cases here

-- Statements between two looks that take away these rows only.
def takesFrom (ids : List String) (op : TaskOp) : Prop := tends op ∧ ¬ looks op ∧ ∀ id, endangers op id → id ∈ ids

theorem call_takes (ids : List String) (op : TaskOp) (allowed : tends op) (blind : ¬ looks op)
    (listed : ∀ id, takes op = some id → id ∈ ids) : (call op).Uses (takesFrom ids) :=
  uses_perform _ _ ⟨allowed, blind, listed⟩

theorem clock_takes (ids : List String) : (call .readClock).Uses (takesFrom ids) := by
  refine call_takes ids _ trivial ?_ fun id never => by cases never
  intro look
  cases look

-- What a call goes on with when it has looked.
structure Removing (ids : List String) (program : Service α) : Prop where
  uses : program.Uses tends
  sound : program.Grounded endangers looks TaskOp.exec unheldSeen
  aims : ∀ id, program.Aims endangers looks id → id ∈ ids

theorem careful_removing (ids : List String) (program : Service α) (careful : HoldCareful program) : Removing ids program :=
  ⟨careful.uses, careful.sound, fun id aims => absurd aims (careful.idle id)⟩

theorem gentle_removing (ids : List String) (program : Service α) (uses : program.Uses gentle) : Removing ids program :=
  careful_removing ids program (harmless_careful program uses)

theorem removing_bind (ids : List String) (program : Service α) (continue_ : α → Service β)
    (first : program.Uses (takesFrom ids)) (later : ∀ value, Removing ids (continue_ value)) :
    Removing ids (program >>= continue_) where
  uses := uses_bind _ _ _ (uses_mono _ _ (fun _ here => here.1) program first) fun value => (later value).uses
  sound := grounded_blind endangers looks TaskOp.exec unheldSeen _ _ (uses_mono _ _ (fun _ here => here.2.1) program first)
    fun value => (later value).sound
  aims := by
    intro id aims
    rcases aims_bind endangers looks _ _ id aims with here | ⟨value, there⟩
    · obtain ⟨op, allowed, effect⟩ := aims_used endangers looks (takesFrom ids) program first id here
      exact allowed.2.2 id effect
    · exact (later value).aims id there

theorem look_removing (op : TaskOp) (ids : op.Result → List String) (continue_ : op.Result → Service β) (allowed : tends op)
    (seen : looks op) (still : takes op = none) (removing : ∀ value, Removing (ids value) (continue_ value))
    (grants : ∀ state value, (op.exec state).1 = .ok value → ∀ id ∈ ids value, unheldSeen op state id) :
    HoldCareful (call op >>= continue_) := by
  refine careful_look op continue_ allowed seen ?_ (fun value => (removing value).uses) (fun value => (removing value).sound) ?_
  · intro id here
    rw [endangers, still] at here
    cases here
  · intro state value answered id aims
    exact grants state value answered id ((removing value).aims id aims)

theorem hard_delete_takes (row : TaskRow) : (hardDeleteTaskRow platform row).Uses (takesFrom [row.id]) := by
  have last : (call (.deleteTask row.id)).Uses (takesFrom [row.id]) := by
    refine call_takes _ _ trivial ?_ fun id here => ?_
    · intro look
      cases look
    · cases here
      exact List.mem_singleton_self _
  rw [hardDeleteTaskRow]
  split
  · refine uses_bind _ _ _ (clock_takes _) fun now => ?_
    refine uses_bind _ _ _ (call_takes _ _ trivial ?_ fun id never => by cases never) fun _ => last
    intro look
    cases look
  · exact last

theorem takes_wider (ids wider : List String) (within : ∀ id ∈ ids, id ∈ wider) (program : Service α)
    (uses : program.Uses (takesFrom ids)) : program.Uses (takesFrom wider) := by
  refine uses_mono _ _ ?_ program uses
  intro op here
  exact ⟨here.1, here.2.1, fun id effect => within id (here.2.2 id effect)⟩

theorem candidates_use (kind : TaskOp → Prop) (mode : DeleteMode) (reason deletedBy : String) (now : Int) (rows : List TaskRow)
    (hard : ∀ row ∈ rows, (hardDeleteTaskRow platform row).Uses kind)
    (soft : ∀ row ∈ rows, (call (.updateTask (.softDelete now deletedBy reason .terminal) row.id)).Uses kind) :
    (deleteCandidates platform mode reason deletedBy now rows).Uses kind := by
  induction rows with
  | nil => exact trivial
  | cons row rest ih =>
      have later := ih (fun other member => hard other (List.mem_cons_of_mem _ member))
        fun other member => soft other (List.mem_cons_of_mem _ member)
      refine uses_bind _ _ _ (uses_attempt _ _ ?_) fun deleted => uses_bind _ _ _ later fun ids => ?_
      · cases mode with
        | hard => exact hard row List.mem_cons_self
        | soft => exact soft row List.mem_cons_self
      · cases deleted <;> exact trivial

theorem purge_uses (kind : TaskOp → Prop) (step : TaskRow → Service Unit) (rows : List TaskRow)
    (each : ∀ row ∈ rows, (step row).Uses kind) : (purgeEach step rows).Uses kind := by
  induction rows with
  | nil => exact trivial
  | cons row rest ih =>
      have later := ih fun other member => each other (List.mem_cons_of_mem _ member)
      rw [purgeEach]
      split
      · exact later
      · refine uses_bind _ _ _ (uses_attempt _ _ (each row List.mem_cons_self)) fun purged => uses_bind _ _ _ later fun count => ?_
        cases purged <;> exact trivial

theorem get_gentle (id : String) (includeDeleted : Bool) : (get id includeDeleted).Uses gentle := by
  refine uses_bind _ _ _ (call_gentle _ trivial rfl) fun row => ?_
  cases row with
  | none => exact trivial
  | some row =>
      dsimp only
      split <;> exact trivial

-- The row under the id asked for, by both its names, unless it is protected.
def openIds (id : String) (found : Option TaskRow) : List String :=
  (found.toList.filter fun row => !row.isProtected).flatMap fun row => [id, row.id]

theorem open_unheld (state : TasksState) (id other : String) (member : other ∈ openIds id (state.tasks.find? id)) :
    Unheld state other := by
  obtain ⟨row, filtered, named⟩ := List.mem_flatMap.mp member
  obtain ⟨here, unprotected⟩ := List.mem_filter.mp filtered
  have stored := Option.mem_toList.mp here
  have same : other = id := by
    rcases List.mem_pair.mp named with rfl | rfl
    · rfl
    · exact Table.find_key state.tasks id row stored
  subst same
  intro found again
  cases stored.symm.trans again
  simpa only [Bool.not_eq_true'] using unprotected

theorem delete_careful (id : String) (mode : Option DeleteMode) (reason deletedBy key : Option String) :
    HoldCareful (delete platform hashOpaque id mode reason deletedBy key) := by
  apply replaying_careful _ _ _ _ (fun _ => ⟨trivial, fun _ never => by cases never⟩) fun _ => ⟨trivial, fun _ never => by cases never⟩
  refine look_removing (.selectTask id) (openIds id) _ trivial trivial rfl ?_ ?_
  · intro found
    cases found with
    | none => exact gentle_removing _ _ trivial
    | some row =>
        dsimp only
        split
        · exact gentle_removing _ _ trivial
        · split
          · exact gentle_removing _ _ trivial
          · split
            · exact gentle_removing _ _ trivial
            · rename_i unprotected
              have ids : openIds id (some row) = [id, row.id] := by simp [openIds, unprotected]
              rw [ids]
              split
              · have hard := takes_wider _ [id, row.id] (fun other => List.mem_cons_of_mem id) _ (hard_delete_takes platform row)
                exact removing_bind _ _ _ hard fun _ => gentle_removing _ _ trivial
              · refine removing_bind _ _ _ (clock_takes _) fun now => ?_
                refine removing_bind _ _ _ (call_takes _ _ trivial ?_ ?_) fun _ => ?_
                · intro look
                  cases look
                · intro other here
                  cases here
                  exact List.mem_cons_self
                · exact gentle_removing _ _ (uses_bind _ _ _ (call_gentle _ trivial rfl) fun _ => trivial)
  · intro state found answered other member
    cases answered
    exact open_unheld state id other member

theorem cleanup_careful (filters : CleanupFilters) (mode : Option DeleteMode) (reason deletedBy : Option String)
    (expectedMatchedCount : Option Nat) (limit : Option Int) (key : Option String) :
    HoldCareful (cleanupRun platform hashOpaque filters mode reason deletedBy expectedMatchedCount limit key) := by
  apply replaying_careful _ _ _ _ (fun _ => ⟨trivial, fun _ never => by cases never⟩) fun _ => ⟨trivial, fun _ never => by cases never⟩
  rw [cleanup_body_candidates, cleanupCandidates]
  have asks : ∀ clauses : List Clause, isUnprotected ∈ clauses → ∀ order descending batchLimit,
      HoldCareful (call (.selectTasks ⟨clauses, order, descending, batchLimit⟩) >>=
        cleanupDeletes platform (mode.getD .soft) (trimmedOr reason "bulk_cleanup") (trimmedOr deletedBy "mcp")
          expectedMatchedCount) := by
    intro clauses asked order descending batchLimit
    refine look_removing (.selectTasks _) (fun rows => rows.map (·.id)) _ trivial trivial rfl ?_ ?_
    · intro rows
      rw [cleanupDeletes]
      split
      · exact gentle_removing _ _ trivial
      · refine removing_bind _ _ _ (clock_takes _) fun now => ?_
        refine removing_bind _ _ _ (candidates_use platform _ _ _ _ now rows ?_ ?_) fun deleted => gentle_removing _ _ trivial
        · intro row member
          refine takes_wider _ _ ?_ _ (hard_delete_takes platform row)
          intro id same
          rw [List.mem_singleton.mp same]
          exact List.mem_map_of_mem member
        · intro row member
          refine call_takes _ _ trivial ?_ ?_
          · intro look
            cases look
          · intro id here
            cases here
            exact List.mem_map_of_mem member
    · intro state rows answered id member
      exact selected_unheld _ asked state rows answered id member
  have always : ∀ expiredAt more, isUnprotected ∈ clausesOf filters true expiredAt ++ [isTerminal] ++ more := by
    intro expiredAt more
    simp [clausesOf]
  change HoldCareful (Async.bind (Async.bind (buildCleanupClauses filters true) _) _)
  rw [Async.bind_assoc, buildCleanupClauses]
  split
  · change HoldCareful (Async.bind (Async.bind (call .readClock) _) _)
    rw [Async.bind_assoc]
    exact careful_bind _ _ (harmless_careful _ (call_gentle _ trivial rfl)) fun now => asks _ (always _ _) _ _ _
  · exact asks _ (always _ _) _ _ _

theorem purge_careful : HoldCareful (purgeExpired platform) := by
  refine careful_bind _ _ (harmless_careful _ (call_gentle _ trivial rfl)) fun now => ?_
  refine careful_bind _ _ (harmless_careful _ (call_gentle _ trivial rfl)) fun candidates => ?_
  have first : (purgeEach (fun row => call (.updateTask (.softDelete now "system" "retention_expired" .unprotected) row.id))
      candidates).Uses gentle := purge_uses _ _ _ fun row _ => call_gentle _ trivial rfl
  refine careful_bind _ _ (harmless_careful _ first) fun soft_deleted => ?_
  refine look_removing (.selectTasks _) (fun rows => rows.map (·.id)) _ trivial trivial rfl ?_ ?_
  · intro rows
    refine removing_bind _ _ _ (purge_uses _ _ rows ?_) fun hard_deleted => ?_
    · intro row member
      refine takes_wider _ _ ?_ _ (hard_delete_takes platform row)
      intro id same
      rw [List.mem_singleton.mp same]
      exact List.mem_map_of_mem member
    · refine gentle_removing _ _ (uses_bind _ _ _ (uses_attempt _ _ (call_gentle _ trivial rfl)) fun _ => trivial)
  · intro state rows answered id member
    exact selected_unheld _ (List.mem_cons_of_mem _ List.mem_cons_self) state rows answered id member

-- What the calls that pin, hold and let go again have in common: a statement for the row, unless it is as asked for.
theorem protection_careful (id : String) (continue_ : Option TaskRow → Service Protection) (asked : TaskRow → Prop)
    [DecidablePred asked] (already : TaskRow → Protection) (statement : TaskRow → Int → TaskStatement)
    (answer : TaskIndex → Protection) (missing : continue_ none = .fail (taskNotFound id))
    (found : ∀ row, continue_ (some row) = if asked row then pure (already row) else do
      let now ← call .readClock
      call (.updateTask (statement row now) id)
      let task ← get id true
      pure (answer task))
    (still : ∀ row now, takes (.updateTask (statement row now) id) = none) :
    HoldCareful (call (.selectTask id) >>= continue_) := by
  refine harmless_careful _ (uses_bind _ _ _ (call_gentle _ trivial rfl) fun row => ?_)
  cases row with
  | none =>
      rw [missing]
      exact trivial
  | some row =>
      rw [found]
      split
      · exact trivial
      · refine uses_bind _ _ _ (call_gentle _ trivial rfl) fun now => ?_
        refine uses_bind _ _ _ (call_gentle _ trivial (still row now)) fun _ => ?_
        exact uses_bind _ _ _ (get_gentle id true) fun _ => trivial

theorem pin_careful (id : String) (pinnedBy : Option String) : HoldCareful (pin id pinnedBy) :=
  protection_careful id _ (fun row => row.pinned_at.isSome = true) _ (fun _ now => .pin now (trimmedOr pinnedBy "mcp")) _ rfl
    (fun _ => rfl) fun _ _ => rfl

theorem unpin_careful (id : String) : HoldCareful (unpin platform id) :=
  protection_careful id _ (fun row => row.pinned_at.isNone = true) _ (fun _ now => .unpin _ (toISOString now)) _ rfl
    (fun _ => rfl) fun _ _ => rfl

theorem set_hold_careful (id : String) (reason heldBy : Option String) : HoldCareful (setLegalHold id reason heldBy) :=
  protection_careful id _ (fun row => row.legal_hold = true) _
    (fun _ now => .hold (trimmedOr reason "legal_hold") (toISOString now) (trimmedOr heldBy "mcp")) _ rfl (fun _ => rfl) fun _ _ => rfl

theorem clear_hold_careful (id : String) : HoldCareful (clearLegalHold id) :=
  protection_careful id _ (fun row => (!row.legal_hold) = true) _ (fun _ now => .clearHold (toISOString now)) _ rfl
    (fun _ => rfl) fun _ _ => rfl

inductive HoldCall where
  | delete (id : String) (mode : Option DeleteMode) (reason deletedBy idempotencyKey : Option String)
  | cleanupRun (filters : CleanupFilters) (mode : Option DeleteMode) (reason deletedBy : Option String)
      (expectedMatchedCount : Option Nat) (limit : Option Int) (idempotencyKey : Option String)
  | purgeExpired
  | pin (id : String) (pinnedBy : Option String)
  | unpin (id : String)
  | setLegalHold (id : String) (reason heldBy : Option String)
  | clearLegalHold (id : String)

def HoldCall.body : HoldCall → Service Unit
  | .delete id mode reason deletedBy idempotencyKey => do
      let _ ← Tasks.delete platform hashOpaque id mode reason deletedBy idempotencyKey
      pure ()
  | .cleanupRun filters mode reason deletedBy expectedMatchedCount limit idempotencyKey => do
      let _ ← Tasks.cleanupRun platform hashOpaque filters mode reason deletedBy expectedMatchedCount limit idempotencyKey
      pure ()
  | .purgeExpired => do
      let _ ← Tasks.purgeExpired platform
      pure ()
  | .pin id pinnedBy => do
      let _ ← Tasks.pin id pinnedBy
      pure ()
  | .unpin id => do
      let _ ← Tasks.unpin platform id
      pure ()
  | .setLegalHold id reason heldBy => do
      let _ ← Tasks.setLegalHold id reason heldBy
      pure ()
  | .clearLegalHold id => do
      let _ ← Tasks.clearLegalHold id
      pure ()

theorem hold_body_careful (held : HoldCall) : HoldCareful (held.body platform hashOpaque) := by
  cases held with
  | delete id mode reason deletedBy key =>
      exact careful_bind _ _ (delete_careful platform hashOpaque id mode reason deletedBy key) fun _ => harmless_careful _ trivial
  | cleanupRun filters mode reason deletedBy expected limit key =>
      exact careful_bind _ _ (cleanup_careful platform hashOpaque filters mode reason deletedBy expected limit key)
        fun _ => harmless_careful _ trivial
  | purgeExpired => exact careful_bind _ _ (purge_careful platform) fun _ => harmless_careful _ trivial
  | pin id pinnedBy => exact careful_bind _ _ (pin_careful id pinnedBy) fun _ => harmless_careful _ trivial
  | unpin id => exact careful_bind _ _ (unpin_careful platform id) fun _ => harmless_careful _ trivial
  | setLegalHold id reason heldBy => exact careful_bind _ _ (set_hold_careful id reason heldBy) fun _ => harmless_careful _ trivial
  | clearLegalHold id => exact careful_bind _ _ (clear_hold_careful id) fun _ => harmless_careful _ trivial

end programs

section runs

variable (platform : Platform) (hashOpaque : Hashed → String)

abbrev HoldPool : Type := Pool TaskOp TaskOp.Result Thrown Unit HoldCall TasksState

-- No other call is about to take a row away when it is pinned or put under hold.
def spares (pool : HoldPool) : PoolEvent HoldCall → Prop
  | .start _ => True
  | .step i => ∀ held op rest, pool.threads[i]? = some ⟨held, .call op rest⟩ → ∀ id, shields op = some id →
      ∀ thread ∈ pool.threads.eraseIdx i, ¬ thread.rest.Aims endangers looks id

theorem holds_sound (start : TasksState) (events : List (PoolEvent HoldCall))
    (guarded : (⟨start, []⟩ : HoldPool).Guarded TaskOp.exec (HoldCall.body platform hashOpaque) spares events) :
    Sound endangers looks TaskOp.exec unheldSeen tends (fun _ => True) Unheld
      ((⟨start, []⟩ : HoldPool).run TaskOp.exec (HoldCall.body platform hashOpaque) events) := by
  have initial : Sound endangers looks TaskOp.exec unheldSeen tends (fun _ => True) Unheld (⟨start, []⟩ : HoldPool) := by
    refine ⟨trivial, ?_, ?_, ?_⟩ <;> intro thread member <;> cases member
  have head : ∀ (pool : HoldPool) (i : Nat) (held : HoldCall) (op : TaskOp) (rest : Except Thrown op.Result → Service Unit),
      Sound endangers looks TaskOp.exec unheldSeen tends (fun _ => True) Unheld pool →
        pool.threads[i]? = some ⟨held, .call op rest⟩ → tends op := by
    intro pool i held op rest sound found
    exact (sound.uses _ (List.mem_of_getElem? found)).1
  refine sound_run endangers looks TaskOp.exec unheldSeen tends (HoldCall.body platform hashOpaque) spares (fun _ => True)
    Unheld (⟨start, []⟩ : HoldPool) initial (fun held => (hold_body_careful platform hashOpaque held).uses)
    (fun held => (hold_body_careful platform hashOpaque held).sound)
    (fun held => (hold_body_careful platform hashOpaque held).idle) ?_ ?_ ?_ ?_ events guarded
  · intro pool i held op rest _ _ _
    trivial
  · intro pool i held op rest sound guard found thread member id aims unheld
    refine unheld_next pool.state op (head pool i held op rest sound found) id (fun shielded => ?_) unheld
    exact guard held op rest found id shielded thread member aims
  · intro pool i held op rest sound _ found blind id unheld
    refine unheld_next pool.state op (head pool i held op rest sound found) id (fun shielded => ?_) unheld
    refine blind ?_
    cases op <;> first | exact trivial | exact Option.isSome_of_eq_some shielded
  · intro pool i held op rest sound _ found seen id grants
    cases op with
    | selectTask other => exact grants
    | selectTasks query => exact grants
    | _ => exact False.elim grants

-- In a run in which no hold comes between a call's look at a row and its statement, no step deletes a protected row.
theorem holds_protect (start : TasksState) (before : List (PoolEvent HoldCall))
    (guarded : (⟨start, []⟩ : HoldPool).Guarded TaskOp.exec (HoldCall.body platform hashOpaque) spares before)
    (event : PoolEvent HoldCall) (id : String) (row : TaskRow)
    (stored : ((⟨start, []⟩ : HoldPool).run TaskOp.exec (HoldCall.body platform hashOpaque) before).state.tasks.find? id = some row)
    (protected_ : row.isProtected = true) :
    ∃ later, ((⟨start, []⟩ : HoldPool).run TaskOp.exec (HoldCall.body platform hashOpaque) (before ++ [event])).state.tasks.find? id =
      some later ∧ later.deleted_at = row.deleted_at := by
  have sound := holds_sound platform hashOpaque start before guarded
  rw [run_append]
  generalize (⟨start, []⟩ : HoldPool).run TaskOp.exec (HoldCall.body platform hashOpaque) before = pool at sound stored
  cases event with
  | start held => exact ⟨row, stored, rfl⟩
  | step i =>
      change ∃ later, (pool.advance TaskOp.exec i).state.tasks.find? id = some later ∧ later.deleted_at = row.deleted_at
      rcases advance_cases TaskOp.exec pool i with lost | ⟨held, op, rest, found, taken⟩
      · rw [lost]
        exact ⟨row, stored, rfl⟩
      · have member := List.mem_of_getElem? found
        rw [taken]
        refine protected_stays pool.state op (sound.uses _ member).1 id row stored protected_ fun taking => ?_
        have unheld := sound.licensed _ member id (Or.inl taking) row stored
        rw [protected_] at unheld
        cases unheld

end runs

section concrete

def heldRun (start : TasksState) (events : List (PoolEvent HoldCall)) : HoldPool :=
  (⟨start, []⟩ : HoldPool).run TaskOp.exec (HoldCall.body utcMinutes unhashed) events

def ended (thread : Thread TaskOp TaskOp.Result Thrown Unit HoldCall) : Bool :=
  match thread.rest with
  | .call _ _ => false
  | _ => true

-- Rows are pinned and held while no other call is under way.
def holdsAlone (pool : HoldPool) : PoolEvent HoldCall → Bool
  | .start _ => true
  | .step i =>
      match pool.threads[i]? with
      | some ⟨_, .call op _⟩ => (shields op).isNone || (pool.threads.eraseIdx i).all ended
      | _ => true

theorem holds_alone_spares (pool : HoldPool) (event : PoolEvent HoldCall) (checked : holdsAlone pool event = true) :
    spares pool event := by
  cases event with
  | start held => trivial
  | step i =>
      intro held op rest found id shielded thread member aims
      simp only [holdsAlone, found, shielded, Option.isNone_some, Bool.false_or] at checked
      have finished := List.all_eq_true.mp checked thread member
      obtain ⟨other, program⟩ := thread
      cases program with
      | ret value => exact aims
      | fail error => exact aims
      | call op rest => cases finished

-- A row that has ended, is pinned and has expired; a cleanup of everything.
def everything : CleanupFilters where
  backendId := none
  scheduleId := none
  status := none
  source := none
  environment := none
  labels := none
  createdBefore := none
  createdAfter := none
  terminalBefore := none
  expiresBefore := none
  expiredOnly := false
  testOnly := false
  includeDeleted := true
  deletedBefore := none

-- A delete that comes after the hold leaves the row.
theorem holds_protect_delete :
    ∃ later, (heldRun (oneTask (rowWith "t" .succeeded) none) ((.start (.setLegalHold "t" none none) ::
      List.replicate 4 (.step 0) ++ [.start (.delete "t" (some .hard) none none none)]) ++ [.step 1])).state.tasks.find? "t" =
        some later ∧ later.deleted_at = none := by
  have guarded : (⟨oneTask (rowWith "t" .succeeded) none, []⟩ : HoldPool).Guarded TaskOp.exec
      (HoldCall.body utcMinutes unhashed) spares (.start (.setLegalHold "t" none none) :: List.replicate 4 (.step 0) ++
        [.start (.delete "t" (some .hard) none none none)]) := by
    apply guarded_passes _ _ _ holdsAlone holds_alone_spares
    decide +kernel
  have held : ∃ row, (heldRun (oneTask (rowWith "t" .succeeded) none) (.start (.setLegalHold "t" none none) ::
      List.replicate 4 (.step 0) ++ [.start (.delete "t" (some .hard) none none none)])).state.tasks.find? "t" = some row ∧
        row.isProtected = true ∧ row.deleted_at = none := by
    refine ⟨_, rfl, ?_, ?_⟩ <;> decide +kernel
  obtain ⟨row, stored, protected_, live⟩ := held
  obtain ⟨later, found, same⟩ := holds_protect utcMinutes unhashed _ _ guarded (.step 1) "t" row stored protected_
  exact ⟨later, found, same.trans live⟩

-- Whether the row is protected, and when it was deleted.
def heldRow (start : TasksState) (events : List (PoolEvent HoldCall)) : Option (Bool × Option String) :=
  ((heldRun start events).state.tasks.find? "t").map fun row => (row.isProtected, row.deleted_at.map (·.val))

-- The row is put under hold after the given call has looked.
def crossed (looking : HoldCall) (steps : Nat) : List (PoolEvent HoldCall) :=
  .start looking :: List.replicate steps (.step 0) ++ .start (.setLegalHold "t" none none) :: List.replicate 3 (.step 1)

-- A day and a half after the epoch, with a task deleted at the epoch.
def longDeleted : TasksState :=
  { oneTask { rowWith "t" .succeeded with deleted_at := some (stamp 0) } none with clock := fun n => 129600000 + n }

-- The held row is deleted all the same, by a delete, by a cleanup and by the last pass of the purge.
theorem hold_crossed :
    let ended := oneTask (rowWith "t" .succeeded) none
    let delete := fun mode => HoldCall.delete "t" (some mode) none none none
    let cleanup := fun mode => HoldCall.cleanupRun everything (some mode) none none none none none
    (heldRow ended (crossed (delete .soft) 2) = some (true, none) ∧
        heldRow ended (crossed (delete .soft) 2 ++ [.step 0]) = some (true, some "1970-01-01T00:00:00.000Z")) ∧
      (heldRow ended (crossed (delete .hard) 1) = some (true, none) ∧
        heldRow ended (crossed (delete .hard) 1 ++ [.step 0]) = none) ∧
      (heldRow ended (crossed (cleanup .soft) 2) = some (true, none) ∧
        heldRow ended (crossed (cleanup .soft) 2 ++ [.step 0]) = some (true, some "1970-01-01T00:00:00.000Z")) ∧
      (heldRow ended (crossed (cleanup .hard) 2) = some (true, none) ∧
        heldRow ended (crossed (cleanup .hard) 2 ++ [.step 0]) = none) ∧
      heldRow longDeleted (crossed .purgeExpired 3) = some (true, some "1970-01-01T00:00:00.000Z") ∧
        heldRow longDeleted (crossed .purgeExpired 3 ++ [.step 0]) = none := by
  decide +kernel

end concrete

end Vacps.Tasks
