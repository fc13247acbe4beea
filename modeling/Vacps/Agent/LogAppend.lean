import Vacps.Agent.TaskQueue

/- Runs of concurrent appends to the log of one task. -/
set_option autoImplicit false

namespace Vacps.TaskStore

open Library

structure LogLine where
  stream : LogStream
  data : String
deriving DecidableEq

def lineOf (row : LogRow) : LogLine := ⟨row.stream, row.data⟩

-- The stored lines of the task, in the order they were stored.
def taskLog (db : Database) (id : String) : List LogRow := db.logs.rows.filter fun row => decide (row.task_id = id)

def numbered (db : Database) (id : String) : Prop :=
  (taskLog db id).map LogRow.sequence = List.range' 1 (taskLog db id).length

instance (db : Database) (id : String) : Decidable (numbered db id) :=
  inferInstanceAs (Decidable ((taskLog db id).map LogRow.sequence = List.range' 1 (taskLog db id).length))

section table

theorem foldr_max_range (first size : Nat) : (List.range' first (size + 1)).foldr max 0 = first + size := by
  induction size generalizing first with
  | zero => simp
  | succ size ih =>
      rw [List.range'_succ, List.foldr_cons, ih (first + 1)]
      omega

theorem max_numbered (db : Database) (id : String) (counted : numbered db id) :
    maxSequence db id = (taskLog db id).length := by
  have values : maxSequence db id = ((taskLog db id).map LogRow.sequence).foldr max 0 := rfl
  rw [values, counted]
  cases (taskLog db id).length with
  | zero => rfl
  | succ size => rw [foldr_max_range, Nat.add_comm]

theorem log_free_iff (db : Database) (id : String) (counted : numbered db id) (sequence : Nat) :
    db.logs.find? (id, sequence) = none ↔ ¬ (1 ≤ sequence ∧ sequence ≤ (taskLog db id).length) := by
  have stored : (id, sequence) ∈ db.logs.rows.map LogRow.key ↔ sequence ∈ (taskLog db id).map LogRow.sequence := by
    simp [taskLog, LogRow.key, List.mem_map, List.mem_filter, and_assoc]
  rw [Table.find_none_iff, stored, counted, List.mem_range'_1]
  omega

section insert

variable (db : Database) (id : String) (counted : numbered db id) (owned : db.tasks.find? id ≠ none) (line : LogLine)

include counted

theorem append_collides (last : Nat) (behind : last < (taskLog db id).length) :
    ∃ error, db.run (.insertLog id (last + 1) line.stream line.data) = (.error error, db) := by
  have taken : db.logs.find? (id, last + 1) ≠ none := by
    rw [Ne, log_free_iff db id counted]
    omega
  refine ⟨.unique "task_logs.task_id, task_logs.sequence", ?_⟩
  rw [Database.run, Statement.exec, Database.insertLog, dif_neg taken]

include owned

theorem append_stores :
    (db.run (.insertLog id ((taskLog db id).length + 1) line.stream line.data)).1 = .ok 1 ∧
      taskLog (db.run (.insertLog id ((taskLog db id).length + 1) line.stream line.data)).2 id =
        taskLog db id ++ [⟨id, (taskLog db id).length + 1, line.stream, line.data⟩] ∧
      (db.run (.insertLog id ((taskLog db id).length + 1) line.stream line.data)).2.tasks = db.tasks := by
  have free : db.logs.find? (id, (taskLog db id).length + 1) = none := by
    rw [log_free_iff db id counted]
    omega
  rw [Database.run, Statement.exec, Database.insertLog, dif_pos free, dif_pos owned]
  refine ⟨rfl, ?_, rfl⟩
  simp [taskLog, Table.insert, List.filter_append]

end insert

end table

-- Where an append stands: before its read, before its write, done.
inductive AppendPlace where
  | reads (line : LogLine)
  | writes (line : LogLine) (last : Nat)
  | stored (line : LogLine)
  | failed (line : LogLine)

def appendNext (id : String) : AppendPlace → AgentOp → AgentState → Option AppendPlace
  | .reads line, .selectMaxSequence other, agent =>
      if other = id then some (.writes line (maxSequence agent.db id)) else none
  | .writes line last, .run (.insertLog other sequence stream data), agent =>
      if other = id ∧ sequence = last + 1 ∧ stream = line.stream ∧ data = line.data then
        some (match (agent.db.run (.insertLog id (last + 1) line.stream line.data)).1 with
          | .ok _ => .stored line
          | .error _ => .failed line)
      else none
  | _, _, _ => none

def appendEnds (line : LogLine) (place : AppendPlace) : Except AgentError Unit → Prop
  | .ok _ => place = .stored line
  | .error _ => place = .failed line

theorem append_follows (id : String) (line : LogLine) :
    (appendLog id line.stream line.data).Follows AgentOp.exec (appendNext id) (.reads line) (appendEnds line) := by
  intro agent
  refine ⟨.writes line (maxSequence agent.db id), if_pos rfl, ?_⟩
  intro later
  refine ⟨_, if_pos ⟨rfl, rfl, rfl, rfl⟩, ?_⟩
  simp only [AgentOp.exec]
  cases (later.db.run (.insertLog id (maxSequence agent.db id + 1) line.stream line.data)).1 with
  | ok changes => exact rfl
  | error error => exact rfl

abbrev LogPool : Type := Pool AgentOp AgentOp.Result AgentError Unit LogLine AgentState

def appendBody (id : String) (line : LogLine) : Agent Unit := appendLog id line.stream line.data

def AppendPlace.storedLine : AppendPlace → Option LogLine
  | .stored line => some line
  | _ => none

-- The task has its log numbered, reads are of some earlier length, and the lines are those of the
-- appends that are done.
structure LogKept (start : Database) (id : String) (agent : AgentState) (places : List AppendPlace) : Prop where
  owned : agent.db.tasks.find? id ≠ none
  counted : numbered agent.db id
  behind : ∀ (i : Nat) line last, places[i]? = some (AppendPlace.writes line last) → last ≤ (taskLog agent.db id).length
  lines : ((taskLog agent.db id).map lineOf).Perm ((taskLog start id).map lineOf ++ places.filterMap AppendPlace.storedLine)

section places

variable (places : List AppendPlace) (i : Nat) (place there : AppendPlace) (here : places[i]? = some place)
  (before : place.storedLine = none)

include here before

theorem stored_set : ((places.set i there).filterMap AppendPlace.storedLine).Perm
    (places.filterMap AppendPlace.storedLine ++ there.storedLine.toList) := by
  induction places generalizing i with
  | nil => cases here
  | cons first rest ih =>
      cases i with
      | zero =>
          cases here
          cases after : there.storedLine with
          | none => simp [before, after]
          | some line =>
              simp only [List.set_cons_zero, List.filterMap_cons, before, after, Option.toList_some]
              exact (List.perm_append_singleton line _).symm
      | succ i =>
          have later := ih i here
          simp only [List.set_cons_succ, List.filterMap_cons]
          cases first.storedLine with
          | none => exact later
          | some line => exact later.cons line

end places

section step

variable (start : Database) (id : String) (agent : AgentState) (places : List AppendPlace) (holds : LogKept start id agent places)
  (i : Nat) (line : LogLine)

include holds

theorem log_read (here : places[i]? = some (.reads line)) :
    LogKept start id agent (places.set i (.writes line (maxSequence agent.db id))) := by
  refine ⟨holds.owned, holds.counted, ?_, ?_⟩
  · intro j other last found
    rcases (located_set places i j _ _ _ here).mp found with ⟨_, same⟩ | ⟨_, old⟩
    · cases same
      exact Nat.le_of_eq (max_numbered agent.db id holds.counted)
    · exact holds.behind j other last old
  · have same := stored_set places i _ (.writes line (maxSequence agent.db id)) here rfl
    rw [show (AppendPlace.writes line (maxSequence agent.db id)).storedLine.toList = [] from rfl, List.append_nil] at same
    exact holds.lines.trans (same.symm.append_left _)

-- The number is the next one still: the line is stored.
theorem log_stored (here : places[i]? = some (.writes line (taskLog agent.db id).length)) :
    LogKept start id (AgentOp.exec (.run (.insertLog id ((taskLog agent.db id).length + 1) line.stream line.data)) agent).2
      (places.set i (.stored line)) := by
  obtain ⟨_, grown, tasks⟩ := append_stores agent.db id holds.counted holds.owned line
  refine ⟨?_, ?_, ?_, ?_⟩
  · simp only [AgentOp.exec, tasks]
    exact holds.owned
  · simp only [AgentOp.exec, numbered, grown, List.map_append, List.length_append, List.length_singleton,
      List.range'_concat]
    rw [show (taskLog agent.db id).map LogRow.sequence = _ from holds.counted]
    simp [Nat.add_comm]
  · intro j other last found
    simp only [AgentOp.exec, grown, List.length_append]
    rcases (located_set places i j _ _ _ here).mp found with ⟨_, same⟩ | ⟨_, old⟩
    · cases same
    · exact Nat.le_add_right_of_le (holds.behind j other last old)
  · simp only [AgentOp.exec, grown, List.map_append]
    refine (holds.lines.append_right _).trans ?_
    rw [List.append_assoc]
    exact (stored_set places i _ (.stored line) here rfl).symm.append_left _

-- Another append has taken the number: nothing is stored.
theorem log_collided (last : Nat) (here : places[i]? = some (.writes line last)) (behind : last < (taskLog agent.db id).length) :
    LogKept start id (AgentOp.exec (.run (.insertLog id (last + 1) line.stream line.data)) agent).2
      (places.set i (.failed line)) := by
  obtain ⟨error, collided⟩ := append_collides agent.db id holds.counted line last behind
  simp only [AgentOp.exec, collided]
  refine ⟨holds.owned, holds.counted, ?_, ?_⟩
  · intro j other read found
    rcases (located_set places i j _ _ _ here).mp found with ⟨_, same⟩ | ⟨_, old⟩
    · cases same
    · exact holds.behind j other read old
  · have same := stored_set places i _ (.failed line) here rfl
    rw [show (AppendPlace.failed line).storedLine.toList = [] from rfl, List.append_nil] at same
    exact holds.lines.trans (same.symm.append_left _)

theorem log_step (op : AgentOp) (place there : AppendPlace) (here : places[i]? = some place)
    (moved : appendNext id place op agent = some there) : LogKept start id (op.exec agent).2 (places.set i there) := by
  unfold appendNext at moved
  split at moved
  · split at moved
    · cases moved
      exact log_read start id agent places holds i _ here
    · cases moved
  · rename_i own last other sequence stream data
    split at moved
    · rename_i write
      obtain ⟨rfl, rfl, rfl, rfl⟩ := write
      rcases Nat.lt_or_eq_of_le (holds.behind i own last here) with behind | rfl
      · obtain ⟨error, collided⟩ := append_collides agent.db other holds.counted own last behind
        rw [collided] at moved
        cases moved
        exact log_collided start other agent places holds i own last here behind
      · rw [(append_stores agent.db other holds.counted holds.owned own).1] at moved
        cases moved
        exact log_stored start other agent places holds i own here
    · cases moved
  · cases moved

end step

-- The number a thread is about to store a line under.
def writtenSequence : Thread AgentOp AgentOp.Result AgentError Unit LogLine → Option Nat
  | ⟨_, .call (.run (.insertLog _ sequence _ _)) _⟩ => some sequence
  | _ => none

-- No line has been stored since the read of the append that is about to write.
def unracedAppend (id : String) (pool : LogPool) : PoolEvent LogLine → Prop
  | .step i => ∀ sequence ∈ pool.threads[i]?.bind writtenSequence, sequence = maxSequence pool.state.db id + 1
  | .start _ => True

instance (id : String) (pool : LogPool) : (event : PoolEvent LogLine) → Decidable (unracedAppend id pool event)
  | .step i => inferInstanceAs (Decidable (∀ sequence ∈ pool.threads[i]?.bind writtenSequence,
      sequence = maxSequence pool.state.db id + 1))
  | .start _ => .isTrue trivial

def failed (thread : Thread AgentOp AgentOp.Result AgentError Unit LogLine) : Prop := ∃ error, thread.rest = .fail error

def returnedLine (thread : Thread AgentOp AgentOp.Result AgentError Unit LogLine) : Option LogLine :=
  match thread.rest with
  | .ret _ => some thread.call
  | _ => none

section runs

variable (start : AgentState) (id : String)

def appendRun (events : List (PoolEvent LogLine)) : LogPool := Pool.run AgentOp.exec (appendBody id) ⟨start, []⟩ events

-- No append has failed, the numbers are 1 to n in order, and the lines are the old ones and those of
-- the appends that have returned, each once.
structure AppendsKept (pool : LogPool) : Prop where
  none_failed : ∀ thread ∈ pool.threads, ¬ failed thread
  sequences : numbered pool.state.db id
  lines : ((taskLog pool.state.db id).map lineOf).Perm
    ((taskLog start.db id).map lineOf ++ pool.threads.filterMap returnedLine)

def AppendPlace.hasFailed : AppendPlace → Bool
  | .failed _ => true
  | _ => false

abbrev AppendAligned (threads : List (Thread AgentOp AgentOp.Result AgentError Unit LogLine)) (places : List AppendPlace) : Prop :=
  Aligned AgentOp.exec (fun _ => appendNext id) appendEnds threads places

-- What a thread shows of its place.
theorem place_shown (thread : Thread AgentOp AgentOp.Result AgentError Unit LogLine) (place : AppendPlace) (agent : AgentState)
    (follows : thread.rest.Follows AgentOp.exec (appendNext id) place (appendEnds thread.call)) :
    returnedLine thread = place.storedLine ∧ (failed thread ↔ place.hasFailed = true) := by
  obtain ⟨line, rest⟩ := thread
  cases rest with
  | ret value =>
      have same : place = .stored line := follows
      subst same
      exact ⟨rfl, fun ⟨_, wrong⟩ => (by cases wrong), nofun⟩
  | fail error =>
      have same : place = .failed line := follows
      subst same
      exact ⟨rfl, fun _ => rfl, fun _ => ⟨error, rfl⟩⟩
  | call op rest =>
      obtain ⟨there, moved, _⟩ := follows agent
      cases place with
      | reads own => exact ⟨rfl, fun ⟨_, wrong⟩ => (by cases wrong), nofun⟩
      | writes own last => exact ⟨rfl, fun ⟨_, wrong⟩ => (by cases wrong), nofun⟩
      | stored own => cases moved
      | failed own => cases moved

theorem none_failed_iff (agent : AgentState) (threads : List (Thread AgentOp AgentOp.Result AgentError Unit LogLine))
    (places : List AppendPlace) (aligned : AppendAligned id threads places) :
    (∀ thread ∈ threads, ¬ failed thread) ↔ ∀ (i : Nat) place, places[i]? = some place → place.hasFailed = false := by
  refine ⟨?_, ?_⟩
  · intro alive i place found
    have bound := (List.getElem?_eq_some_iff.mp found).1
    have located := List.getElem?_eq_getElem (aligned.size ▸ bound)
    have shown := (place_shown id _ place agent (aligned.follows i _ place located found)).2
    have fine := alive _ (List.mem_of_getElem? located)
    rwa [shown, Bool.not_eq_true] at fine
  · intro fine thread member
    obtain ⟨i, located⟩ := List.mem_iff_getElem?.mp member
    obtain ⟨place, found, follows⟩ := aligned_place _ _ _ _ _ aligned i thread located
    rw [(place_shown id thread place agent follows).2, fine i place found]
    exact nofun

theorem returned_lines (agent : AgentState) (threads : List (Thread AgentOp AgentOp.Result AgentError Unit LogLine))
    (places : List AppendPlace) (aligned : AppendAligned id threads places) :
    threads.filterMap returnedLine = places.filterMap AppendPlace.storedLine := by
  have same : threads.map returnedLine = places.map AppendPlace.storedLine := by
    refine List.ext_getElem? fun i => ?_
    rw [List.getElem?_map, List.getElem?_map]
    cases found : threads[i]? with
    | none =>
        have absent : places[i]? = none := by
          rw [List.getElem?_eq_none_iff] at found ⊢
          exact aligned.size ▸ found
        rw [absent]
        rfl
    | some thread =>
        obtain ⟨place, located, follows⟩ := aligned_place _ _ _ _ _ aligned i thread found
        rw [located, Option.map_some, Option.map_some, (place_shown id thread place agent follows).1]
  calc threads.filterMap returnedLine = (threads.map returnedLine).filterMap (fun line => line) := by
        rw [List.filterMap_map]; rfl
    _ = (places.map AppendPlace.storedLine).filterMap (fun line => line) := by rw [same]
    _ = places.filterMap AppendPlace.storedLine := by rw [List.filterMap_map]; rfl

-- A step fails its append exactly when the append is raced.
theorem step_fails_iff (pool : LogPool) (places : List AppendPlace) (holds : LogKept start.db id pool.state places) (i : Nat)
    (line : LogLine) (op : AgentOp) (rest : Except AgentError op.Result → Agent Unit)
    (found : pool.threads[i]? = some ⟨line, .call op rest⟩) (place there : AppendPlace) (here : places[i]? = some place)
    (moved : appendNext id place op pool.state = some there) : there.hasFailed = false ↔ unracedAppend id pool (.step i) := by
  have pending : unracedAppend id pool (.step i) ↔
      ∀ sequence ∈ writtenSequence ⟨line, .call op rest⟩, sequence = maxSequence pool.state.db id + 1 := by
    rw [unracedAppend, found, Option.bind_some]
  rw [pending]
  unfold appendNext at moved
  split at moved
  · split at moved
    · cases moved
      exact ⟨fun _ => nofun, fun _ => rfl⟩
    · cases moved
  · rename_i own last other sequence stream data
    split at moved
    · rename_i write
      obtain ⟨rfl, rfl, rfl, rfl⟩ := write
      have size := max_numbered pool.state.db other holds.counted
      have named : (∀ sequence ∈ writtenSequence ⟨line, .call (.run (.insertLog other (last + 1) own.stream own.data)) rest⟩,
          sequence = maxSequence pool.state.db other + 1) ↔ last = (taskLog pool.state.db other).length := by
        simp [writtenSequence, size]
      rw [named]
      rcases Nat.lt_or_eq_of_le (holds.behind i own last here) with behind | rfl
      · obtain ⟨error, collided⟩ := append_collides pool.state.db other holds.counted own last behind
        rw [collided] at moved
        cases moved
        exact ⟨nofun, fun same => absurd same (Nat.ne_of_lt behind)⟩
      · rw [(append_stores pool.state.db other holds.counted holds.owned own).1] at moved
        cases moved
        exact ⟨fun _ => rfl, fun _ => rfl⟩
    · cases moved
  · cases moved

theorem unfailed_set (places : List AppendPlace) (i : Nat) (place there : AppendPlace) (here : places[i]? = some place)
    (alive : place.hasFailed = false) :
    (∀ (j : Nat) other, (places.set i there)[j]? = some other → other.hasFailed = false) ↔
      (∀ (j : Nat) other, places[j]? = some other → other.hasFailed = false) ∧ there.hasFailed = false := by
  refine ⟨?_, ?_⟩
  · intro fine
    refine ⟨?_, fine i there ((located_set places i i place there there here).mpr (Or.inl ⟨rfl, rfl⟩))⟩
    intro j other found
    by_cases same : j = i
    · subst same
      cases here.symm.trans found
      exact alive
    · exact fine j other ((located_set places i j place there other here).mpr (Or.inr ⟨same, found⟩))
  · intro ⟨fine, ends⟩ j other found
    rcases (located_set places i j place there other here).mp found with ⟨_, rfl⟩ | ⟨_, old⟩
    · exact ends
    · exact fine j other old

theorem append_run_cases (owned : start.db.tasks.find? id ≠ none) (counted : numbered start.db id)
    (events : List (PoolEvent LogLine)) :
    ∃ places, AppendAligned id (appendRun start id events).threads places ∧
      LogKept start.db id (appendRun start id events).state places ∧
      ((∀ (i : Nat) place, places[i]? = some place → place.hasFailed = false) ↔
        Pool.Guarded AgentOp.exec (appendBody id) (unracedAppend id) ⟨start, []⟩ events) := by
  induction events using List.reverseRecOn with
  | nil =>
      refine ⟨[], ⟨rfl, fun _ _ _ found => nomatch found⟩, ⟨owned, counted, ?_, ?_⟩, ?_⟩
      · exact fun _ _ _ found => nomatch found
      · rw [List.filterMap_nil, List.append_nil]
        exact List.Perm.refl _
      · exact ⟨fun _ => guarded_nil _ _ _ _, fun _ _ _ found => nomatch found⟩
  | append_singleton front last ih =>
      obtain ⟨places, aligned, holds, fine⟩ := ih
      rw [guarded_concat, ← fine, appendRun, run_append]
      cases last with
      | start line =>
          refine ⟨places ++ [.reads line], ?_, ⟨holds.owned, holds.counted, ?_, ?_⟩, ?_, ?_⟩
          · exact aligned_append _ _ _ _ _ aligned ⟨line, appendBody id line⟩ _ (append_follows id line)
          · intro i other read found
            rcases located_append places i _ _ found with same | old
            · cases same
            · exact holds.behind i other read old
          · rw [List.filterMap_append, show [AppendPlace.reads line].filterMap AppendPlace.storedLine = [] from rfl,
              List.append_nil]
            exact holds.lines
          · intro all
            refine ⟨fun i place found => all i place ?_, trivial⟩
            rwa [List.getElem?_append_left (List.getElem?_eq_some_iff.mp found).1]
          · intro ⟨all, _⟩ i place found
            rcases located_append places i _ _ found with rfl | old
            · rfl
            · exact all i place old
      | step i =>
          change ∃ places, AppendAligned id (Pool.advance AgentOp.exec (appendRun start id front) i).threads places ∧
            LogKept start.db id (Pool.advance AgentOp.exec (appendRun start id front) i).state places ∧ (_ ↔
              _ ∧ unracedAppend id (appendRun start id front) (.step i))
          by_cases pending : ∃ line op rest, (appendRun start id front).threads[i]? = some ⟨line, .call op rest⟩
          · obtain ⟨line, op, rest, found⟩ := pending
            obtain ⟨place, located, follows⟩ := aligned_place _ _ _ _ _ aligned i _ found
            obtain ⟨there, moved, later⟩ := follows (appendRun start id front).state
            have alive : place.hasFailed = false := by
              cases place with
              | failed own => cases moved
              | _ => rfl
            rw [advance_taken AgentOp.exec _ i line op rest found]
            refine ⟨places.set i there, ?_, log_step start.db id _ places holds i op place there located moved, ?_⟩
            · exact aligned_set _ _ _ _ _ aligned i ⟨line, rest (op.exec _).1⟩ there later
            · rw [unfailed_set places i place there located alive,
                step_fails_iff start id _ places holds i line op rest found place there located moved]
          · have idle : ∀ line op rest, (appendRun start id front).threads[i]? ≠ some ⟨line, .call op rest⟩ :=
              fun line op rest found => pending ⟨line, op, rest, found⟩
            rw [advance_lost AgentOp.exec _ i idle]
            refine ⟨places, aligned, holds, fun all => ⟨all, ?_⟩, And.left⟩
            intro sequence member
            cases found : (appendRun start id front).threads[i]? with
            | none =>
                rw [found] at member
                cases member
            | some thread =>
                rw [found] at member
                obtain ⟨line, rest⟩ := thread
                cases rest with
                | call op rest => exact absurd found (idle line op rest)
                | _ => cases member

-- Appends to one task all succeed, and number and keep their lines, exactly when none of them writes
-- after another has written since its own read.
theorem appends_kept_iff (owned : start.db.tasks.find? id ≠ none) (counted : numbered start.db id)
    (events : List (PoolEvent LogLine)) :
    AppendsKept start id (appendRun start id events) ↔
      Pool.Guarded AgentOp.exec (appendBody id) (unracedAppend id) ⟨start, []⟩ events := by
  obtain ⟨places, aligned, holds, fine⟩ := append_run_cases start id owned counted events
  rw [← fine, ← none_failed_iff id start _ places aligned]
  refine ⟨AppendsKept.none_failed, fun alive => ⟨alive, holds.counted, ?_⟩⟩
  rw [returned_lines id start _ places aligned]
  exact holds.lines

end runs

def queuedAgent : AgentState := AgentState.booting TaskQueue.queuedDb [] []

theorem appends_kept_two :
    let events : List (PoolEvent LogLine) :=
      [.start ⟨.system, "retry_of=first"⟩, .start ⟨.system, "exec: /bin/true"⟩, .step 0, .step 0, .step 1, .step 1]
    AppendsKept queuedAgent "task" (appendRun queuedAgent "task" events) := by
  intro events
  have stored : queuedAgent.db.tasks.find? "task" ≠ none := by
    rw [Option.ne_none_iff_isSome]
    decide
  refine (appends_kept_iff queuedAgent "task" stored (by decide) events).mpr ?_
  refine guarded_cons _ _ _ _ _ _ trivial <| guarded_cons _ _ _ _ _ _ trivial <| guarded_cons _ _ _ _ _ _ ?_ <|
    guarded_cons _ _ _ _ _ _ ?_ <| guarded_cons _ _ _ _ _ _ ?_ <| guarded_cons _ _ _ _ _ _ ?_ <| guarded_nil _ _ _ _
  all_goals decide

-- Both read 0; the second to write fails, and its line is lost.
theorem raced_append_fails :
    let events : List (PoolEvent LogLine) :=
      [.start ⟨.system, "retry_of=first"⟩, .start ⟨.system, "exec: /bin/true"⟩, .step 0, .step 1, .step 0, .step 1]
    let pool := appendRun queuedAgent "task" events
    pool.threads.map returnedLine = [some ⟨.system, "retry_of=first"⟩, none] ∧
      (pool.threads.map fun thread => match thread.rest with | .fail error => some error | _ => none) =
        [none, some (.store (.unique "task_logs.task_id, task_logs.sequence"))] ∧
      (taskLog pool.state.db "task").map LogRow.data = ["retry_of=first"] := by
  decide

end Vacps.TaskStore
