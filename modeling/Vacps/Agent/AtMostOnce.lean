import Vacps.Agent.TaskRows

/- Runs of the whole agent with crashes: what is handed to the executor, and how often. -/
set_option autoImplicit false

namespace Vacps

open Library TaskQueue

-- The task is stored and waits no longer.
def leftQueue (db : Database) (id : String) : Prop := ∃ row, db.tasks.find? id = some row ∧ row.status ≠ .queued

theorem keeps_rows_left (before after : Database) (id : String) (keeps : keepsRows before after)
    (left : leftQueue before id) : leftQueue after id := by
  obtain ⟨row, found, status⟩ := left
  exact ⟨row, keeps id row found, status⟩

theorem update_left (db : Database) (selects : TaskRow → Bool) (change : TaskRow → TaskState) (id : String)
    (leaves : ∀ row, row.status ≠ .queued → (change row).status ≠ .queued) (left : leftQueue db id) :
    leftQueue (db.updateTasks selects change).2 id := by
  obtain ⟨row, found, status⟩ := left
  have updated : (db.updateTasks selects change).2.tasks.find? id = _ := find_updated_task db.tasks selects change id
  rw [found, Option.map_some] at updated
  refine ⟨_, updated, ?_⟩
  split
  · exact leaves row status
  · exact status

theorem statement_left (db : Database) (statement : Statement) (id : String) (leaves : statement.leavesQueue = true)
    (left : leftQueue db id) : leftQueue (db.run statement).2 id := by
  by_cases adds : statement.addsOnly = true
  · exact keeps_rows_left db _ id (run_keeps_rows db statement adds) left
  · cases statement with
    | failInterrupted taskId now => exact update_left db _ _ id (fun _ _ same => nomatch same) left
    | setCancelRequested taskId now => exact update_left db _ _ id (fun _ waits => waits) left
    | writeTask taskId status result error startedAt finishedAt now =>
        exact update_left db _ _ id (fun _ _ => by simpa [Statement.leavesQueue] using leaves) left
    | _ => exact absurd rfl adds

theorem claim_left (db : Database) (now : Int) (id : String) (left : leftQueue db id) :
    leftQueue (claimOldest db now).2 id := by
  unfold claimOldest
  split
  · exact left
  · exact update_left db _ _ id (fun _ _ same => nomatch same) left

-- The row a claim takes was in the queue, not flagged, and is running now.
theorem claim_takes (db : Database) (now : Int) (row : TaskRow) (taken : (claimOldest db now).1 = some row) :
    row.status = .running ∧
      (∃ queued, db.tasks.find? row.id = some queued ∧ (queued.status = .queued ∧ queued.cancelRequested = false) ∧
        row.result = queued.result) ∧
      ∀ id, (claimOldest db now).2.tasks.find? id = if id = row.id then some row else db.tasks.find? id := by
  unfold claimOldest at taken ⊢
  cases chosen : oldestQueued db with
  | none =>
      rw [chosen] at taken
      cases taken
  | some queued =>
      rw [chosen] at taken
      simp only at taken ⊢
      cases taken
      have member := List.mem_insertionSort _ |>.mp (List.mem_of_head? chosen)
      obtain ⟨stored, waiting⟩ := List.mem_filter.mp member
      have found := db.tasks.find_of_mem queued stored
      simp only [Bool.and_eq_true, beq_iff_eq, Bool.not_eq_true'] at waiting
      refine ⟨rfl, ⟨queued, found, waiting, rfl⟩, ?_⟩
      intro id
      refine (find_updated_task db.tasks _ _ id).trans ?_
      by_cases same : id = queued.id
      · subst same
        rw [found]
        simp [waiting.1]
      · rw [task_with_id, if_neg same]
        cases other : db.tasks.find? id with
        | none => rfl
        | some row =>
            have rowId := db.tasks.find_key id row other
            rw [Option.map_some, if_neg (by simp [rowId, same])]

-- What the pump's own calls are about, as another call leaves it.
structure Undisturbed (before after : AgentState) : Prop where
  left : ∀ id, leftQueue before.db id → leftQueue after.db id
  pumpBusy : after.pumpBusy = before.pumpBusy
  executing : after.executing = before.executing
  handed : after.handed = before.handed

theorem ordinary_undisturbed (op : AgentOp) (agent : AgentState) (ordinary : op.ordinary = true) :
    Undisturbed agent (op.exec agent).2 := by
  by_cases passive : op.passive = true
  · have untouched := passive_untouched op agent passive
    exact ⟨fun id => keeps_rows_left _ _ id untouched.rows, untouched.pumpBusy, untouched.executing, untouched.handed⟩
  · cases op with
    | run statement =>
        exact ⟨fun id => statement_left agent.db statement id (Bool.and_eq_true_iff.mp ordinary).1, rfl, rfl, rfl⟩
    | transaction steps => exact absurd ordinary passive
    | selectTask id => exact ⟨fun _ left => left, rfl, rfl, rfl⟩
    | beginStop => exact ⟨fun _ left => left, rfl, rfl, rfl⟩
    | startProcess id => exact ⟨fun _ left => left, rfl, rfl, rfl⟩
    | setReady => exact ⟨fun _ left => left, rfl, rfl, rfl⟩
    | claimNextQueued now => cases ordinary
    | beginPump => cases ordinary
    | endPump => cases ordinary
    | enterExecutor id => cases ordinary
    | leaveExecutor id => cases ordinary
    | _ => exact absurd rfl passive

-- Where a pump stands: outside its lock, inside without a task, with one claimed, with one running,
-- and inside with its task done.
inductive PumpPlace where
  | idle
  | holding
  | claimed (id : String)
  | executing (id : String)
  | left

def PumpPlace.locked : PumpPlace → Bool
  | .idle => false
  | _ => true

def pumpNext : PumpPlace → AgentOp → AgentState → Option PumpPlace
  | .idle, .beginPump, agent => some (if agent.stopping || agent.pumpBusy then .idle else .holding)
  | .holding, .claimNextQueued now, agent =>
      some (match (claimOldest agent.db now).1 with | none => .holding | some row => .claimed row.id)
  | .claimed id, .enterExecutor other, _ => if other = id then some (.executing id) else none
  | .executing id, .leaveExecutor other, _ => if other = id then some .left else none
  | .holding, .endPump, _ => some .idle
  | .claimed _, .endPump, _ => some .idle
  | .left, .endPump, _ => some .idle
  | place, op, _ => if op.ordinary then some place else none

theorem ordinary_stays (place : PumpPlace) (op : AgentOp) (agent : AgentState) (ordinary : op.ordinary = true) :
    pumpNext place op agent = some place := by
  unfold pumpNext
  split
  all_goals first | cases ordinary | exact if_pos ordinary

theorem ordinary_follows {α : Type} (place : PumpPlace) (program : Agent α) (ordinary : Ordinary program) :
    program.Follows AgentOp.exec pumpNext place fun there _ => there = place :=
  follows_within _ AgentOp.exec pumpNext (fun there => there = place)
    (fun there op agent same here => ⟨there, ordinary_stays there op agent here, same⟩) program ordinary place rfl

-- A pump's body ends inside the lock with no task running.
def unlockable : PumpPlace → Prop
  | .holding => True
  | .claimed _ => True
  | .left => True
  | _ => False

theorem ordinary_then {α β : Type} (place : PumpPlace) (first : Agent α) (continue_ : α → Agent β) (final : PumpPlace → Prop)
    (ordinary : Ordinary first) (later : ∀ value, (continue_ value).Follows AgentOp.exec pumpNext place fun there _ => final there)
    (failure : final place) : (first >>= continue_).Follows AgentOp.exec pumpNext place fun there _ => final there := by
  refine follows_bind AgentOp.exec pumpNext place first continue_ _ _ (ordinary_follows place first ordinary) ?_ ?_
  · intro there value same
    exact same ▸ later value
  · intro there error same
    exact same ▸ failure

theorem handed_follows (claimed : StoredTask) (run : PumpRun) : (do
    let _ ← call (.enterExecutor claimed.task.task_id)
    Async.finally_ (ShellExecutor.execute claimed.task run.execution) (call (.leaveExecutor claimed.task.task_id))
    let _ ← TaskStore.getTask claimed.task.task_id
    pure true : Agent Bool).Follows AgentOp.exec pumpNext (.claimed claimed.task.task_id) fun there _ => unlockable there := by
  have executed : (Async.finally_ (ShellExecutor.execute claimed.task run.execution)
      (call (.leaveExecutor claimed.task.task_id))).Follows AgentOp.exec pumpNext (.executing claimed.task.task_id)
      fun there _ => there = .left := by
    refine follows_finally AgentOp.exec pumpNext _ _ _ _ _ (ordinary_follows _ _ (execute_ordinary claimed.task run.execution)) ?_
    intro there result same
    subst same
    intro later
    exact ⟨.left, if_pos rfl, rfl⟩
  refine follows_call AgentOp.exec pumpNext _ _ _ _ fun agent => ⟨.executing claimed.task.task_id, if_pos rfl, ?_, ?_⟩
  · intro _ _
    refine follows_bind AgentOp.exec pumpNext _ _ _ _ _ executed ?_ ?_
    · intro there value same
      subst same
      exact ordinary_then .left _ _ unlockable (get_task_ordinary _) (fun _ => trivial) trivial
    · intro there error same
      subst same
      exact trivial
  · intro error failed
    cases failed

theorem run_claimed_follows (claimed : StoredTask) (run : PumpRun) :
    (runClaimed claimed run).Follows AgentOp.exec pumpNext (.claimed claimed.task.task_id) fun there _ => unlockable there := by
  refine ordinary_then _ _ _ unlockable (ordinary_call _ rfl) (fun _ => ?_) trivial
  refine ordinary_then _ _ _ unlockable (ordinary_call _ rfl) (fun stopping => ?_) trivial
  cases stopping with
  | false => exact handed_follows claimed run
  | true =>
      exact ordinary_then _ _ _ unlockable (request_cancel_ordinary _ _ _ _) (fun _ => handed_follows claimed run) trivial

-- The place a claim leads to fits the task it answers.
def claimedAt (there : PumpPlace) : Except AgentError (Option StoredTask) → Prop
  | .ok none => there = .holding
  | .ok (some claimed) => there = .claimed claimed.task.task_id
  | .error _ => there = .holding

theorem claim_next_follows (now : Int) :
    (TaskStore.claimNextQueued now).Follows AgentOp.exec pumpNext .holding claimedAt := by
  refine follows_call AgentOp.exec pumpNext _ _ _ _ fun agent => ⟨_, rfl, ?_, ?_⟩
  · intro row answered
    cases answered
    cases (claimOldest agent.db now).1 <;> rfl
  · intro error failed
    cases failed

theorem pump_body_follows (run : PumpRun) :
    (pumpBody run).Follows AgentOp.exec pumpNext .holding fun there _ => unlockable there := by
  refine ordinary_then _ _ _ unlockable (ordinary_call _ rfl) (fun running => ?_) trivial
  cases running with
  | true => exact trivial
  | false =>
      refine ordinary_then _ _ _ unlockable (ordinary_call _ rfl) (fun stopping => ?_) trivial
      cases stopping with
      | true => exact trivial
      | false =>
          refine follows_bind AgentOp.exec pumpNext _ _ _ (fun there result => claimedAt there result) _ ?_ ?_ ?_
          · exact claim_next_follows run.claimedAt
          · intro there claimed ends
            cases claimed with
            | none =>
                subst ends
                exact trivial
            | some claimed =>
                subst ends
                exact run_claimed_follows claimed run
          · intro there error ends
            subst ends
            exact trivial

theorem pump_follows (run : PumpRun) :
    (pumpOnce run).Follows AgentOp.exec pumpNext .idle fun there _ => there = .idle := by
  refine follows_call AgentOp.exec pumpNext _ _ _ _ fun agent => ⟨_, rfl, ?_, ?_⟩
  · intro taken answered
    by_cases closed : (agent.stopping || agent.pumpBusy) = true
    · simp only [AgentOp.exec, closed, if_true] at answered ⊢
      cases answered
      exact rfl
    · simp only [AgentOp.exec, closed] at answered ⊢
      cases answered
      refine follows_finally AgentOp.exec pumpNext _ _ _ _ _ (pump_body_follows run) ?_
      intro there result ends later
      cases there with
      | idle => cases ends
      | executing id => cases ends
      | _ => exact ⟨.idle, rfl, rfl⟩
  · intro error failed
    by_cases closed : (agent.stopping || agent.pumpBusy) = true <;> simp [AgentOp.exec, closed] at failed

theorem boot_ordinary (now : Int) : Ordinary (bootAgent now) :=
  ordinary_bind _ _ (recover_ordinary now) fun _ => ordinary_bind _ _ (ordinary_call _ rfl) fun _ => trivial

theorem call_follows (call : AgentCall) :
    call.body.Follows AgentOp.exec pumpNext .idle fun there _ => there = .idle := by
  have discard : ∀ {α : Type} (program : Agent α), Ordinary program → Ordinary (program >>= fun _ => pure ()) :=
    fun program ordinary => ordinary_bind program _ ordinary fun _ => trivial
  cases call with
  | boot now => exact ordinary_follows _ _ (boot_ordinary now)
  | post backendId parsed now => exact ordinary_follows _ _ (discard _ (reading_program _ (post_reading true backendId parsed now)))
  | runScheduleNow scheduleId task taskId now =>
      exact ordinary_follows _ _ (discard _ (passive_program _ (run_now_passive scheduleId task taskId now)))
  | upsertScheduler platform input nowMs now =>
      exact ordinary_follows _ _ (passive_program _ (upsert_passive platform input nowMs now))
  | fireDueSchedulers platform nowMs now =>
      exact ordinary_follows _ _ (discard _ (passive_program _ (fire_passive platform nowMs now)))
  | cancel taskId flaggedAt finishedAt now =>
      exact ordinary_follows _ _ (discard _ (cancel_ordinary taskId flaggedAt finishedAt now))
  | retry taskId newId now => exact ordinary_follows _ _ (discard _ (reading_program _ (retry_reading taskId newId now)))
  | stop flaggedAt finishedAt now => exact ordinary_follows _ _ (stop_ordinary flaggedAt finishedAt now)
  | pumpOnce run =>
      refine follows_bind AgentOp.exec pumpNext _ _ _ _ _ (pump_follows run) ?_ ?_
      · intro there value same
        exact same
      · intro there error same
        exact same

-- Tasks are handed over once each and only out of the queue, by the pump that holds the lock.
structure HandedOnce (agent : AgentState) (places : List PumpPlace) : Prop where
  once : agent.handed.Nodup
  left : ∀ id ∈ agent.handed, leftQueue agent.db id
  claimed : ∀ (i : Nat) (id : String), places[i]? = some (PumpPlace.claimed id) → leftQueue agent.db id ∧ id ∉ agent.handed
  busy : ∀ (i : Nat) (p : PumpPlace), places[i]? = some p → p.locked = true → agent.pumpBusy = true
  alone : ∀ (i j : Nat) (p q : PumpPlace), places[i]? = some p → places[j]? = some q → p.locked = true → q.locked = true → i = j
  running : ∀ (i : Nat) (id : String), places[i]? = some (PumpPlace.executing id) → agent.executing = [id]
  resting : (∀ (i : Nat) (id : String), places[i]? ≠ some (PumpPlace.executing id)) → agent.executing = []

theorem handed_start (agent : AgentState) (places : List PumpPlace) (holds : HandedOnce agent places) :
    HandedOnce agent (places ++ [.idle]) := by
  have old : ∀ (i : Nat) (p : PumpPlace), (places ++ [PumpPlace.idle])[i]? = some p → p ≠ .idle → places[i]? = some p :=
    fun i p found active => (located_append places i .idle p found).resolve_left active
  have awake : ∀ p : PumpPlace, p.locked = true → p ≠ .idle := by
    intro p locked same
    subst same
    cases locked
  refine ⟨holds.once, holds.left, ?_, ?_, ?_, ?_, ?_⟩
  · exact fun i id found => holds.claimed i id (old i _ found (fun same => nomatch same))
  · exact fun i p found locked => holds.busy i p (old i p found (awake p locked)) locked
  · exact fun i j p q first second pl ql => holds.alone i j p q (old i p first (awake p pl)) (old j q second (awake q ql)) pl ql
  · exact fun i id found => holds.running i id (old i _ found (fun same => nomatch same))
  · intro none_
    refine holds.resting fun i id found => none_ i id ?_
    rw [List.getElem?_append_left (List.getElem?_eq_some_iff.mp found).1]
    exact found

theorem handed_undisturbed (before after : AgentState) (places : List PumpPlace) (holds : HandedOnce before places)
    (undisturbed : Undisturbed before after) : HandedOnce after places where
  once := undisturbed.handed ▸ holds.once
  left id member := undisturbed.left id (holds.left id (undisturbed.handed ▸ member))
  claimed i id found := ⟨undisturbed.left id (holds.claimed i id found).1, undisturbed.handed ▸ (holds.claimed i id found).2⟩
  busy i p found locked := undisturbed.pumpBusy.trans (holds.busy i p found locked)
  alone := holds.alone
  running i id found := undisturbed.executing.trans (holds.running i id found)
  resting none_ := undisturbed.executing.trans (holds.resting none_)

section steps

variable (agent : AgentState) (places : List PumpPlace) (i : Nat) (holds : HandedOnce agent places)

include holds

-- The thread that holds the lock is alone in its places.
theorem others_idle (place : PumpPlace) (here : places[i]? = some place) (locked : place.locked = true) (j : Nat)
    (other : PumpPlace) (different : j ≠ i) (found : places[j]? = some other) : other.locked = false := by
  by_contra held
  exact different (holds.alone j i other place found here (by simpa using held) locked)

theorem handed_begin (here : places[i]? = some .idle) (free : agent.pumpBusy = false) :
    HandedOnce { agent with pumpBusy := true } (places.set i .holding) := by
  have unlocked : ∀ (j : Nat) (p : PumpPlace), places[j]? = some p → p.locked = false := by
    intro j p found
    by_contra held
    rw [holds.busy j p found (by simpa using held)] at free
    cases free
  refine ⟨holds.once, holds.left, ?_, fun _ _ _ _ => rfl, ?_, ?_, ?_⟩
  · intro j id found
    rcases (located_set places i j .idle _ _ here).mp found with ⟨_, same⟩ | ⟨_, old⟩
    · cases same
    · exact holds.claimed j id old
  · intro j k p q first second pl ql
    rcases (located_set places i j .idle _ _ here).mp first with ⟨rfl, _⟩ | ⟨_, old⟩
    · rcases (located_set places j k .idle _ _ here).mp second with ⟨rfl, _⟩ | ⟨_, old⟩
      · rfl
      · rw [unlocked k q old] at ql
        cases ql
    · rw [unlocked j p old] at pl
      cases pl
  · intro j id found
    rcases (located_set places i j .idle _ _ here).mp found with ⟨_, same⟩ | ⟨_, old⟩
    · cases same
    · exact holds.running j id old
  · intro none_
    refine holds.resting fun j id found => none_ j id ?_
    rw [located_set places i j .idle _ _ here]
    refine Or.inr ⟨?_, found⟩
    rintro rfl
    rw [here] at found
    cases found

-- A step of the thread that holds the lock: only its own next place has anything to show.
theorem handed_locked (place there : PumpPlace) (after : AgentState) (here : places[i]? = some place)
    (locked : place.locked = true) (once : after.handed.Nodup) (left : ∀ id ∈ after.handed, leftQueue after.db id)
    (claimed : ∀ id, there = .claimed id → leftQueue after.db id ∧ id ∉ after.handed)
    (busy : there.locked = true → after.pumpBusy = true) (running : ∀ id, there = .executing id → after.executing = [id])
    (resting : (∀ id, there ≠ .executing id) → after.executing = []) : HandedOnce after (places.set i there) := by
  have idle := others_idle agent places i holds place here locked
  have only : ∀ (j : Nat) (p : PumpPlace), (places.set i there)[j]? = some p → p.locked = true → j = i ∧ p = there := by
    intro j p found held
    rcases (located_set places i j place there p here).mp found with mine | ⟨different, old⟩
    · exact mine
    · rw [idle j p different old] at held
      cases held
  have mine : (places.set i there)[i]? = some there := (located_set places i i place there there here).mpr (Or.inl ⟨rfl, rfl⟩)
  refine ⟨once, left, ?_, ?_, ?_, ?_, ?_⟩
  · intro j id found
    exact claimed id (only j _ found rfl).2.symm
  · intro j p found held
    exact busy ((only j p found held).2 ▸ held)
  · intro j k p q first second pl ql
    exact (only j p first pl).1.trans (only k q second ql).1.symm
  · intro j id found
    exact running id (only j _ found rfl).2.symm
  · intro none_
    refine resting fun id same => ?_
    subst same
    exact none_ i id mine

theorem handed_claim (now : Int) (here : places[i]? = some .holding) :
    HandedOnce (AgentOp.exec (.claimNextQueued now) agent).2
      (places.set i (match (claimOldest agent.db now).1 with | none => .holding | some row => .claimed row.id)) := by
  have kept : ∀ id ∈ agent.handed, leftQueue (claimOldest agent.db now).2 id :=
    fun id member => claim_left agent.db now id (holds.left id member)
  have quiet : agent.executing = [] := by
    refine holds.resting fun j id found => ?_
    have same := holds.alone i j _ _ here found rfl rfl
    subst same
    rw [here] at found
    cases found
  refine handed_locked agent places i holds .holding _ _ here rfl holds.once kept ?_ (fun _ => holds.busy i _ here rfl) ?_ ?_
  · intro id same
    cases chosen : (claimOldest agent.db now).1 with
    | none =>
        rw [chosen] at same
        cases same
    | some row =>
        rw [chosen] at same
        cases same
        obtain ⟨running, ⟨queued, found, ⟨waiting, _⟩, _⟩, after⟩ := claim_takes agent.db now row chosen
        refine ⟨⟨row, (after row.id).trans (if_pos rfl), ?_⟩, ?_⟩
        · rw [running]
          decide
        · intro member
          obtain ⟨stored, same, status⟩ := holds.left row.id member
          cases found.symm.trans same
          exact status waiting
  · intro id same
    cases chosen : (claimOldest agent.db now).1 <;> rw [chosen] at same <;> cases same
  · exact fun _ => quiet

theorem handed_enter (id : String) (here : places[i]? = some (.claimed id)) :
    HandedOnce (AgentOp.exec (.enterExecutor id) agent).2 (places.set i (.executing id)) := by
  obtain ⟨left, absent⟩ := holds.claimed i id here
  have quiet : agent.executing = [] := by
    refine holds.resting fun j other found => ?_
    have same := holds.alone i j _ _ here found rfl rfl
    subst same
    rw [here] at found
    cases found
  refine handed_locked agent places i holds (.claimed id) _ _ here rfl (List.nodup_cons.mpr ⟨absent, holds.once⟩) ?_
    (fun _ same => nomatch same) (fun _ => holds.busy i _ here rfl) ?_ (fun none_ => absurd rfl (none_ id))
  · intro other member
    rcases List.mem_cons.mp member with rfl | old
    · exact left
    · exact holds.left other old
  · intro other same
    cases same
    exact congrArg (List.cons id) quiet

theorem handed_leave (id : String) (here : places[i]? = some (.executing id)) :
    HandedOnce (AgentOp.exec (.leaveExecutor id) agent).2 (places.set i .left) := by
  have alone : agent.executing.erase id = [] := by
    rw [holds.running i id here]
    simp
  exact handed_locked agent places i holds (.executing id) _ _ here rfl holds.once holds.left (fun _ same => nomatch same)
    (fun _ => holds.busy i _ here rfl) (fun _ same => nomatch same) fun _ => alone

theorem handed_end (place : PumpPlace) (here : places[i]? = some place) (locked : place.locked = true)
    (done : ∀ id, place ≠ .executing id) : HandedOnce (AgentOp.exec .endPump agent).2 (places.set i .idle) := by
  have quiet : agent.executing = [] := by
    refine holds.resting fun j id found => ?_
    have same := holds.alone i j _ _ here found locked rfl
    subst same
    rw [here] at found
    exact done id (Option.some.inj found)
  exact handed_locked agent places i holds place _ _ here locked holds.once holds.left (fun _ same => nomatch same)
    (fun same => nomatch same) (fun _ same => nomatch same) fun _ => quiet

theorem handed_step (op : AgentOp) (place there : PumpPlace) (here : places[i]? = some place)
    (moved : pumpNext place op agent = some there) : HandedOnce (op.exec agent).2 (places.set i there) := by
  unfold pumpNext at moved
  split at moved
  · cases moved
    by_cases closed : (agent.stopping || agent.pumpBusy) = true
    · rw [if_pos closed, set_here places i .idle here, AgentOp.exec, if_pos closed]
      exact holds
    · rw [if_neg closed, AgentOp.exec, if_neg closed]
      refine handed_begin agent places i holds here ?_
      cases busy : agent.pumpBusy with
      | false => rfl
      | true => exact absurd (by rw [busy, Bool.or_true]) closed
  · cases moved
    exact handed_claim agent places i holds _ here
  · split at moved
    · cases moved
      rename_i same
      subst same
      exact handed_enter agent places i holds _ here
    · cases moved
  · split at moved
    · cases moved
      rename_i same
      subst same
      exact handed_leave agent places i holds _ here
    · cases moved
  · cases moved
    exact handed_end agent places i holds _ here rfl fun _ same => nomatch same
  · cases moved
    exact handed_end agent places i holds _ here rfl fun _ same => nomatch same
  · cases moved
    exact handed_end agent places i holds _ here rfl fun _ same => nomatch same
  · split at moved
    · cases moved
      rw [set_here places i place here]
      exact handed_undisturbed agent _ places holds (ordinary_undisturbed op agent ‹_›)
    · cases moved

end steps

theorem pump_call_left (op : AgentOp) (agent : AgentState) (place there : PumpPlace) (id : String)
    (moved : pumpNext place op agent = some there) (left : leftQueue agent.db id) : leftQueue (op.exec agent).2.db id := by
  unfold pumpNext at moved
  split at moved
  · rw [AgentOp.exec]
    split <;> exact left
  · exact claim_left agent.db _ id left
  · exact left
  · exact left
  · exact left
  · exact left
  · exact left
  · split at moved
    · exact (ordinary_undisturbed op agent ‹_›).left id left
    · cases moved

abbrev AgentPool : Type := Pool AgentOp AgentOp.Result AgentError Unit AgentCall AgentState

inductive AgentEvent where
  | start (call : AgentCall)
  | step (i : Nat)
  | crash (now : Int)

-- Nothing but the recovery runs before the agent is ready.
def AgentCall.admitted : AgentCall → AgentState → Bool
  | .boot _, _ => false
  | _, agent => agent.ready

def bootPool (db : Database) (handed started : List String) (now : Int) : AgentPool :=
  ⟨AgentState.booting db handed started, [⟨.boot now, (AgentCall.boot now).body⟩]⟩

-- A crash keeps the database and nothing else; the two histories are kept for the statements.
def agentPerform (pool : AgentPool) : AgentEvent → AgentPool
  | .start call => if call.admitted pool.state then pool.spawn AgentCall.body call else pool
  | .step i => pool.advance AgentOp.exec i
  | .crash now => bootPool pool.state.db pool.state.handed pool.state.started now

def agentRun (db : Database) (now : Int) (events : List AgentEvent) : AgentPool :=
  events.foldl agentPerform (bootPool db [] [] now)

def agentOutlined (pool : AgentPool) : Prop :=
  Outlined AgentOp.exec (fun _ => pumpNext) (fun _ there _ => there = .idle) HandedOnce pool

theorem boot_outlined (db : Database) (handed started : List String) (now : Int) (once : handed.Nodup)
    (left : ∀ id ∈ handed, leftQueue db id) : agentOutlined (bootPool db handed started now) := by
  have single : ∀ (i : Nat) (p : PumpPlace), [PumpPlace.idle][i]? = some p → p = .idle := by
    intro i p found
    exact List.mem_singleton.mp (List.mem_of_getElem? found)
  refine ⟨[.idle], ⟨rfl, ?_⟩, once, left, ?_, ?_, ?_, ?_, fun _ => rfl⟩
  · intro i thread place found located
    cases single i place located
    cases List.mem_singleton.mp (List.mem_of_getElem? found)
    exact call_follows (.boot now)
  · intro i id found
    cases single i _ found
  · intro i p found locked
    cases single i p found
    cases locked
  · intro i j p q first second pl ql
    cases single i p first
    cases pl
  · intro i id found
    cases single i _ found

theorem agent_step_outlined (pool : AgentPool) (event : AgentEvent) (here : agentOutlined pool) :
    agentOutlined (agentPerform pool event) := by
  cases event with
  | start call =>
      by_cases admitted : call.admitted pool.state = true
      · rw [agentPerform, if_pos admitted]
        exact outlined_start AgentOp.exec (fun _ => pumpNext) AgentCall.body (fun _ => .idle) _ call_follows HandedOnce pool call
          here (handed_start pool.state)
      · rwa [agentPerform, if_neg admitted]
  | step i =>
      refine outlined_step AgentOp.exec (fun _ => pumpNext) AgentCall.body _ HandedOnce pool i here ?_
      intro places call op rest place there _ holds _ located moved
      exact handed_step pool.state places i holds op place there located moved
  | crash now =>
      obtain ⟨_, _, holds⟩ := here
      exact boot_outlined _ _ _ now holds.once holds.left

theorem agent_step_left (pool : AgentPool) (event : AgentEvent) (here : agentOutlined pool) (id : String)
    (left : leftQueue pool.state.db id) : leftQueue (agentPerform pool event).state.db id := by
  cases event with
  | start call =>
      by_cases admitted : call.admitted pool.state = true
      · rw [agentPerform, if_pos admitted]
        exact left
      · rwa [agentPerform, if_neg admitted]
  | step i =>
      rcases advance_cases AgentOp.exec pool i with lost | ⟨call, op, rest, found, taken⟩
      · rwa [agentPerform, lost]
      · obtain ⟨places, aligned, _⟩ := here
        obtain ⟨place, _, follows⟩ := aligned_place _ _ _ _ _ aligned i _ found
        obtain ⟨there, moved, _⟩ := follows pool.state
        rw [agentPerform, taken]
        exact pump_call_left op pool.state place there id moved left
  | crash now => exact left

theorem executing_bound (agent : AgentState) (places : List PumpPlace) (holds : HandedOnce agent places) :
    agent.executing.length ≤ 1 := by
  by_cases some_ : ∃ (i : Nat) (id : String), places[i]? = some (PumpPlace.executing id)
  · obtain ⟨i, id, found⟩ := some_
    rw [holds.running i id found]
    exact Nat.le_refl 1
  · rw [holds.resting fun i id found => some_ ⟨i, id, found⟩]
    exact Nat.zero_le 1

theorem agent_run_outlined (db : Database) (now : Int) (events : List AgentEvent) : agentOutlined (agentRun db now events) := by
  induction events using List.reverseRecOn with
  | nil => exact boot_outlined db [] [] now List.nodup_nil fun _ member => nomatch member
  | append_singleton front last ih =>
      rw [agentRun, List.foldl_append]
      exact agent_step_outlined _ last ih

theorem agent_run_append (db : Database) (now : Int) (before after : List AgentEvent) :
    agentRun db now (before ++ after) = after.foldl agentPerform (agentRun db now before) := List.foldl_append

-- At most once, over every run with crashes: no id is handed over twice, one task runs at a time, and
-- what has left the queue stays out of it.
theorem handed_at_most_once (db : Database) (now : Int) (events : List AgentEvent) :
    (agentRun db now events).state.handed.Nodup ∧ (agentRun db now events).state.executing.length ≤ 1 ∧
      ∀ before after, events = before ++ after → ∀ id, leftQueue (agentRun db now before).state.db id →
        leftQueue (agentRun db now events).state.db id := by
  obtain ⟨places, _, holds⟩ := agent_run_outlined db now events
  refine ⟨holds.once, executing_bound _ places holds, ?_⟩
  intro before after split id left
  induction after generalizing before with
  | nil =>
      rw [List.append_nil] at split
      exact split ▸ left
  | cons event rest ih =>
      refine ih (before ++ [event]) (by rw [split]; simp) ?_
      rw [agent_run_append]
      exact agent_step_left _ event (agent_run_outlined db now before) id left

end Vacps
