import Vacps.Agent.TaskRows

/- Runs of concurrent POST /tasks requests, and what their answers name. -/
set_option autoImplicit false

namespace Vacps.Server

open Library TaskStore

-- A request as the handler meets it; the schema admits no empty key.
structure PostRequest where
  ready : Bool
  parsed : Except String TaskDispatch
  now : Int
  keyed : ∀ task, parsed = .ok task → task.idempotency_key ≠ some ""

section create

variable (db : Database) (task : TaskDispatch) (now : Int)

abbrev afterCreate : Database := (db.transaction (createTaskSteps task .queued none now)).2

theorem create_keeps : keepsRows db (afterCreate db task now) := by
  refine transaction_keeps_rows db _ ?_
  intro step member
  unfold createTaskSteps at member
  split at member
  · rcases List.mem_pair.mp member with rfl | rfl <;> rfl
  · cases List.mem_singleton.mp member
    rfl

theorem insert_dispatched (fresh : db.tasks.find? task.task_id = none) :
    ∃ after, db.insertTask (newTask task .queued none now) = .ok (1, after) ∧ after.idempotency = db.idempotency ∧
      after.tasks.find? task.task_id = some (newTask task .queued none now) := by
  have absent : db.tasks.find? (newTask task .queued none now).id = none := fresh
  have free : db.tasks.taken (newTask task .queued none now).occurrence = false := rfl
  rw [Database.insertTask, dif_pos absent, dif_pos free]
  exact ⟨_, rfl, rfl, (find_inserted_task db.tasks _ absent free task.task_id).trans (if_pos rfl)⟩

theorem key_dispatched (key : String) (unmapped : db.idempotency.find? key = none)
    (owned : db.tasks.find? task.task_id ≠ none) :
    ∃ after, db.insertIdempotency ⟨key, task.task_id, now⟩ = .ok (1, after) ∧ after.tasks = db.tasks ∧
      ∀ other, after.idempotency.find? other =
        if key = other then some ⟨key, task.task_id, now⟩ else db.idempotency.find? other := by
  rw [Database.insertIdempotency, dif_pos unmapped, dif_pos owned]
  exact ⟨_, rfl, rfl, db.idempotency.find_insert ⟨key, task.task_id, now⟩ unmapped⟩

theorem create_unkeyed (unkeyed : task.idempotency_key = none) :
    (afterCreate db task now).tasks.find? task.task_id ≠ none ∧ (afterCreate db task now).idempotency = db.idempotency := by
  have steps : createTaskSteps task .queued none now = [⟨.insertTask task .queued none now, none⟩] := by
    simp [createTaskSteps, unkeyed, truthy]
  cases found : db.tasks.find? task.task_id with
  | none =>
      obtain ⟨after, inserted, idempotency, stored⟩ := insert_dispatched db task now found
      have ran : afterCreate db task now = after := by
        simp [afterCreate, steps, Database.transaction, runSteps, Statement.exec, unkeyed, found, inserted,
          checkExpectedChanges, Except.map]
      rw [ran, stored]
      exact ⟨(by simp), idempotency⟩
  | some row =>
      have ran : afterCreate db task now = db := by
        simp [afterCreate, steps, Database.transaction, runSteps, Statement.exec, found, checkExpectedChanges, Except.map]
      rw [ran, found]
      exact ⟨(by simp), rfl⟩

section keyed

variable (key : String) (keyed : task.idempotency_key = some key) (named : key ≠ "")

include keyed named

theorem keyed_steps : createTaskSteps task .queued none now =
    [⟨.insertTask task .queued none now, none⟩, ⟨.insertIdempotency key task.task_id now, none⟩] := by
  have kept : truthy (some key) = some key := by simp [truthy, Option.filter, named]
  rw [createTaskSteps, keyed, kept]

theorem create_mapped (row : IdempotencyRow) (mapped : db.idempotency.find? key = some row) : afterCreate db task now = db := by
  simp [afterCreate, keyed_steps task now key keyed named, Database.transaction, runSteps, Statement.exec, keyed, mapped,
    checkExpectedChanges, Except.map]

-- With the key free: the task is stored, and the key mapped to it where its row is of this very call.
theorem create_unmapped (unmapped : db.idempotency.find? key = none) :
    (afterCreate db task now).tasks.find? task.task_id ≠ none ∧
      ∀ other, (afterCreate db task now).idempotency.find? other =
        if key = other ∧ (db.tasks.find? task.task_id).all (fun row => row.createdAt = now) then
          some ⟨key, task.task_id, now⟩
        else db.idempotency.find? other := by
  have steps := keyed_steps task now key keyed named
  cases found : db.tasks.find? task.task_id with
  | none =>
      obtain ⟨middle, inserted, idempotency, stored⟩ := insert_dispatched db task now found
      obtain ⟨after, mapped, tasks, keys⟩ := key_dispatched middle task now key (idempotency ▸ unmapped) (by rw [stored]; simp)
      have made : (newTask task .queued none now).createdAt = now := rfl
      have ran : afterCreate db task now = after := by
        simp [afterCreate, steps, Database.transaction, runSteps, Statement.exec, keyed, unmapped, found, inserted, stored,
          idempotency, mapped, made, checkExpectedChanges, Except.map]
      rw [ran, tasks, stored]
      refine ⟨(by simp), fun other => (keys other).trans ?_⟩
      rw [idempotency, Option.all_none]
      simp only [and_true]
  | some row =>
      by_cases mine : row.createdAt = now
      · obtain ⟨after, mapped, tasks, keys⟩ := key_dispatched db task now key unmapped (by rw [found]; simp)
        have ran : afterCreate db task now = after := by
          simp [afterCreate, steps, Database.transaction, runSteps, Statement.exec, found, mine, unmapped, mapped,
            checkExpectedChanges, Except.map]
        rw [ran, tasks, found]
        refine ⟨(by simp), fun other => (keys other).trans ?_⟩
        simp only [Option.all_some, mine, decide_true, and_true]
      · have ran : afterCreate db task now = db := by
          simp [afterCreate, steps, Database.transaction, runSteps, Statement.exec, found, mine, checkExpectedChanges,
            Except.map]
        rw [ran, found]
        refine ⟨(by simp), fun other => ?_⟩
        rw [if_neg (by simp [mine])]

end keyed

end create

section requests

variable (backendId : String)

def PostRequest.body (request : PostRequest) : Agent TaskReply :=
  postTasks request.ready backendId request.parsed request.now

-- The task the handler dispatches, where it refuses nothing.
def PostRequest.task (request : PostRequest) : Option TaskDispatch :=
  (admitTask request.ready backendId request.parsed).toOption

theorem request_keyed (request : PostRequest) (task : TaskDispatch) (admitted : request.task backendId = some task) :
    task.idempotency_key ≠ some "" := by
  refine request.keyed task ?_
  unfold PostRequest.task admitTask at admitted
  split at admitted
  · cases admitted
  · split at admitted
    · cases admitted
    · split at admitted
      · cases admitted
      · split at admitted
        · cases admitted
        · cases admitted
          assumption

-- Where a request stands: before the look-up of its key, with a row of it found, before the
-- transaction, or with the id its answer names. A refused request goes nowhere.
inductive PostPlace where
  | looks (key : String) (id : String)
  | found (key : String) (id named : String)
  | creates (key : Option String) (id : String)
  | names (key : Option String) (named : String)
  | refused

def PostRequest.entry (request : PostRequest) : PostPlace :=
  match request.task backendId with
  | none => .refused
  | some task =>
      match task.idempotency_key with
      | none => .creates none task.task_id
      | some key => .looks key task.task_id

open Classical in
noncomputable def postNext (request : PostRequest) : PostPlace → AgentOp → AgentState → Option PostPlace
  | .looks key id, .selectIdempotencyKey other, agent =>
      if other = key then
        some (match agent.db.idempotency.find? key with | none => .creates (some key) id | some row => .found key id row.task_id)
      else none
  | .found key id named, .selectTask other, agent =>
      if other = named then
        some (match agent.db.tasks.find? named with | none => .creates (some key) id | some _ => .names (some key) named)
      else none
  | .creates key id, .transaction steps, _ =>
      if ∃ task, request.task backendId = some task ∧ task.task_id = id ∧ task.idempotency_key = key ∧
        steps = createTaskSteps task .queued none request.now
      then some (.names key id) else none
  | .names key named, .selectTask _, _ => some (.names key named)
  | _, _, _ => none

-- The place a request ends at has the id it answers, under its key.
def postEnds (request : PostRequest) (place : PostPlace) (result : Except AgentError TaskReply) : Prop :=
  ∀ reply, result = .ok (.accepted reply) → ∃ task, request.task backendId = some task ∧
    place = .names task.idempotency_key reply.task_id

theorem create_follows (request : PostRequest) (task : TaskDispatch) (admitted : request.task backendId = some task) :
    (createReply task request.now).Follows AgentOp.exec (postNext backendId request) (.creates task.idempotency_key task.task_id)
      (postEnds backendId request) := by
  intro agent
  refine ⟨.names task.idempotency_key task.task_id, if_pos ⟨task, admitted, rfl, rfl, rfl⟩, ?_⟩
  cases (AgentOp.exec (.transaction (createTaskSteps task .queued none request.now)) agent).1 with
  | error error => exact fun reply wrong => nomatch wrong
  | ok results =>
      intro later
      refine ⟨.names task.idempotency_key task.task_id, rfl, ?_⟩
      intro reply same
      cases same
      exact ⟨task, admitted, rfl⟩

theorem post_follows (request : PostRequest) :
    (request.body backendId).Follows AgentOp.exec (postNext backendId request) (request.entry backendId)
      (postEnds backendId request) := by
  unfold PostRequest.body postTasks PostRequest.entry
  cases admitted : admitTask request.ready backendId request.parsed with
  | error refusal =>
      rw [PostRequest.task, admitted]
      exact fun reply wrong => nomatch wrong
  | ok task =>
      have taken : request.task backendId = some task := by
        rw [PostRequest.task, admitted]
        rfl
      rw [taken]
      have create := create_follows backendId request task taken
      cases keyed : task.idempotency_key with
      | none =>
          rw [keyed] at create
          simp only [dispatchTask, keyed]
          exact create
      | some key =>
          have named : key ≠ "" := fun empty => request_keyed backendId request task taken (empty ▸ keyed)
          have kept : truthy (some key) = some key := by simp [truthy, Option.filter, named]
          rw [keyed] at create
          simp only [dispatchTask, keyed, kept]
          intro agent
          refine ⟨_, if_pos rfl, ?_⟩
          simp only [AgentOp.exec]
          cases agent.db.idempotency.find? key with
          | none => exact create
          | some row =>
              intro later
              refine ⟨_, if_pos rfl, ?_⟩
              simp only [AgentOp.exec]
              cases stored : later.db.tasks.find? row.task_id with
              | none => exact create
              | some prior =>
                  intro reply same
                  cases same
                  refine ⟨task, taken, ?_⟩
                  have priorId : prior.task.task_id = row.task_id := later.db.tasks.find_key row.task_id prior stored
                  rw [keyed, ← priorId]

abbrev PostThread : Type := Thread AgentOp AgentOp.Result AgentError TaskReply PostRequest

abbrev PostPool : Type := Pool AgentOp AgentOp.Result AgentError TaskReply PostRequest AgentState

-- The key and the id a request is sent with.
def sentWith : PoolEvent PostRequest → Option (String × String)
  | .start request => (request.task backendId).bind fun task => task.idempotency_key.map fun key => (key, task.task_id)
  | .step _ => none

section told

variable (events : List (PoolEvent PostRequest))

def sentOnlyWith (key id : String) : Prop := ∀ event ∈ events, ∀ sent ∈ sentWith backendId event, sent.1 = key → sent.2 = id

instance (key id : String) : Decidable (sentOnlyWith backendId events key id) :=
  inferInstanceAs (Decidable (∀ event ∈ events, ∀ sent ∈ sentWith backendId event, sent.1 = key → sent.2 = id))

-- Before the insert under a key: the key is mapped to this id; or it is free, and the id is too, or its
-- row was made at the same reading of the clock, or no request of the run sends another id under the key.
def settles (db : Database) (key id : String) (now : Int) : Prop :=
  match db.idempotency.find? key with
  | some row => row.task_id = id
  | none => (db.tasks.find? id).all (fun row => row.createdAt = now) = true ∨ sentOnlyWith backendId events key id

instance (db : Database) (key id : String) (now : Int) : Decidable (settles backendId events db key id now) := by
  unfold settles
  split <;> infer_instance

-- What the thread is about to insert, and under which key.
def keyedCreate : PostThread → Option (String × String × Int)
  | ⟨request, .call (.transaction _) _⟩ =>
      (request.task backendId).bind fun task => task.idempotency_key.map fun key => (key, task.task_id, request.now)
  | _ => none

def unracedDispatch (pool : PostPool) : PoolEvent PostRequest → Prop
  | .step i => ∀ create ∈ pool.threads[i]?.bind (keyedCreate backendId),
      settles backendId events pool.state.db create.1 create.2.1 create.2.2
  | .start _ => True

instance (pool : PostPool) : (event : PoolEvent PostRequest) → Decidable (unracedDispatch backendId events pool event)
  | .step i => inferInstanceAs (Decidable (∀ create ∈ pool.threads[i]?.bind (keyedCreate backendId),
      settles backendId events pool.state.db create.1 create.2.1 create.2.2))
  | .start _ => .isTrue trivial

def PostPlace.own : PostPlace → Option (String × String)
  | .looks key id => some (key, id)
  | .found key id _ => some (key, id)
  | .creates key id => key.map fun key => (key, id)
  | _ => none

-- What the answers name is stored, and is what their key is mapped to or all that is ever sent under it.
structure Told (agent : AgentState) (places : List PostPlace) : Prop where
  stored : ∀ (i : Nat) key named, places[i]? = some (PostPlace.names key named) → agent.db.tasks.find? named ≠ none
  found : ∀ (i : Nat) key id named, places[i]? = some (PostPlace.found key id named) →
    ∃ row, agent.db.idempotency.find? key = some row ∧ row.task_id = named
  mapped : ∀ (i : Nat) key named, places[i]? = some (PostPlace.names (some key) named) →
    ∀ row, agent.db.idempotency.find? key = some row → row.task_id = named
  unmapped : ∀ (i : Nat) key named, places[i]? = some (PostPlace.names (some key) named) →
    agent.db.idempotency.find? key = none → sentOnlyWith backendId events key named
  sent : ∀ (i : Nat) place key id, places[i]? = some place → place.own = some (key, id) →
    ∃ event ∈ events, sentWith backendId event = some (key, id)
  keyed : ∀ (i : Nat) key named, places[i]? = some (PostPlace.names (some key) named) →
    ∃ id, ∃ event ∈ events, sentWith backendId event = some (key, id)

variable (agent : AgentState) (places : List PostPlace) (holds : Told backendId events agent places)

include holds

-- A thread moves on without a write.
theorem told_moved (i : Nat) (place there : PostPlace) (here : places[i]? = some place)
    (stored : ∀ key named, there = .names key named → agent.db.tasks.find? named ≠ none)
    (found : ∀ key id named, there = .found key id named → ∃ row, agent.db.idempotency.find? key = some row ∧ row.task_id = named)
    (mapped : ∀ key named, there = .names (some key) named → ∀ row, agent.db.idempotency.find? key = some row → row.task_id = named)
    (unmapped : ∀ key named, there = .names (some key) named → agent.db.idempotency.find? key = none →
      sentOnlyWith backendId events key named)
    (sent : ∀ key id, there.own = some (key, id) → ∃ event ∈ events, sentWith backendId event = some (key, id))
    (keyed : ∀ key named, there = .names (some key) named → ∃ id, ∃ event ∈ events, sentWith backendId event = some (key, id)) :
    Told backendId events agent (places.set i there) := by
  have cases_ : ∀ (j : Nat) (p : PostPlace), (places.set i there)[j]? = some p → p = there ∨ places[j]? = some p := by
    intro j p located
    exact ((located_set places i j place there p here).mp located).elim (fun same => Or.inl same.2) fun old => Or.inr old.2
  refine ⟨?_, ?_, ?_, ?_, ?_, ?_⟩
  · intro j key named located
    rcases cases_ j _ located with same | old
    · exact stored key named same.symm
    · exact holds.stored j key named old
  · intro j key id named located
    rcases cases_ j _ located with same | old
    · exact found key id named same.symm
    · exact holds.found j key id named old
  · intro j key named located
    rcases cases_ j _ located with same | old
    · exact mapped key named same.symm
    · exact holds.mapped j key named old
  · intro j key named located
    rcases cases_ j _ located with same | old
    · exact unmapped key named same.symm
    · exact holds.unmapped j key named old
  · intro j p key id located own
    rcases cases_ j _ located with rfl | old
    · exact sent key id own
    · exact holds.sent j p key id old own
  · intro j key named located
    rcases cases_ j _ located with same | old
    · exact keyed key named same.symm
    · exact holds.keyed j key named old

-- The database grows: rows last, and a key that is mapped anew is mapped to an id sent under it.
theorem told_grown (after : AgentState) (rows : keepsRows agent.db after.db)
    (keys : ∀ key, after.db.idempotency.find? key = agent.db.idempotency.find? key ∨
      (agent.db.idempotency.find? key = none ∧ ∃ row, after.db.idempotency.find? key = some row ∧
        ∃ event ∈ events, sentWith backendId event = some (key, row.task_id))) : Told backendId events after places := by
  refine ⟨?_, ?_, ?_, ?_, holds.sent, holds.keyed⟩
  · intro i key named located
    obtain ⟨row, stored⟩ := Option.ne_none_iff_exists'.mp (holds.stored i key named located)
    rw [rows named row stored]
    exact nofun
  · intro i key id named located
    obtain ⟨row, mapped, same⟩ := holds.found i key id named located
    rcases keys key with kept | ⟨free, _⟩
    · exact ⟨row, kept.trans mapped, same⟩
    · rw [mapped] at free
      cases free
  · intro i key named located row mapped
    rcases keys key with kept | ⟨free, fresh, there, event, member, sent⟩
    · exact holds.mapped i key named located row (kept ▸ mapped)
    · cases mapped.symm.trans there
      exact holds.unmapped i key named located free event member _ sent rfl
  · intro i key named located free
    rcases keys key with kept | ⟨_, fresh, there, _⟩
    · exact holds.unmapped i key named located (kept ▸ free)
    · rw [there] at free
      cases free

theorem told_looked (i : Nat) (key id : String) (here : places[i]? = some (.looks key id)) :
    Told backendId events agent (places.set i
      (match agent.db.idempotency.find? key with | none => .creates (some key) id | some row => .found key id row.task_id)) := by
  have sent := holds.sent i _ key id here rfl
  cases mapped : agent.db.idempotency.find? key with
  | none =>
      refine told_moved backendId events agent places holds i _ _ here nofun nofun nofun nofun ?_ nofun
      intro other own same
      cases same
      exact sent
  | some row =>
      refine told_moved backendId events agent places holds i _ _ here nofun ?_ nofun nofun ?_ nofun
      · intro other own named same
        cases same
        exact ⟨row, mapped, rfl⟩
      · intro other own same
        cases same
        exact sent

theorem told_found (i : Nat) (key id named : String) (here : places[i]? = some (.found key id named)) :
    Told backendId events agent (places.set i
      (match agent.db.tasks.find? named with | none => .creates (some key) id | some _ => .names (some key) named)) := by
  have sent := holds.sent i _ key id here rfl
  obtain ⟨row, mapped, same⟩ := holds.found i key id named here
  cases stored : agent.db.tasks.find? named with
  | none =>
      refine told_moved backendId events agent places holds i _ _ here nofun nofun nofun nofun ?_ nofun
      intro other own again
      cases again
      exact sent
  | some task =>
      refine told_moved backendId events agent places holds i _ _ here ?_ nofun ?_ ?_ nofun ?_
      · intro other own again
        cases again
        rw [stored]
        exact nofun
      · intro other own again next found
        cases again
        cases mapped.symm.trans found
        exact same
      · intro other own again free
        cases again
        rw [mapped] at free
        cases free
      · intro other own again
        cases again
        exact ⟨id, sent⟩

theorem told_created (request : PostRequest) (task : TaskDispatch) (admitted : request.task backendId = some task) (i : Nat)
    (here : places[i]? = some (.creates task.idempotency_key task.task_id))
    (settled : ∀ key, task.idempotency_key = some key →
      settles backendId events agent.db key task.task_id request.now) :
    Told backendId events (AgentOp.exec (.transaction (createTaskSteps task .queued none request.now)) agent).2
      (places.set i (.names task.idempotency_key task.task_id)) := by
  have rows := create_keeps agent.db task request.now
  cases keyed : task.idempotency_key with
  | none =>
      obtain ⟨stored, idempotency⟩ := create_unkeyed agent.db task request.now keyed
      have grown := told_grown backendId events agent places holds
        (AgentOp.exec (.transaction (createTaskSteps task .queued none request.now)) agent).2 rows
        fun key => Or.inl (congrArg (fun table => Table.find? table key) idempotency)
      refine told_moved backendId events _ places grown i _ _ here ?_ nofun nofun nofun nofun nofun
      intro key named same
      cases same
      exact stored
  | some key =>
      have named : key ≠ "" := fun empty => request_keyed backendId request task admitted (empty ▸ keyed)
      rw [keyed] at here
      obtain ⟨event, member, sent⟩ := holds.sent i _ key task.task_id here rfl
      have settled := settled key keyed
      unfold settles at settled
      cases mapped : agent.db.idempotency.find? key with
      | some row =>
          rw [mapped] at settled
          simp only at settled
          have unchanged := create_mapped agent.db task request.now key keyed named row mapped
          simp only [AgentOp.exec, unchanged]
          refine told_moved backendId events _ places holds i _ _ here ?_ nofun ?_ ?_ nofun ?_
          · intro other own same
            cases same
            exact settled ▸ agent.db.keyed row (agent.db.idempotency.find_mem key row mapped)
          · intro other own same next found
            cases same
            cases mapped.symm.trans found
            exact settled
          · intro other own same free
            cases same
            rw [mapped] at free
            cases free
          · intro other own same
            cases same
            exact ⟨task.task_id, event, member, sent⟩
      | none =>
          rw [mapped] at settled
          simp only at settled
          obtain ⟨stored, keys⟩ := create_unmapped agent.db task request.now key keyed named mapped
          have grown := told_grown backendId events agent places holds
            (AgentOp.exec (.transaction (createTaskSteps task .queued none request.now)) agent).2 rows (by
              intro other
              by_cases fresh : key = other ∧ (agent.db.tasks.find? task.task_id).all (fun row => row.createdAt = request.now) = true
              · obtain ⟨rfl, mine⟩ := fresh
                exact Or.inr ⟨mapped, _, (keys key).trans (if_pos ⟨rfl, mine⟩), event, member, sent⟩
              · exact Or.inl ((keys other).trans (if_neg fresh)))
          refine told_moved backendId events _ places grown i _ _ here ?_ nofun ?_ ?_ nofun ?_
          · intro other own same
            cases same
            exact stored
          · intro other own same next found
            cases same
            have answer := (keys key).symm.trans found
            split at answer
            · cases answer
              rfl
            · rw [mapped] at answer
              cases answer
          · intro other own same free
            cases same
            have answer := (keys key).symm.trans free
            split at answer
            · cases answer
            · rename_i unmade
              exact settled.resolve_left fun mine => unmade ⟨rfl, mine⟩
          · intro other own same
            cases same
            exact ⟨task.task_id, event, member, sent⟩

theorem told_step (request : PostRequest) (op : AgentOp) (i : Nat) (place there : PostPlace) (here : places[i]? = some place)
    (moved : postNext backendId request place op agent = some there)
    (settled : ∀ task key steps, op = .transaction steps → request.task backendId = some task →
      task.idempotency_key = some key → settles backendId events agent.db key task.task_id request.now) :
    Told backendId events (op.exec agent).2 (places.set i there) := by
  unfold postNext at moved
  split at moved
  · split at moved
    · cases moved
      exact told_looked backendId events agent places holds i _ _ here
    · cases moved
  · split at moved
    · cases moved
      exact told_found backendId events agent places holds i _ _ _ here
    · cases moved
  · rename_i key id steps
    split at moved
    · rename_i made
      obtain ⟨task, admitted, rfl, rfl, rfl⟩ := made
      cases moved
      exact told_created backendId events agent places holds request task admitted i here
        fun key keyed => settled task key _ rfl admitted keyed
    · cases moved
  · cases moved
    rw [set_here places i _ here]
    exact holds
  · cases moved

end told

section runs

variable (start : AgentState)

def postRun (events : List (PoolEvent PostRequest)) : PostPool :=
  Pool.run AgentOp.exec (PostRequest.body backendId) ⟨start, []⟩ events

def carries (request : PostRequest) (key : String) : Prop :=
  ∃ task, request.task backendId = some task ∧ task.idempotency_key = some key

-- Every accepted answer names a stored task, and the answers under one key name one task.
structure Truthful (pool : PostPool) : Prop where
  stored : ∀ thread ∈ pool.threads, ∀ reply, thread.rest = .ret (.accepted reply) →
    pool.state.db.tasks.find? reply.task_id ≠ none
  agreed : ∀ a ∈ pool.threads, ∀ b ∈ pool.threads, ∀ key first second, carries backendId a.call key → carries backendId b.call key →
    a.rest = .ret (.accepted first) → b.rest = .ret (.accepted second) → first.task_id = second.task_id

theorem entry_own (request : PostRequest) (key id : String) (own : (request.entry backendId).own = some (key, id)) :
    sentWith backendId (.start request) = some (key, id) := by
  unfold PostRequest.entry at own
  rw [sentWith]
  cases admitted : request.task backendId with
  | none =>
      rw [admitted] at own
      cases own
  | some task =>
      rw [admitted] at own
      simp only at own
      rw [Option.bind_some]
      cases keyed : task.idempotency_key with
      | none =>
          rw [keyed] at own
          cases own
      | some sent =>
          rw [keyed] at own
          cases own
          rfl

theorem entry_unnamed (request : PostRequest) : (∀ key named, request.entry backendId ≠ .names key named) ∧
    ∀ key id named, request.entry backendId ≠ .found key id named := by
  unfold PostRequest.entry
  split
  · exact ⟨nofun, nofun⟩
  · split
    · exact ⟨nofun, nofun⟩
    · exact ⟨nofun, nofun⟩

theorem told_spawned (events : List (PoolEvent PostRequest)) (agent : AgentState) (places : List PostPlace)
    (holds : Told backendId events agent places) (request : PostRequest) (member : .start request ∈ events) :
    Told backendId events agent (places ++ [request.entry backendId]) := by
  obtain ⟨unnamed, unfound⟩ := entry_unnamed backendId request
  have names : ∀ (j : Nat) key named, (places ++ [request.entry backendId])[j]? = some (PostPlace.names key named) →
      places[j]? = some (PostPlace.names key named) := by
    intro j key named located
    exact (located_append places j _ _ located).resolve_left fun same => unnamed key named same.symm
  refine ⟨?_, ?_, ?_, ?_, ?_, ?_⟩
  · exact fun j key named located => holds.stored j key named (names j key named located)
  · intro j key id named located
    exact holds.found j key id named ((located_append places j _ _ located).resolve_left fun same => unfound key id named same.symm)
  · exact fun j key named located => holds.mapped j key named (names j (some key) named located)
  · exact fun j key named located => holds.unmapped j key named (names j (some key) named located)
  · intro j place key id located own
    rcases located_append places j _ _ located with rfl | old
    · exact ⟨_, member, entry_own backendId request key id own⟩
    · exact holds.sent j place key id old own
  · exact fun j key named located => holds.keyed j key named (names j (some key) named located)

theorem post_run_outlined (events sofar : List (PoolEvent PostRequest)) (within : ∀ event ∈ sofar, event ∈ events)
    (guarded : Pool.Guarded AgentOp.exec (PostRequest.body backendId) (unracedDispatch backendId events) ⟨start, []⟩ sofar) :
    Outlined AgentOp.exec (postNext backendId) (postEnds backendId) (Told backendId events) (postRun backendId start sofar) := by
  refine run_outline AgentOp.exec (postNext backendId) (PostRequest.body backendId) (PostRequest.entry backendId)
    (postEnds backendId) (post_follows backendId) (Told backendId events)
    (fun pool event => unracedDispatch backendId events pool event ∧ event ∈ events) start ?_ ?_ ?_ sofar ?_
  · have empty : ∀ (i : Nat) (place : PostPlace), ([] : List PostPlace)[i]? ≠ some place := nofun
    exact ⟨fun i _ _ located => absurd located (empty i _), fun i _ _ _ located => absurd located (empty i _),
      fun i _ _ located => absurd located (empty i _), fun i _ _ located => absurd located (empty i _),
      fun i _ _ _ located => absurd located (empty i _), fun i _ _ located => absurd located (empty i _)⟩
  · intro pool places request holds allowed
    exact told_spawned backendId events pool.state places holds request allowed.2
  · intro pool places i request op rest place there _ holds allowed found here moved
    refine told_step backendId events pool.state places holds request op i place there here moved ?_
    intro task key steps same admitted keyed
    subst same
    refine allowed.1 (key, task.task_id, request.now) ?_
    rw [found, Option.bind_some, keyedCreate, admitted, Option.bind_some, keyed]
    exact rfl
  · intro before event after split
    exact ⟨guarded before event after split, within event (by rw [split]; simp)⟩

-- In a run whose keyed inserts all settle their key, every state reached has told the truth.
theorem settled_answers_truthful (events : List (PoolEvent PostRequest))
    (guarded : Pool.Guarded AgentOp.exec (PostRequest.body backendId) (unracedDispatch backendId events) ⟨start, []⟩ events) :
    ∀ before after, events = before ++ after → Truthful backendId (postRun backendId start before) := by
  intro before after split
  obtain ⟨places, aligned, holds⟩ := post_run_outlined backendId start events before
    (fun event member => by rw [split]; exact List.mem_append_left after member)
    (fun front event rest same => guarded front event (rest ++ after) (by rw [split, same]; simp))
  have answered : ∀ thread ∈ (postRun backendId start before).threads, ∀ reply, thread.rest = .ret (.accepted reply) →
      ∃ (i : Nat) (task : TaskDispatch), thread.call.task backendId = some task ∧
        places[i]? = some (PostPlace.names task.idempotency_key reply.task_id) := by
    intro thread member reply ended
    obtain ⟨i, located⟩ := List.mem_iff_getElem?.mp member
    obtain ⟨place, here, follows⟩ := aligned_place _ _ _ _ _ aligned i thread located
    rw [ended] at follows
    obtain ⟨task, admitted, same⟩ := follows reply rfl
    exact ⟨i, task, admitted, same ▸ here⟩
  refine ⟨?_, ?_⟩
  · intro thread member reply ended
    obtain ⟨i, task, _, here⟩ := answered thread member reply ended
    exact holds.stored i _ _ here
  · intro a memberA b memberB key first second carriesA carriesB endedA endedB
    obtain ⟨i, taskA, admittedA, hereA⟩ := answered a memberA first endedA
    obtain ⟨j, taskB, admittedB, hereB⟩ := answered b memberB second endedB
    obtain ⟨_, sameA, keyedA⟩ := carriesA
    obtain ⟨_, sameB, keyedB⟩ := carriesB
    cases admittedA.symm.trans sameA
    cases admittedB.symm.trans sameB
    rw [keyedA] at hereA
    rw [keyedB] at hereB
    cases mapped : (postRun backendId start before).state.db.idempotency.find? key with
    | some row =>
        exact (holds.mapped i key _ hereA row mapped).symm.trans (holds.mapped j key _ hereB row mapped)
    | none =>
        obtain ⟨id, event, sentIn, sent⟩ := holds.keyed i key _ hereA
        have onlyA := holds.unmapped i key _ hereA mapped event sentIn (key, id) sent rfl
        have onlyB := holds.unmapped j key _ hereB mapped event sentIn (key, id) sent rfl
        exact onlyA.symm.trans onlyB

end runs

end requests

def keyedRequest (id : String) (now : Int) : PostRequest where
  ready := true
  parsed := .ok { TaskQueue.queuedTask with idempotency_key := some "key", task_id := id }
  now := now
  keyed := by
    intro task same
    cases same
    simp

def emptyAgent : AgentState := AgentState.booting Database.empty [] []

-- A second request under the key, sent after the first was answered, is answered with the first one's task.
theorem settled_answers_two :
    let events : List (PoolEvent PostRequest) :=
      [.start (keyedRequest "first" 1), .step 0, .step 0, .step 0, .start (keyedRequest "second" 2), .step 1, .step 1]
    Truthful "backend" (postRun "backend" emptyAgent events) := by
  intro events
  refine settled_answers_truthful "backend" emptyAgent events ?_ events [] (List.append_nil events).symm
  refine guarded_cons _ _ _ _ _ _ trivial <| guarded_cons _ _ _ _ _ _ ?_ <| guarded_cons _ _ _ _ _ _ ?_ <|
    guarded_cons _ _ _ _ _ _ ?_ <| guarded_cons _ _ _ _ _ _ trivial <| guarded_cons _ _ _ _ _ _ ?_ <|
    guarded_cons _ _ _ _ _ _ ?_ <| guarded_nil _ _ _ _
  all_goals decide

def answeredId (thread : PostThread) : Option String :=
  match thread.rest with
  | .ret (.accepted reply) => some reply.task_id
  | _ => none

-- Both look the key up before either inserts: the second answer names a task that is not stored.
theorem raced_dispatch_lies :
    let events : List (PoolEvent PostRequest) :=
      [.start (keyedRequest "first" 1), .start (keyedRequest "second" 2), .step 0, .step 1, .step 0, .step 1, .step 0, .step 1]
    let pool := postRun "backend" emptyAgent events
    pool.threads.map answeredId = [some "first", some "second"] ∧ pool.state.db.tasks.rows.map TaskRow.id = ["first"] := by
  decide

end Vacps.Server
