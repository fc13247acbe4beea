import Vacps.ControlPlane.Inventory

/- Interleaved creates of one backend, idempotency key and arguments: where each call stands, who may
   still take the row back, and what the calls that were answered hold. -/
set_option autoImplicit false

namespace Vacps.ControlPlane

open Library

-- What is a call's own: the id it drew and its clock readings.
structure CreateCall where
  id : String
  now : Int
  syncedAt : Int

abbrev CreatePool : Type := Pool CpOp CpOp.Result AppError WrittenSchedule CreateCall Estate

-- The schedules the pool's finished calls were answered with.
def answerOf (thread : Thread CpOp CpOp.Result AppError WrittenSchedule CreateCall) : Option String :=
  match thread.rest with
  | .ret written => some written.schedule.id
  | _ => none

def answers (pool : CreatePool) : List String := pool.threads.filterMap answerOf

-- A roll-back deletes no schedule another call was answered with.
def sparesAnswers (pool : CreatePool) (event : PoolEvent CreateCall) : Prop :=
  ∀ i call id rest, event = .step i → pool.threads[i]? = some ⟨call, .call (.deleteSchedule id) rest⟩ → id ∉ answers pool

section places

variable (platform : Platform) (hashes : ScheduleHashes) (input : CreateScheduleInput) (key : String)

def CreateCall.body (call : CreateCall) : Service WrittenSchedule :=
  create platform hashes input call.id call.now call.syncedAt

-- The row D1 holds under the key.
def keyedRow (cp : CpState) : Option ScheduleRow :=
  cp.schedules.rows.find? fun row => row.backend_id == input.backend_id && row.idempotency_key == some key

-- Before the INSERT, after a lost one, with the row it inserted, about to take it back, and the two ends.
inductive CreatePlace where
  | looking
  | inserting
  | racing
  | owning (id : String)
  | syncing (id : String)
  | undoing (id : String)
  | answered (id : String)
  | refused
deriving DecidableEq

def CreatePlace.owned : CreatePlace → Option String
  | .owning id => some id
  | .syncing id => some id
  | .undoing id => some id
  | _ => none

-- The schedule a place answers for.
def CreatePlace.holds : CreatePlace → Option String
  | .answered id => some id
  | place => place.owned

def conflicting (row : ScheduleRow) : Bool := (toSchedule row).requestHash.any (· != hashes.create input)

def reusedPlace (row : ScheduleRow) : CreatePlace :=
  if conflicting hashes input row then .refused else .answered row.id

def createNext (call : CreateCall) : CreatePlace → CpOp → Estate → Option CreatePlace
  | .looking, .selectByIdempotency backendId other, estate =>
      if backendId = input.backend_id ∧ other = key then
        some (match keyedRow input key estate.cp with | some row => reusedPlace hashes input row | none => .inserting)
      else none
  | .inserting, .insertSchedule row, estate =>
      if row.id = call.id ∧ row.backend_id = input.backend_id ∧ row.idempotency_key = some key then
        some (match (CpOp.exec (.insertSchedule row) estate.cp).1 with | .ok _ => .owning call.id | .error _ => .racing)
      else none
  | .racing, .selectByIdempotency backendId other, estate =>
      if backendId = input.backend_id ∧ other = key then
        some (match keyedRow input key estate.cp with | some row => reusedPlace hashes input row | none => .refused)
      else none
  | .owning id, .selectSchedule _, estate => some (if (estate.cp.schedules.find? id).isSome then .syncing id else .refused)
  | .syncing id, .upsertScheduler _ _, estate => some (if estate.next.fate = .answered then .answered id else .undoing id)
  | .undoing id, .deleteSchedule other, _ => if other = id then some .refused else none
  | _, _, _ => none

-- Where a finished call stands.
def CreatePlace.ends (place : CreatePlace) : Except AppError WrittenSchedule → Prop
  | .ok written => place = .answered written.schedule.id
  | .error _ => place = .refused

theorem reuse_follows (call : CreateCall) (row : ScheduleRow) :
    (reuse (toSchedule row) (hashes.create input)).Follows (Estate.exec platform) (createNext hashes input key call)
      (reusedPlace hashes input row) CreatePlace.ends := by
  rw [reuse, reusedPlace, conflicting]
  split <;> rfl

theorem owner_follows (call : CreateCall) (id : String) (syncedAt : Int) :
    (do
      let schedule ← get id
      let synced ← Async.attempt (sync platform schedule syncedAt)
      match synced with
      | .ok _ => pure ⟨schedule, false, hashes.create input⟩
      | .error error =>
          let _ ← ControlPlane.call (.deleteSchedule id)
          .fail error : Service WrittenSchedule).Follows (Estate.exec platform) (createNext hashes input key call) (.owning id)
        CreatePlace.ends := by
  intro estate
  refine ⟨_, rfl, ?_⟩
  cases found : estate.cp.schedules.find? id with
  | none =>
      simp only [Estate.exec, CpOp.exec, found]
      exact rfl
  | some row =>
      have rowId : row.id = id := estate.cp.schedules.find_key id row found
      simp only [Estate.exec, CpOp.exec, found]
      intro later
      refine ⟨_, rfl, ?_⟩
      rw [upsert_answered]
      by_cases answered : later.next.fate = .answered
      · simp only [if_pos answered]
        exact congrArg CreatePlace.answered rowId.symm
      · simp only [if_neg answered]
        intro last
        exact ⟨.refused, if_pos rfl, rfl⟩

theorem lookup_shape (given : truthy input.idempotency_key = some key) :
    findByIdempotency input.backend_id input.idempotency_key =
      (do
        let row ← ControlPlane.call (.selectByIdempotency input.backend_id key)
        pure (row.map toSchedule)) := by
  rw [findByIdempotency, given]

theorem key_given (given : truthy input.idempotency_key = some key) : input.idempotency_key = some key := by
  rw [truthy, Option.filter_eq_some_iff] at given
  exact given.1

theorem create_places (call : CreateCall) (given : truthy input.idempotency_key = some key) :
    (call.body platform hashes input).Follows (Estate.exec platform) (createNext hashes input key call) .looking
      CreatePlace.ends := by
  have looked : ∀ estate, (Estate.exec platform (.selectByIdempotency input.backend_id key) estate).1 =
      .ok (keyedRow input key estate.cp) := fun _ => rfl
  rw [CreateCall.body, create, lookup_shape input key given]
  intro estate
  refine ⟨_, if_pos ⟨rfl, rfl⟩, ?_⟩
  rw [looked]
  cases keyedRow input key estate.cp with
  | some row => exact reuse_follows platform hashes input key call row
  | none =>
      intro later
      refine ⟨_, if_pos ⟨rfl, rfl, key_given input key given⟩, ?_⟩
      have same : (Estate.exec platform (.insertSchedule (createdRow platform input call.id (hashes.create input) call.now))
          later).1 = (CpOp.exec (.insertSchedule (createdRow platform input call.id (hashes.create input) call.now)) later.cp).1 :=
        rfl
      rw [same]
      cases (CpOp.exec (.insertSchedule (createdRow platform input call.id (hashes.create input) call.now)) later.cp).1 with
      | ok value => exact owner_follows platform hashes input key call call.id call.syncedAt
      | error error =>
          intro last
          refine ⟨_, if_pos ⟨rfl, rfl⟩, ?_⟩
          rw [looked]
          cases keyedRow input key last.cp with
          | some row => exact reuse_follows platform hashes input key call row
          | none => exact rfl

end places

section races

variable (platform : Platform) (hashes : ScheduleHashes) (input : CreateScheduleInput) (key : String)

-- Every place that holds a schedule holds the row under the key, and one place at most may take it back.
structure OneKeyed (estate : Estate) (places : List CreatePlace) : Prop where
  held : ∀ place ∈ places, ∀ id, place.holds = some id → (keyedRow input key estate.cp).map ScheduleRow.id = some id
  owner : ∀ (i j : Nat) (first second : CreatePlace), places[i]? = some first → places[j]? = some second →
    first.owned.isSome → second.owned.isSome → i = j

theorem keyed_stored (cp : CpState) (id : String) (held : (keyedRow input key cp).map ScheduleRow.id = some id) :
    (cp.schedules.find? id).isSome = true := by
  obtain ⟨row, found, named⟩ := Option.map_eq_some_iff.mp held
  have member := List.mem_of_find?_eq_some found
  rw [← named, cp.schedules.find_of_mem row member]
  rfl

-- A step that leaves the row under the key, and moves its thread to a place that holds no more than before.
theorem keyed_moved (estate after : Estate) (places : List CreatePlace) (i : Nat) (place there : CreatePlace)
    (ready : OneKeyed input key estate places) (located : places[i]? = some place)
    (same : keyedRow input key after.cp = keyedRow input key estate.cp)
    (held : ∀ id, there.holds = some id → (keyedRow input key estate.cp).map ScheduleRow.id = some id)
    (owned : there.owned.isSome → place.owned.isSome) : OneKeyed input key after (places.set i there) where
  held := by
    intro other member id holds
    rw [same]
    obtain ⟨j, found⟩ := List.getElem?_of_mem member
    rcases (located_set places i j place there other located).mp found with ⟨_, rfl⟩ | ⟨_, before⟩
    · exact held id holds
    · exact ready.held other (List.mem_of_getElem? before) id holds
  owner := by
    intro j k first second here there_ mine yours
    rcases (located_set places i j place there first located).mp here with ⟨rfl, rfl⟩ | ⟨_, before⟩
    · rcases (located_set places j k place first second located).mp there_ with ⟨rfl, rfl⟩ | ⟨_, later⟩
      · rfl
      · exact ready.owner j k place second located later (owned mine) yours
    · rcases (located_set places i k place there second located).mp there_ with ⟨rfl, rfl⟩ | ⟨_, later⟩
      · exact ready.owner j k first place before located mine (owned yours)
      · exact ready.owner j k first second before later mine yours

-- Steps come in three kinds: those that leave the row under the key, the INSERT, and the roll-back.
theorem create_next_cases (call : CreateCall) (place there : CreatePlace) (op : CpOp) (estate : Estate)
    (moved : createNext hashes input key call place op estate = some there) :
    (keyedRow input key (Estate.exec platform op estate).2.cp = keyedRow input key estate.cp ∧
        (∀ id, there.holds = some id → place.holds = some id ∨ (keyedRow input key estate.cp).map ScheduleRow.id = some id) ∧
        (there.owned.isSome → place.owned.isSome)) ∨
      (∃ row, place = .inserting ∧ op = .insertSchedule row ∧ row.id = call.id ∧ row.backend_id = input.backend_id ∧
        row.idempotency_key = some key ∧
        there = match (CpOp.exec (.insertSchedule row) estate.cp).1 with | .ok _ => .owning call.id | .error _ => .racing) ∨
      ∃ id, place = .undoing id ∧ op = .deleteSchedule id ∧ there = .refused := by
  have answered : ∀ row, keyedRow input key estate.cp = some row → ∀ id, (reusedPlace hashes input row).holds = some id →
      (keyedRow input key estate.cp).map ScheduleRow.id = some id := by
    intro row found id holds
    rw [reusedPlace] at holds
    split at holds
    · cases holds
    · rw [found]
      exact holds
  have unowned : ∀ row, (reusedPlace hashes input row).owned = none := by
    intro row
    rw [reusedPlace]
    split <;> rfl
  unfold createNext at moved
  split at moved
  case h_1 | h_3 =>
    split at moved
    · refine Or.inl ⟨rfl, ?_⟩
      cases found : keyedRow input key estate.cp with
      | none =>
          rw [found] at moved
          cases moved
          exact ⟨(fun id holds => by cases holds), (fun owned => by cases owned)⟩
      | some row =>
          rw [found] at moved
          cases moved
          refine ⟨fun id holds => Or.inr (found ▸ answered row found id holds), ?_⟩
          rw [unowned row]
          exact fun owned => by cases owned
    · cases moved
  case h_2 =>
    split at moved
    · rename_i named
      cases moved
      exact Or.inr (Or.inl ⟨_, rfl, rfl, named.1, named.2.1, named.2.2, rfl⟩)
    · cases moved
  case h_4 =>
    cases moved
    refine Or.inl ⟨rfl, ?_⟩
    split
    · exact ⟨fun id holds => Or.inl holds, fun _ => rfl⟩
    · exact ⟨(fun id holds => by cases holds), fun _ => rfl⟩
  case h_5 =>
    cases moved
    refine Or.inl ⟨by rw [(upsert_exec platform estate _ _).1], ?_⟩
    split
    · exact ⟨fun id holds => Or.inl holds, fun _ => rfl⟩
    · exact ⟨fun id holds => Or.inl holds, fun _ => rfl⟩
  case h_6 =>
    split at moved
    · rename_i same
      cases moved
      exact Or.inr (Or.inr ⟨_, rfl, by rw [same], rfl⟩)
    · cases moved
  case h_7 => cases moved

-- With no row under the key no place holds a schedule.
theorem none_held (estate : Estate) (places : List CreatePlace) (ready : OneKeyed input key estate places)
    (absent : keyedRow input key estate.cp = none) (place : CreatePlace) (member : place ∈ places) : place.holds = none := by
  cases holds : place.holds with
  | none => rfl
  | some id =>
      have held := ready.held place member id holds
      rw [absent] at held
      cases held

theorem owned_held (place : CreatePlace) (id : String) (owned : place.owned = some id) : place.holds = some id := by
  cases place with
  | answered other => cases owned
  | _ => exact owned

-- A step to a place at the i-th thread when no other place holds a schedule.
theorem alone_keyed (after : Estate) (places : List CreatePlace) (i : Nat) (place there : CreatePlace)
    (located : places[i]? = some place)
    (alone : ∀ j other, j ≠ i → places[j]? = some other → other.holds = none)
    (held : ∀ id, there.holds = some id → (keyedRow input key after.cp).map ScheduleRow.id = some id) :
    OneKeyed input key after (places.set i there) where
  held := by
    intro other member id holds
    obtain ⟨j, found⟩ := List.getElem?_of_mem member
    rcases (located_set places i j place there other located).mp found with ⟨_, rfl⟩ | ⟨different, before⟩
    · exact held id holds
    · rw [alone j other different before] at holds
      cases holds
  owner := by
    have own : ∀ (j : Nat) (other : CreatePlace), (places.set i there)[j]? = some other → other.owned.isSome → j = i := by
      intro j other found owned
      rcases (located_set places i j place there other located).mp found with ⟨here, _⟩ | ⟨different, before⟩
      · exact here
      · obtain ⟨id, present⟩ := Option.isSome_iff_exists.mp owned
        have none_there := alone j other different before
        rw [owned_held other id present] at none_there
        cases none_there
    intro j k first second here there_ mine yours
    rw [own j first here mine, own k second there_ yours]

theorem key_taken_iff (cp : CpState) (row : ScheduleRow) (backend : row.backend_id = input.backend_id)
    (named : row.idempotency_key = some key) : cp.keyTaken row = (keyedRow input key cp).isSome := by
  rw [CpState.keyTaken, named, Option.any_some, backend, keyedRow, Bool.eq_iff_iff, List.any_eq_true, List.find?_isSome]

theorem insert_keyed (cp : CpState) (row : ScheduleRow) (backend : row.backend_id = input.backend_id)
    (named : row.idempotency_key = some key) :
    ((CpOp.exec (.insertSchedule row) cp).1 = .error constraintFailed ∧ (CpOp.exec (.insertSchedule row) cp).2 = cp) ∨
      ((CpOp.exec (.insertSchedule row) cp).1 = .ok () ∧ keyedRow input key cp = none ∧
        keyedRow input key (CpOp.exec (.insertSchedule row) cp).2 = some row) := by
  simp only [CpOp.exec]
  by_cases fresh : cp.schedules.find? row.id = none
  · rw [dif_pos fresh]
    cases taken : cp.keyTaken row with
    | true => exact Or.inl ⟨rfl, rfl⟩
    | false =>
        rw [key_taken_iff input key cp row backend named, Option.isSome_eq_false_iff, Option.isNone_iff_eq_none] at taken
        refine Or.inr ⟨rfl, taken, ?_⟩
        have before : cp.schedules.rows.find? (fun row => row.backend_id == input.backend_id && row.idempotency_key == some key) =
          none := taken
        simp [keyedRow, Table.insert, List.find?_append, before, backend, named]
  · rw [dif_neg fresh]
    exact Or.inl ⟨rfl, rfl⟩

theorem one_keyed_step (call : CreateCall) (place there : CreatePlace) (op : CpOp) (estate : Estate) (places : List CreatePlace)
    (i : Nat) (ready : OneKeyed input key estate places) (located : places[i]? = some place)
    (moved : createNext hashes input key call place op estate = some there)
    (spared : ∀ id, op = .deleteSchedule id → .answered id ∉ places) :
    OneKeyed input key (Estate.exec platform op estate).2 (places.set i there) := by
  rcases create_next_cases platform hashes input key call place there op estate moved with
    ⟨same, held, owned⟩ | ⟨row, rfl, rfl, named, backend, keyed, rfl⟩ | ⟨id, rfl, rfl, rfl⟩
  · refine keyed_moved input key estate _ places i place there ready located same ?_ owned
    intro id holds
    rcases held id holds with before | here
    · exact ready.held place (List.mem_of_getElem? located) id before
    · exact here
  · rcases insert_keyed input key estate.cp row backend keyed with ⟨failed, same⟩ | ⟨inserted, absent, stored⟩
    · rw [failed]
      refine keyed_moved input key estate _ places i .inserting .racing ready located ?_ (fun id holds => nomatch holds)
        fun owned => nomatch owned
      exact congrArg (keyedRow input key) same
    · rw [inserted]
      refine alone_keyed input key _ places i .inserting (.owning call.id) located ?_ ?_
      · intro j other _ found
        exact none_held input key estate places ready absent other (List.mem_of_getElem? found)
      · intro id holds
        cases holds
        have after : keyedRow input key (Estate.exec platform (.insertSchedule row) estate).2.cp = some row := stored
        rw [after, Option.map_some, named]
  · refine alone_keyed input key _ places i (.undoing id) .refused located ?_ fun other holds => nomatch holds
    have mine := ready.held (.undoing id) (List.mem_of_getElem? located) id rfl
    intro j other different found
    cases holds : other.holds with
    | none => rfl
    | some held =>
        have same := (ready.held other (List.mem_of_getElem? found) held holds).symm.trans mine
        cases owned : other.owned with
        | some here =>
            exact absurd (ready.owner j i other (.undoing id) found located (by rw [owned]; rfl) rfl) different
        | none =>
            cases other with
            | answered answer =>
                cases holds
                cases same
                exact absurd (List.mem_of_getElem? found) (spared id rfl)
            | looking => cases holds
            | inserting => cases holds
            | racing => cases holds
            | refused => cases holds
            | owning _ => cases owned
            | syncing _ => cases owned
            | undoing _ => cases owned

theorem answer_returned (pool : CreatePool) (id : String) :
    id ∈ answers pool ↔ ∃ (i : Nat) (call : CreateCall) (written : WrittenSchedule),
      pool.threads[i]? = some ⟨call, .ret written⟩ ∧ written.schedule.id = id := by
  rw [answers, List.mem_filterMap]
  constructor
  · rintro ⟨⟨call, rest⟩, member, answered⟩
    obtain ⟨i, found⟩ := List.getElem?_of_mem member
    cases rest with
    | ret written => exact ⟨i, call, written, found, Option.some.inj answered⟩
    | fail error => cases answered
    | call op rest => cases answered
  · rintro ⟨i, call, written, found, rfl⟩
    exact ⟨_, List.mem_of_getElem? found, rfl⟩

-- The answered places are the calls that returned.
theorem answered_places (pool : CreatePool) (places : List CreatePlace)
    (aligned : Aligned (Estate.exec platform) (createNext hashes input key) (fun _ => CreatePlace.ends) pool.threads places)
    (id : String) : id ∈ answers pool ↔ .answered id ∈ places := by
  rw [answer_returned]
  constructor
  · rintro ⟨i, call, written, found, rfl⟩
    obtain ⟨place, located, ends⟩ := aligned_place (Estate.exec platform) (createNext hashes input key) _ _ _ aligned i _ found
    rw [show place = .answered written.schedule.id from ends] at located
    exact List.mem_of_getElem? located
  · intro member
    obtain ⟨i, located⟩ := List.getElem?_of_mem member
    have bound : i < pool.threads.length := aligned.size ▸ (List.getElem?_eq_some_iff.mp located).1
    obtain ⟨⟨call, rest⟩, found⟩ : ∃ thread, pool.threads[i]? = some thread := ⟨_, List.getElem?_eq_getElem bound⟩
    have follows := aligned.follows i _ _ found located
    cases rest with
    | ret written => exact ⟨i, call, written, found, (CreatePlace.answered.inj follows).symm⟩
    | fail error => cases follows
    | call op rest =>
        obtain ⟨there, moved, _⟩ := follows pool.state
        cases op <;> cases moved

def createRun (start : Estate) (events : List (PoolEvent CreateCall)) : CreatePool :=
  Pool.run (Estate.exec platform) (CreateCall.body platform hashes input) ⟨start, []⟩ events

theorem create_run_outlined (given : truthy input.idempotency_key = some key) (start : Estate) (events : List (PoolEvent CreateCall))
    (guarded : Pool.Guarded (Estate.exec platform) (CreateCall.body platform hashes input) sparesAnswers ⟨start, []⟩ events) :
    Outlined (Estate.exec platform) (createNext hashes input key) (fun _ => CreatePlace.ends) (OneKeyed input key)
      (createRun platform hashes input start events) := by
  refine run_outline (Estate.exec platform) (createNext hashes input key) (CreateCall.body platform hashes input)
    (fun _ => .looking) (fun _ => CreatePlace.ends) (fun call => create_places platform hashes input key call given)
    (OneKeyed input key) sparesAnswers start ?_ ?_ ?_ events guarded
  · refine ⟨?_, ?_⟩
    · intro place member
      cases member
    · intro i j first second found
      cases found
  · intro pool places call ready _
    refine ⟨?_, ?_⟩
    · intro place member id holds
      rcases List.mem_append.mp member with old | new
      · exact ready.held place old id holds
      · cases List.mem_singleton.mp new
        cases holds
    · intro i j first second here there mine yours
      rcases located_append places i .looking first here with rfl | before
      · cases mine
      · rcases located_append places j .looking second there with rfl | after
        · cases yours
        · exact ready.owner i j first second before after mine yours
  · intro pool places i call op rest place there aligned ready spares found located moved
    refine one_keyed_step platform hashes input key call place there op pool.state places i ready located moved ?_
    intro id deletes
    subst deletes
    rw [← answered_places platform hashes input key pool places aligned id]
    exact spares i call id rest rfl found

end races

-- While no roll-back deletes a schedule that another call was answered with, the calls that succeed all
-- return one schedule, and from the first answer on D1 holds it.
theorem create_idempotent (platform : Platform) (hashes : ScheduleHashes) (input : CreateScheduleInput) (key : String)
    (given : truthy input.idempotency_key = some key) (start : Estate) (events : List (PoolEvent CreateCall))
    (guarded : Pool.Guarded (Estate.exec platform) (CreateCall.body platform hashes input) sparesAnswers ⟨start, []⟩ events) :
    let pool := createRun platform hashes input start events
    ∀ earlier later, events = earlier ++ later → ∀ id ∈ answers (createRun platform hashes input start earlier),
      (∀ other ∈ answers pool, other = id) ∧ (pool.state.cp.schedules.find? id).isSome = true := by
  intro pool earlier later split id answered
  have still : id ∈ answers pool := by
    obtain ⟨i, call, written, found, named⟩ := (answer_returned _ id).mp answered
    refine (answer_returned pool id).mpr ⟨i, call, written, ?_, named⟩
    have kept := returned_stays (Estate.exec platform) (CreateCall.body platform hashes input)
      (createRun platform hashes input start earlier) later i call written found
    rw [createRun, ← run_append, ← split] at kept
    exact kept
  obtain ⟨places, aligned, ready⟩ := create_run_outlined platform hashes input key given start events guarded
  have held : ∀ other ∈ answers pool, (keyedRow input key pool.state.cp).map ScheduleRow.id = some other := by
    intro other member
    exact ready.held _ ((answered_places platform hashes input key pool places aligned other).mp member) other rfl
  refine ⟨?_, keyed_stored input key pool.state.cp id (held id still)⟩
  intro other member
  exact Option.some.inj ((held other member).symm.trans (held id still))

def nightlyInput : CreateScheduleInput where
  backend_id := "backend"
  name := "nightly"
  expression := "0 3 * * *"
  timezone := none
  policy := none
  enabled := some false
  task := SchedulerStore.nightlyTask
  idempotency_key := some "create-1"

def sparesAnswersNow (pool : CreatePool) (event : PoolEvent CreateCall) : Bool :=
  match event with
  | .start _ => true
  | .step i =>
      match pool.threads[i]? with
      | some ⟨_, .call (.deleteSchedule id) _⟩ => !(answers pool).contains id
      | _ => true

theorem spares_answers_now (pool : CreatePool) (event : PoolEvent CreateCall) (spares : sparesAnswersNow pool event = true) :
    sparesAnswers pool event := by
  intro i call id rest stepped found
  subst stepped
  simp only [sparesAnswersNow, found, Bool.not_eq_true', List.contains_eq_mem, decide_eq_false_iff_not] at spares
  exact spares

-- Two creates of one key: the second is answered from the row of the first.
def overlappingCreates : List (PoolEvent CreateCall) :=
  [.start ⟨"first", 0, 0⟩, .start ⟨"second", 0, 0⟩, .step 0, .step 0, .step 1, .step 0, .step 0, .step 0]

theorem create_idempotent_overlapping :
    let pool := createRun utcMinutes constantHashes nightlyInput (emptyEstate []) overlappingCreates
    answers pool = ["first", "first"] ∧
      ∀ earlier later, overlappingCreates = earlier ++ later →
        ∀ id ∈ answers (createRun utcMinutes constantHashes nightlyInput (emptyEstate []) earlier),
          (∀ other ∈ answers pool, other = id) ∧ (pool.state.cp.schedules.find? id).isSome = true := by
  intro pool
  refine ⟨by decide, ?_⟩
  refine create_idempotent utcMinutes constantHashes nightlyInput "create-1" rfl (emptyEstate []) overlappingCreates ?_
  exact guarded_passes _ _ sparesAnswers sparesAnswersNow spares_answers_now _ _ (by decide)

-- The sync of the first create fails after the second was answered from its row: the row goes, and a third
-- create makes another one.
def rolledBackCreates : List (PoolEvent CreateCall) :=
  overlappingCreates ++ [.start ⟨"third", 0, 0⟩, .step 2, .step 2, .step 2, .step 2]

theorem create_answers_lost_schedule :
    let pool := createRun utcMinutes constantHashes nightlyInput (emptyEstate [.failed]) rolledBackCreates
    answers pool = ["first", "third"] ∧ (pool.state.cp.schedules.find? "first").isSome = false ∧
      ¬ ∀ id ∈ answers pool, (∀ other ∈ answers pool, other = id) ∧ (pool.state.cp.schedules.find? id).isSome = true := by
  intro pool
  have returned : answers pool = ["first", "third"] := by decide
  have gone : (pool.state.cp.schedules.find? "first").isSome = false := by decide
  refine ⟨returned, gone, ?_⟩
  intro idempotent
  have stored := (idempotent "first" (by rw [returned]; decide)).2
  rw [gone] at stored
  cases stored

end Vacps.ControlPlane
