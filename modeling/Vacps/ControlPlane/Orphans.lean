import Vacps.ControlPlane.Inventory

/- Interleaved service calls and the schedules they leave on the agents: where each call stands, which
   steps leave none behind, and that reconcile removes none. -/
set_option autoImplicit false

namespace Vacps.ControlPlane

open Library

-- The calls that neither add nor remove a row of D1, nor remove one of an agent.
def CpOp.mild : CpOp → Bool
  | .insertSchedule _ => false
  | .deleteSchedule _ => false
  | .deleteScheduler _ _ => false
  | _ => true

abbrev Mild {α : Type} (program : Service α) : Prop := program.Uses fun op => op.mild = true

section mild

variable (platform : Platform)

theorem mild_call (op : CpOp) (mild : op.mild = true) : Mild (call op) := uses_perform _ op mild

theorem mild_bind {α β : Type} (program : Service α) (continue_ : α → Service β) (first : Mild program)
    (later : ∀ value, Mild (continue_ value)) : Mild (program >>= continue_) :=
  uses_bind _ program continue_ first later

theorem get_mild (id : String) : Mild (get id) := by
  apply mild_bind _ _ (mild_call _ rfl)
  intro row
  cases row <;> exact trivial

theorem sync_mild (schedule : ScheduleRecord) (now : Int) : Mild (sync platform schedule now) :=
  mild_bind _ _ (mild_call _ rfl) fun _ => trivial

theorem apply_update_mild (current : ScheduleRecord) (patch : UpdateScheduleInput) (now syncedAt : Int) :
    Mild (applyUpdate platform current patch now syncedAt) := by
  unfold applyUpdate
  split
  · exact trivial
  · apply mild_bind _ _ (mild_call _ rfl)
    intro changes
    split
    · exact trivial
    · exact mild_bind _ _ (sync_mild platform _ syncedAt) fun _ => get_mild current.id

theorem update_mild (id : String) (input : UpdateScheduleInput) (now syncedAt : Int) :
    Mild (update platform id input now syncedAt) :=
  mild_bind _ _ (get_mild id) fun current => apply_update_mild platform current _ now syncedAt

theorem load_update_mild (key : Option String) : Mild (loadUpdate key) := by
  unfold loadUpdate
  cases truthy key with
  | none => exact trivial
  | some key => exact mild_call _ rfl

theorem patch_mild (hashes : ScheduleHashes) (id : String) (input : PatchScheduleInput) (now syncedAt : Int) :
    Mild (patch platform hashes id input now syncedAt) := by
  apply mild_bind _ _ (load_update_mild input.idempotency_key)
  intro cached
  cases cached with
  | some cached =>
      dsimp only
      split
      · exact trivial
      · exact trivial
  | none =>
      apply mild_bind _ _ (get_mild id)
      intro current
      split
      · exact trivial
      · apply mild_bind _ _ (apply_update_mild platform current _ now syncedAt)
        intro updated
        cases truthy input.idempotency_key with
        | none => exact trivial
        | some key => exact mild_bind _ _ (mild_call _ rfl) fun _ => trivial

theorem reconcile_each_mild (syncedAt : Int) (schedules : List ScheduleRecord) :
    Mild (reconcileEach platform syncedAt schedules) := by
  induction schedules with
  | nil => exact trivial
  | cons schedule rest ih =>
      apply mild_bind _ _ (uses_attempt _ _ (sync_mild platform schedule syncedAt))
      intro synced
      apply mild_bind _ _ ih
      intro counts
      cases synced <;> exact trivial

theorem reconcile_mild (syncedAt : Int) : Mild (reconcile platform syncedAt) :=
  mild_bind _ _ (mild_bind _ _ (mild_call _ rfl) fun _ => trivial) fun page =>
    reconcile_each_mild platform syncedAt page.schedules

theorem find_by_idempotency_mild (backendId : String) (key : Option String) : Mild (findByIdempotency backendId key) := by
  unfold findByIdempotency
  cases truthy key with
  | none => exact trivial
  | some key => exact mild_bind _ _ (mild_call _ rfl) fun _ => trivial

end mild

section places

variable (platform : Platform) (hashes : ScheduleHashes)

-- Where a call stands: a create before and after its INSERT, a delete before and after its SELECT, a
-- call about to remove its row, and every other point.
inductive ServicePlace where
  | open_
  | creating (id : String)
  | created (id : String)
  | deleting (id : String)
  | asking (id backendId : String)
  | removing (id : String)

def ServicePlace.ends : ServicePlace → Prop
  | .asking _ _ => False
  | .removing _ => False
  | _ => True

def serviceNext (call : ServiceCall) : ServicePlace → CpOp → Estate → Option ServicePlace
  | .creating id, .selectByIdempotency _ _, _ => some (.creating id)
  | .creating id, .insertSchedule row, estate =>
      if row.id = id ∧ call.subject = some id then
        some (match (CpOp.exec (.insertSchedule row) estate.cp).1 with | .ok _ => .created id | .error _ => .open_)
      else none
  | .created id, .selectSchedule _, _ => some (.created id)
  | .created id, .upsertScheduler _ request, estate =>
      if request.id = id ∧ call.creates = true then
        some (if estate.next.fate = .answered then .open_ else .removing id)
      else none
  | .deleting id, .loadDelete _, _ => some (.deleting id)
  | .deleting id, .selectSchedule other, estate =>
      if other = id then
        some (match backendOf estate.cp id with | none => .open_ | some backendId => .asking id backendId)
      else none
  | .asking id backendId, .deleteScheduler other gone, _ =>
      if other = backendId ∧ gone = id ∧ call.subject = some id then some (.removing id) else none
  | .removing id, .deleteSchedule other, _ => if other = id then some .open_ else none
  | .open_, op, _ => if op.mild then some .open_ else none
  | _, _, _ => none

def ServiceCall.entry : ServiceCall → ServicePlace
  | .create _ id _ _ => .creating id
  | .delete id _ => .deleting id
  | _ => .open_

theorem mild_follows {α : Type} (call : ServiceCall) (program : Service α) (mild : Mild program) :
    program.Follows (Estate.exec platform) (serviceNext call) .open_ fun there _ => there = .open_ := by
  have stays : ∀ place op estate, place = .open_ → op.mild = true →
      ∃ there, serviceNext call place op estate = some there ∧ there = .open_ := by
    intro place op estate here allowed
    subst here
    exact ⟨.open_, if_pos allowed, rfl⟩
  exact follows_within _ (Estate.exec platform) (serviceNext call) (fun there => there = .open_) stays program mild .open_ rfl

theorem open_ends {α : Type} (call : ServiceCall) (program : Service α) (mild : Mild program) :
    program.Follows (Estate.exec platform) (serviceNext call) .open_ fun there _ => there.ends := by
  apply follows_mono _ _ _ _ _ _ _ (mild_follows platform call program mild)
  intro there result same
  rw [same]
  exact trivial

theorem lookup_follows (call : ServiceCall) (id backendId : String) (key : Option String) :
    (findByIdempotency backendId key).Follows (Estate.exec platform) (serviceNext call) (.creating id)
      fun there _ => there = .creating id := by
  unfold findByIdempotency
  cases truthy key with
  | none => exact rfl
  | some key =>
      intro estate
      exact ⟨.creating id, rfl, rfl⟩

theorem created_follows (call : ServiceCall) (id requestHash : String) (syncedAt : Int) (creates : call.creates = true) :
    (do
      let schedule ← get id
      let synced ← Async.attempt (sync platform schedule syncedAt)
      match synced with
      | .ok _ => pure ⟨schedule, false, requestHash⟩
      | .error error =>
          let _ ← ControlPlane.call (.deleteSchedule id)
          .fail error : Service WrittenSchedule).Follows (Estate.exec platform) (serviceNext call) (.created id)
        fun there _ => there.ends := by
  intro estate
  refine ⟨.created id, rfl, ?_⟩
  cases found : estate.cp.schedules.find? id with
  | none =>
      simp only [Estate.exec, CpOp.exec, found]
      exact trivial
  | some row =>
      have rowId : row.id = id := estate.cp.schedules.find_key id row found
      simp only [Estate.exec, CpOp.exec, found]
      intro later
      refine ⟨_, if_pos ⟨rowId, creates⟩, ?_⟩
      rw [upsert_answered]
      by_cases answered : later.next.fate = .answered
      · simp only [if_pos answered]
        exact trivial
      · simp only [if_neg answered]
        intro last
        exact ⟨.open_, if_pos rfl, trivial⟩

theorem reuse_mild (existing : ScheduleRecord) (requestHash : String) : Mild (reuse existing requestHash) := by
  unfold reuse
  split <;> exact trivial

theorem create_follows (input : CreateScheduleInput) (id : String) (now syncedAt : Int) :
    (ControlPlane.create platform hashes input id now syncedAt).Follows (Estate.exec platform)
      (serviceNext (.create input id now syncedAt)) (.creating id) fun there _ => there.ends := by
  refine follows_bind _ _ _ _ _ _ _ (lookup_follows platform _ id input.backend_id input.idempotency_key) ?_ ?_
  · intro there existing same
    subst same
    cases existing with
    | some existing =>
        dsimp only [reuse]
        split <;> exact trivial
    | none =>
        intro estate
        refine ⟨_, if_pos ⟨rfl, rfl⟩, ?_⟩
        have same : (Estate.exec platform (.insertSchedule (createdRow platform input id (hashes.create input) now)) estate).1 =
            (CpOp.exec (.insertSchedule (createdRow platform input id (hashes.create input) now)) estate.cp).1 := rfl
        rw [same]
        cases (CpOp.exec (.insertSchedule (createdRow platform input id (hashes.create input) now)) estate.cp).1 with
        | ok value => exact created_follows platform _ id (hashes.create input) syncedAt rfl
        | error error =>
            apply open_ends
            apply mild_bind _ _ (find_by_idempotency_mild _ _)
            intro raced
            cases raced with
            | none => exact trivial
            | some raced => exact reuse_mild raced _
  · intro there error same
    subst same
    exact trivial

theorem remove_existing_follows (call : ServiceCall) (id : String) (subject : call.subject = some id) :
    (removeExisting id).Follows (Estate.exec platform) (serviceNext call) (.deleting id) fun there _ => there = .open_ := by
  intro estate
  refine ⟨_, if_pos rfl, ?_⟩
  simp only [Estate.exec, CpOp.exec, backendOf]
  cases found : estate.cp.schedules.find? id with
  | none => exact rfl
  | some row =>
      intro later
      refine ⟨.removing id, if_pos ⟨rfl, rfl, subject⟩, ?_⟩
      cases (Estate.exec platform (.deleteScheduler row.backend_id id) later).1 with
      | ok _ => exact fun last => ⟨.open_, if_pos rfl, rfl⟩
      | error _ => exact fun last => ⟨.open_, if_pos rfl, rfl⟩

theorem load_delete_follows (call : ServiceCall) (id : String) (key : Option String) :
    (loadDelete key).Follows (Estate.exec platform) (serviceNext call) (.deleting id) fun there _ => there = .deleting id := by
  unfold loadDelete
  cases truthy key with
  | none => exact rfl
  | some key =>
      intro estate
      exact ⟨.deleting id, rfl, rfl⟩

theorem store_delete_mild (key : Option String) (requestHash : String) (result : DeleteResult) :
    Mild (storeDelete key requestHash result) := by
  unfold storeDelete
  cases truthy key with
  | none => exact trivial
  | some key => exact mild_bind _ _ (mild_call _ rfl) fun _ => trivial

theorem delete_follows (id : String) (key : Option String) :
    (ControlPlane.delete hashes id key).Follows (Estate.exec platform) (serviceNext (.delete id key)) (.deleting id)
      fun there _ => there.ends := by
  refine follows_bind _ _ _ _ _ _ _ (load_delete_follows platform _ id key) ?_ ?_
  · intro there cached same
    subst same
    cases cached with
    | some cached =>
        dsimp only
        split <;> exact trivial
    | none =>
        refine follows_bind _ _ _ _ _ _ _ (remove_existing_follows platform _ id rfl) ?_ ?_
        · intro there result same
          subst same
          exact open_ends platform _ _ (store_delete_mild key _ result)
        · intro there error same
          subst same
          exact trivial
  · intro there error same
    subst same
    exact trivial

theorem body_follows (call : ServiceCall) :
    (call.body platform hashes).Follows (Estate.exec platform) (serviceNext call) call.entry fun there _ => there.ends := by
  have unit : ∀ {α : Type} (place : ServicePlace) (program : Service α),
      program.Follows (Estate.exec platform) (serviceNext call) place (fun there _ => there.ends) →
      (program >>= fun _ => pure ()).Follows (Estate.exec platform) (serviceNext call) place fun there _ => there.ends := by
    intro α place program follows
    exact follows_bind _ _ _ _ _ _ _ follows (fun _ _ ends => ends) fun _ _ ends => ends
  cases call with
  | create input id now syncedAt => exact unit _ _ (create_follows platform hashes input id now syncedAt)
  | update id input now syncedAt => exact unit _ _ (open_ends platform _ _ (update_mild platform id input now syncedAt))
  | patch id input now syncedAt => exact unit _ _ (open_ends platform _ _ (patch_mild platform hashes id input now syncedAt))
  | delete id key => exact unit _ _ (delete_follows platform hashes id key)
  | reconcile syncedAt => exact unit _ _ (open_ends platform _ _ (reconcile_mild platform syncedAt))

end places

section runs

variable (platform : Platform) (hashes : ScheduleHashes)

def CpOp.upserts : CpOp → Bool
  | .upsertScheduler _ _ => true
  | _ => false

theorem mild_keeps (op : CpOp) (estate : Estate) (mild : op.mild = true) (statement : op.upserts = false) :
    (Estate.exec platform op estate).2.agents = estate.agents ∧
      ∀ id, backendOf (Estate.exec platform op estate).2.cp id = backendOf estate.cp id := by
  cases op with
  | insertSchedule row => cases mild
  | deleteSchedule id => cases mild
  | deleteScheduler backendId id => cases mild
  | upsertScheduler backendId request => cases statement
  | updateSchedule next id revision =>
      refine ⟨rfl, ?_⟩
      intro other
      exact estate.cp.schedules.map_find_update _ (ScheduleRow.rewrite next) (fun _ => rfl) other ScheduleRow.backend_id
        fun _ => rfl
  | advanceSchedule lastRunAt next id revision token =>
      refine ⟨rfl, ?_⟩
      intro other
      exact estate.cp.schedules.map_find_update _ (ScheduleRow.advance lastRunAt next) (fun _ => rfl) other
        ScheduleRow.backend_id fun _ => rfl
  | _ => exact ⟨rfl, fun _ => rfl⟩

theorem insert_backend (row : ScheduleRow) (estate : Estate) (id : String) :
    backendOf (Estate.exec platform (.insertSchedule row) estate).2.cp id = backendOf estate.cp id ∨
      (id = row.id ∧ backendOf estate.cp id = none) := by
  by_cases fresh : estate.cp.schedules.find? row.id = none
  · by_cases taken : estate.cp.keyTaken row = true
    · left
      simp only [Estate.exec, CpOp.exec, dif_pos fresh, taken, if_true]
    · by_cases same : row.id = id
      · right
        subst same
        exact ⟨rfl, by rw [backendOf, fresh]; rfl⟩
      · left
        simp only [Estate.exec, CpOp.exec, dif_pos fresh, taken, Bool.false_eq_true, if_false, backendOf, Table.find_insert,
          if_neg same]
  · left
    simp only [Estate.exec, CpOp.exec, dif_neg fresh]

theorem delete_backend (gone : String) (estate : Estate) (id : String) :
    backendOf (Estate.exec platform (.deleteSchedule gone) estate).2.cp id =
      if gone = id then none else backendOf estate.cp id := by
  simp only [Estate.exec, CpOp.exec, backendOf, Table.find_delete]
  split <;> rfl

-- The row a thread's next call removes.
def removes (thread : Thread CpOp CpOp.Result AppError Unit ServiceCall) : Option String :=
  match thread.rest with
  | .call (.deleteSchedule id) _ => some id
  | _ => none

-- A drawn id is new. An upsert reaches an agent while D1 holds the schedule for it and no call is
-- about to remove the row; that of a create is answered, or fails with no agent storing the schedule.
-- The request of a delete takes effect, or the agent stores no such schedule.
def orderlyOp (pool : ServicePool) (i : Nat) (call : ServiceCall) : CpOp → Prop
  | .insertSchedule row => ∀ thread ∈ pool.threads.eraseIdx i, thread.call.subject ≠ some row.id
  | .upsertScheduler backendId request =>
      (pool.state.next.fate = .failed ∨
          backendOf pool.state.cp request.id = some backendId ∧ ∀ thread ∈ pool.threads, removes thread ≠ some request.id) ∧
        (call.creates = false ∨ pool.state.next.fate = .answered ∨
          pool.state.next.fate = .failed ∧
            ∀ other ∈ backendOf pool.state.cp request.id, storesSchedule (pool.state.agents other) request.id = false)
  | .deleteScheduler backendId id =>
      pool.state.next.fate ≠ .failed ∨ storesSchedule (pool.state.agents backendId) id = false
  | _ => True

def pending (thread : Thread CpOp CpOp.Result AppError Unit ServiceCall) : Option CpOp :=
  match thread.rest with
  | .call op _ => some op
  | _ => none

def orderly (pool : ServicePool) : PoolEvent ServiceCall → Prop
  | .start _ => True
  | .step i => ∀ thread ∈ pool.threads[i]?, ∀ op ∈ pending thread, orderlyOp pool i thread.call op

structure Tidy (estate : Estate) (places : List ServicePlace) : Prop where
  contained : contained estate
  removing : ∀ (i : Nat) (id : String), places[i]? = some (ServicePlace.removing id) → ∀ backendId, storesSchedule (estate.agents backendId) id = false
  asking : ∀ (i : Nat) (id backendId : String), places[i]? = some (ServicePlace.asking id backendId) →
    ∀ other, backendOf estate.cp id = some other → other = backendId

theorem tidy_spawned (estate : Estate) (places : List ServicePlace) (call : ServiceCall) (tidy : Tidy estate places) :
    Tidy estate (places ++ [call.entry]) := by
  refine ⟨tidy.contained, ?_, ?_⟩
  · intro i id located
    rcases located_append places i _ _ located with last | before
    · cases call <;> cases last
    · exact tidy.removing i id before
  · intro i id backendId located
    rcases located_append places i _ _ located with last | before
    · cases call <;> cases last
    · exact tidy.asking i id backendId before

-- The steps that lead to a removal or to a request for one.
theorem next_cases (call : ServiceCall) (place there : ServicePlace) (op : CpOp) (estate : Estate)
    (moved : serviceNext call place op estate = some there) :
    (∀ id, there = .removing id →
        (∃ backendId request, op = .upsertScheduler backendId request ∧ request.id = id ∧ call.creates = true ∧
          estate.next.fate ≠ .answered) ∨
          ∃ backendId, op = .deleteScheduler backendId id ∧ place = .asking id backendId) ∧
      (∀ id backendId, there = .asking id backendId → op = .selectSchedule id ∧ backendOf estate.cp id = some backendId) ∧
      (∀ id, op = .deleteSchedule id → place = .removing id ∧ there = .open_) ∧
      (∀ backendId id, op = .deleteScheduler backendId id → place = .asking id backendId ∧ there = .removing id) ∧
      (∀ row, op = .insertSchedule row → call.subject = some row.id) := by
  unfold serviceNext at moved
  split at moved
  · cases moved
    simp
  · split at moved
    · rename_i row _ named
      obtain ⟨same, subject⟩ := named
      cases moved
      refine ⟨?_, ?_, ?_, ?_, ?_⟩
      · intro id reached
        split at reached <;> cases reached
      · intro id backendId reached
        split at reached <;> cases reached
      · simp
      · simp
      · intro other equal
        cases equal
        rw [subject, same]
    · cases moved
  · cases moved
    simp
  · split at moved
    · rename_i named
      obtain ⟨same, creates⟩ := named
      cases moved
      refine ⟨?_, ?_, ?_, ?_, ?_⟩
      · intro id reached
        split at reached
        · cases reached
        · rename_i unanswered
          cases reached
          exact Or.inl ⟨_, _, rfl, same, creates, unanswered⟩
      · intro id backendId reached
        split at reached <;> cases reached
      · simp
      · simp
      · simp
    · cases moved
  · cases moved
    simp
  · split at moved
    · rename_i same
      subst same
      cases moved
      refine ⟨?_, ?_, ?_, ?_, ?_⟩
      · intro id reached
        split at reached <;> cases reached
      · intro id backendId reached
        split at reached
        · cases reached
        · rename_i found
          cases reached
          exact ⟨rfl, found⟩
      · simp
      · simp
      · simp
    · cases moved
  · split at moved
    · rename_i named
      obtain ⟨rfl, rfl, subject⟩ := named
      cases moved
      simp
    · cases moved
  · split at moved
    · rename_i same
      subst same
      cases moved
      simp
    · cases moved
  · split at moved
    · rename_i mild
      cases moved
      refine ⟨by simp, by simp, ?_, ?_, ?_⟩
      · intro id equal
        rw [equal] at mild
        cases mild
      · intro backendId id equal
        rw [equal] at mild
        cases mild
      · intro row equal
        rw [equal] at mild
        cases mild
    · cases moved
  · cases moved

theorem asking_next (call : ServiceCall) (id backendId : String) (op : CpOp) (estate : Estate) (there : ServicePlace)
    (moved : serviceNext call (.asking id backendId) op estate = some there) : call.subject = some id := by
  cases op with
  | deleteScheduler other gone =>
      simp only [serviceNext] at moved
      split at moved
      · rename_i named
        exact named.2.2
      · cases moved
  | _ => cases moved

theorem removing_next (call : ServiceCall) (id : String) (op : CpOp) (estate : Estate) (there : ServicePlace)
    (moved : serviceNext call (.removing id) op estate = some there) : op = .deleteSchedule id := by
  cases op with
  | deleteSchedule other =>
      simp only [serviceNext] at moved
      split at moved
      · rename_i same
        rw [same]
      · cases moved
  | _ => cases moved

theorem asking_subject (thread : Thread CpOp CpOp.Result AppError Unit ServiceCall) (id backendId : String) (estate : Estate)
    (follows : thread.rest.Follows (Estate.exec platform) (serviceNext thread.call) (.asking id backendId)
      fun there _ => there.ends) : thread.call.subject = some id := by
  obtain ⟨call, rest⟩ := thread
  cases rest with
  | ret value => exact False.elim follows
  | fail error => exact False.elim follows
  | call op rest =>
      obtain ⟨there, moved, _⟩ := follows estate
      exact asking_next call id backendId op estate there moved

theorem removing_removes (thread : Thread CpOp CpOp.Result AppError Unit ServiceCall) (id : String) (estate : Estate)
    (follows : thread.rest.Follows (Estate.exec platform) (serviceNext thread.call) (.removing id)
      fun there _ => there.ends) : removes thread = some id := by
  obtain ⟨call, rest⟩ := thread
  cases rest with
  | ret value => exact False.elim follows
  | fail error => exact False.elim follows
  | call op rest =>
      obtain ⟨there, moved, _⟩ := follows estate
      have same := removing_next call id op estate there moved
      subst same
      rfl

section step

variable (pool : ServicePool) (places : List ServicePlace)
  (aligned : Aligned (Estate.exec platform) serviceNext (fun _ place _ => place.ends) pool.threads places)
  (tidy : Tidy pool.state places) (i : Nat) (call : ServiceCall) (op : CpOp) (place there : ServicePlace)
  (located : places[i]? = some place) (moved : serviceNext call place op pool.state = some there)
  (allowed : orderlyOp pool i call op)

include tidy located moved

theorem tidy_statement (mild : op.mild = true) (statement : op.upserts = false) :
    Tidy (Estate.exec platform op pool.state).2 (places.set i there) := by
  obtain ⟨agents, backends⟩ := mild_keeps platform op pool.state mild statement
  obtain ⟨removal, request, _⟩ := next_cases call place there op pool.state moved
  refine ⟨?_, ?_, ?_⟩
  · intro backendId id stored
    rw [agents] at stored
    rw [backends]
    exact tidy.contained backendId id stored
  · intro j id standing
    rw [agents]
    rcases (located_set places i j place there _ located).mp standing with ⟨_, same⟩ | ⟨_, before⟩
    · rcases removal id same.symm with ⟨_, _, rfl, _⟩ | ⟨_, rfl, _⟩
      · cases statement
      · cases mild
    · exact tidy.removing j id before
  · intro j id backendId standing other held
    rw [backends] at held
    rcases (located_set places i j place there _ located).mp standing with ⟨_, same⟩ | ⟨_, before⟩
    · obtain ⟨_, found⟩ := request id backendId same.symm
      rw [found] at held
      exact (Option.some.inj held).symm
    · exact tidy.asking j id backendId before other held

include aligned allowed

theorem tidy_insert (row : ScheduleRow) (same : op = .insertSchedule row) :
    Tidy (Estate.exec platform op pool.state).2 (places.set i there) := by
  subst same
  obtain ⟨removal, request, _⟩ := next_cases call place there _ pool.state moved
  have backends := insert_backend platform row pool.state
  refine ⟨?_, ?_, ?_⟩
  · intro backendId id stored
    have held := tidy.contained backendId id stored
    rcases backends id with kept | ⟨_, absent⟩
    · rw [kept, held]
    · rw [absent] at held
      cases held
  · intro j id standing
    rcases (located_set places i j place there _ located).mp standing with ⟨_, same⟩ | ⟨_, before⟩
    · rcases removal id same.symm with ⟨_, _, equal, _⟩ | ⟨_, equal, _⟩
      · cases equal
      · cases equal
    · exact tidy.removing j id before
  · intro j id backendId standing other held
    rcases (located_set places i j place there _ located).mp standing with ⟨_, same⟩ | ⟨apart, before⟩
    · cases (request id backendId same.symm).1
    · obtain ⟨thread, found, follows⟩ : ∃ thread, pool.threads[j]? = some thread ∧
          thread.rest.Follows (Estate.exec platform) (serviceNext thread.call) (.asking id backendId)
            fun there _ => there.ends := by
        have bound := (List.getElem?_eq_some_iff.mp before).1
        have found := List.getElem?_eq_getElem (aligned.size ▸ bound)
        exact ⟨_, found, aligned.follows j _ _ found before⟩
      have subject := asking_subject platform thread id backendId pool.state follows
      rcases backends id with kept | ⟨drawn, _⟩
      · rw [kept] at held
        exact tidy.asking j id backendId before other held
      · have member : thread ∈ pool.threads.eraseIdx i := List.mem_eraseIdx_iff_getElem?.mpr ⟨j, apart, found⟩
        exact absurd (drawn ▸ subject) (allowed thread member)

omit aligned allowed in
theorem tidy_delete (gone : String) (same : op = .deleteSchedule gone) :
    Tidy (Estate.exec platform op pool.state).2 (places.set i there) := by
  subst same
  obtain ⟨_, _, deletion, _⟩ := next_cases call place there _ pool.state moved
  obtain ⟨rfl, rfl⟩ := deletion gone rfl
  have backends := delete_backend platform gone pool.state
  have unstored := tidy.removing i gone located
  refine ⟨?_, ?_, ?_⟩
  · intro backendId id stored
    have different : gone ≠ id := by
      intro equal
      have absent := unstored backendId
      rw [equal] at absent
      exact absurd (stored.symm.trans absent) (by decide)
    rw [backends, if_neg different]
    exact tidy.contained backendId id stored
  · intro j id standing
    rcases (located_set places i j _ _ _ located).mp standing with ⟨_, same⟩ | ⟨_, before⟩
    · cases same
    · exact tidy.removing j id before
  · intro j id backendId standing other held
    rcases (located_set places i j _ _ _ located).mp standing with ⟨_, same⟩ | ⟨_, before⟩
    · cases same
    · rw [backends] at held
      split at held
      · cases held
      · exact tidy.asking j id backendId before other held

omit aligned in
theorem tidy_request (backendId gone : String) (same : op = .deleteScheduler backendId gone) :
    Tidy (Estate.exec platform op pool.state).2 (places.set i there) := by
  subst same
  obtain ⟨_, _, _, requested, _⟩ := next_cases call place there _ pool.state moved
  obtain ⟨rfl, rfl⟩ := requested backendId gone rfl
  obtain ⟨cp, fewer, taken⟩ := delete_exec platform pool.state backendId gone
  refine ⟨?_, ?_, ?_⟩
  · intro other id stored
    rw [cp]
    exact tidy.contained other id (fewer other id stored)
  · intro j id standing other
    rcases (located_set places i j _ _ _ located).mp standing with ⟨_, same⟩ | ⟨_, before⟩
    · cases same
      by_contra present
      have stored := fewer other gone (by simpa using present)
      have here := tidy.asking i gone backendId located other (tidy.contained other gone stored)
      subst here
      rcases allowed with effective | absent
      · exact present (taken effective)
      · exact absurd (stored.symm.trans absent) (by decide)
    · by_contra present
      have stored := fewer other id (by simpa using present)
      exact absurd (stored.symm.trans (tidy.removing j id before other)) (by decide)
  · intro j id asked standing other held
    rcases (located_set places i j _ _ _ located).mp standing with ⟨_, same⟩ | ⟨_, before⟩
    · cases same
    · rw [cp] at held
      exact tidy.asking j id asked before other held

theorem tidy_upsert (backendId : String) (request : SchedulerRequest) (same : op = .upsertScheduler backendId request) :
    Tidy (Estate.exec platform op pool.state).2 (places.set i there) := by
  subst same
  obtain ⟨removal, asked, _⟩ := next_cases call place there _ pool.state moved
  obtain ⟨cp, _, more⟩ := upsert_exec platform pool.state backendId request
  obtain ⟨fits, rolled⟩ := allowed
  refine ⟨?_, ?_, ?_⟩
  · intro other id stored
    rw [cp]
    rcases more other id stored with ⟨rfl, rfl, taken⟩ | before
    · exact (fits.resolve_left taken).1
    · exact tidy.contained other id before
  · intro j id standing other
    by_contra present
    have stored : storesSchedule ((Estate.exec platform (.upsertScheduler backendId request) pool.state).2.agents other) id = true := by
      simpa using present
    rcases (located_set places i j _ _ _ located).mp standing with ⟨_, same⟩ | ⟨_, before⟩
    · obtain ⟨_, _, equal, named, creates, unanswered⟩ | ⟨_, equal, _⟩ := removal id same.symm
      · cases equal
        subst named
        rcases rolled with other_ | answered | ⟨failed, absent⟩
        · rw [creates] at other_
          cases other_
        · exact unanswered answered
        · rcases more other request.id stored with ⟨_, _, taken⟩ | before
          · exact taken failed
          · exact absurd (before.symm.trans (absent other (tidy.contained other request.id before))) (by decide)
      · cases equal
    · rcases more other id stored with ⟨_, rfl, taken⟩ | already
      · obtain ⟨thread, found, follows⟩ : ∃ thread, pool.threads[j]? = some thread ∧
            thread.rest.Follows (Estate.exec platform) (serviceNext thread.call) (.removing request.id)
              fun there _ => there.ends := by
          have bound := (List.getElem?_eq_some_iff.mp before).1
          have found := List.getElem?_eq_getElem (aligned.size ▸ bound)
          exact ⟨_, found, aligned.follows j _ _ found before⟩
        have removed := removing_removes platform thread request.id pool.state follows
        exact (fits.resolve_left taken).2 thread (List.mem_of_getElem? found) removed
      · exact absurd (already.symm.trans (tidy.removing j id before other)) (by decide)
  · intro j id requested standing other held
    rw [cp] at held
    rcases (located_set places i j _ _ _ located).mp standing with ⟨_, same⟩ | ⟨_, before⟩
    · cases (asked id requested same.symm).1
    · exact tidy.asking j id requested before other held

theorem tidy_step : Tidy (Estate.exec platform op pool.state).2 (places.set i there) := by
  cases op with
  | insertSchedule row => exact tidy_insert platform pool places aligned tidy i call _ place there located moved allowed row rfl
  | deleteSchedule id => exact tidy_delete platform pool places tidy i call _ place there located moved id rfl
  | upsertScheduler backendId request =>
      exact tidy_upsert platform pool places aligned tidy i call _ place there located moved allowed backendId request rfl
  | deleteScheduler backendId id =>
      exact tidy_request platform pool places tidy i call _ place there located moved allowed backendId id rfl
  | _ => exact tidy_statement platform pool places tidy i call _ place there located moved rfl rfl

end step

def serviceRun (start : Estate) (events : List (PoolEvent ServiceCall)) : ServicePool :=
  Pool.run (Estate.exec platform) (ServiceCall.body platform hashes) ⟨start, []⟩ events

theorem orderly_run_tidy (start : Estate) (initial : contained start) (events : List (PoolEvent ServiceCall))
    (guarded : Pool.Guarded (Estate.exec platform) (ServiceCall.body platform hashes) orderly ⟨start, []⟩ events) :
    Outlined (Estate.exec platform) serviceNext (fun _ place _ => place.ends) Tidy (serviceRun platform hashes start events) := by
  have empty : Tidy start [] :=
    ⟨initial, fun _ _ standing => absurd standing (by simp), fun _ _ _ standing => absurd standing (by simp)⟩
  refine run_outline (Estate.exec platform) serviceNext (ServiceCall.body platform hashes) ServiceCall.entry
    (fun _ place _ => place.ends) (body_follows platform hashes) Tidy orderly start empty ?_ ?_ events guarded
  · intro pool places call tidy _
    exact tidy_spawned pool.state places call tidy
  · intro pool places i call op rest place there aligned tidy allowed found located moved
    exact tidy_step platform pool places aligned tidy i call op place there located moved (allowed _ found op rfl)

theorem reconcile_each_run (syncedAt : Int) (schedules : List ScheduleRecord) (estate : Estate) :
    let after := ((reconcileEach platform syncedAt schedules).runIn (Estate.exec platform) estate).2
    after.cp = estate.cp ∧
      (∀ other id, storesSchedule (estate.agents other) id = true → storesSchedule (after.agents other) id = true) ∧
      ∀ other id, storesSchedule (after.agents other) id = true →
        (∃ schedule ∈ schedules, schedule.id = id ∧ schedule.backend_id = other) ∨ storesSchedule (estate.agents other) id = true := by
  induction schedules generalizing estate with
  | nil => exact ⟨rfl, fun _ _ stored => stored, fun _ _ stored => Or.inr stored⟩
  | cons schedule rest ih =>
      obtain ⟨cp, kept, more⟩ := upsert_exec platform estate schedule.backend_id (syncRequest platform schedule syncedAt)
      obtain ⟨restCp, restKept, restMore⟩ := ih ((sync platform schedule syncedAt).runIn (Estate.exec platform) estate).2
      rw [sync_run] at restCp restKept restMore
      have ran := reconcile_each_next platform syncedAt schedule rest estate
      rw [sync_run] at ran
      intro after
      simp only [after, ran]
      refine ⟨restCp.trans cp, fun other id stored => restKept other id (kept other id stored), ?_⟩
      intro other id stored
      rcases restMore other id stored with ⟨later, member, here⟩ | before
      · exact Or.inl ⟨later, List.mem_cons_of_mem _ member, here⟩
      · rcases more other id before with ⟨rfl, rfl, _⟩ | earlier
        · exact Or.inl ⟨schedule, List.mem_cons_self, rfl, rfl⟩
        · exact Or.inr earlier

-- One reconcile run alone, whose requests meet the given exchanges.
def reconciled (answers : Nat → Exchange) (syncedAt : Int) (estate : Estate) : Estate :=
  ((reconcile platform syncedAt).runIn (Estate.exec platform) { estate with exchanges := answers, requests := 0 }).2

-- Reconcile upserts what D1 holds and removes nothing: an agent is left with no orphan just in case it
-- had none.
theorem reconcile_removes_none (answers : Nat → Exchange) (syncedAt : Int) (estate : Estate) :
    contained (reconciled platform answers syncedAt estate) ↔ contained estate := by
  have page : ∀ start : Estate, ∃ schedules : List ScheduleRecord,
      (∀ schedule ∈ schedules, backendOf start.cp schedule.id = some schedule.backend_id) ∧
        ((reconcile platform syncedAt).runIn (Estate.exec platform) start).2 =
          ((reconcileEach platform syncedAt schedules).runIn (Estate.exec platform) start).2 := by
    intro start
    refine ⟨((listedSchedules start.cp none none 201 0).take 200).map toSchedule, ?_, rfl⟩
    intro schedule listed
    obtain ⟨row, taken, rfl⟩ := List.mem_map.mp listed
    have sorted := List.mem_of_mem_drop (List.mem_of_mem_take (List.mem_of_mem_take taken))
    have stored := (List.mem_filter.mp ((List.mem_insertionSort _).mp sorted)).1
    have found := start.cp.schedules.find_of_mem row stored
    rw [backendOf, show (toSchedule row).id = row.id from rfl, found]
    rfl
  obtain ⟨schedules, held, ran⟩ := page { estate with exchanges := answers, requests := 0 }
  obtain ⟨cp, kept, more⟩ :=
    reconcile_each_run platform syncedAt schedules { estate with exchanges := answers, requests := 0 }
  rw [reconciled, ran]
  refine ⟨?_, ?_⟩
  · intro after backendId id stored
    have here := after backendId id (kept backendId id stored)
    rwa [cp] at here
  · intro before backendId id stored
    rw [cp]
    rcases more backendId id stored with ⟨schedule, member, rfl, rfl⟩ | already
    · exact held schedule member
    · exact before backendId id already

-- The claim's law over every interleaved run whose steps are orderly. A run that is not may leave an
-- orphan, and then every later reconcile leaves it too.
theorem orderly_runs_leave_no_orphan (start : Estate) (initial : contained start) (events : List (PoolEvent ServiceCall))
    (guarded : Pool.Guarded (Estate.exec platform) (ServiceCall.body platform hashes) orderly ⟨start, []⟩ events)
    (answers : Nat → Exchange) (syncedAt : Int) :
    contained (reconciled platform answers syncedAt (serviceRun platform hashes start events).state) := by
  obtain ⟨_, _, tidy⟩ := orderly_run_tidy platform hashes start initial events guarded
  exact (reconcile_removes_none platform answers syncedAt _).mpr tidy.contained

end runs

instance (pool : ServicePool) (i : Nat) (call : ServiceCall) (op : CpOp) : Decidable (orderlyOp pool i call op) := by
  cases op <;> unfold orderlyOp <;> infer_instance

instance (pool : ServicePool) (event : PoolEvent ServiceCall) : Decidable (orderly pool event) := by
  cases event with
  | start call => exact isTrue trivial
  | step i =>
      unfold orderly
      infer_instance

def nightlySchedule : CreateScheduleInput :=
  ⟨"backend", "nightly", "* * * * *", none, none, none, SchedulerStore.nightlyTask, none⟩

def createThenDelete : List (PoolEvent ServiceCall) :=
  [.start (.create nightlySchedule "schedule" 0 0), .step 0, .step 0, .step 0, .start (.delete "schedule" none), .step 1,
    .step 1, .step 1]

theorem orderly_runs_leave_no_orphan_delete :
    let start := emptyEstate []
    storesSchedule ((serviceRun utcMinutes constantHashes start (createThenDelete.take 4)).state.agents "backend") "schedule" =
        true ∧
      contained (reconciled utcMinutes (fun _ => ⟨.answered, 0, 0⟩) 0
        (serviceRun utcMinutes constantHashes start createThenDelete).state) := by
  intro start
  have initial : contained start := by
    intro backendId id stored
    cases stored
  have guarded : Pool.Guarded (Estate.exec utcMinutes) (ServiceCall.body utcMinutes constantHashes) orderly ⟨start, []⟩
      createThenDelete := by
    apply guarded_cons
    · decide
    apply guarded_cons
    · decide
    apply guarded_cons
    · decide
    apply guarded_cons
    · decide
    apply guarded_cons
    · decide
    apply guarded_cons
    · decide
    apply guarded_cons
    · decide
    apply guarded_cons
    · decide
    exact guarded_nil _ _ _ _
  exact ⟨by decide,
    orderly_runs_leave_no_orphan utcMinutes constantHashes start initial createThenDelete guarded (fun _ => ⟨.answered, 0, 0⟩) 0⟩

-- The request of a delete fails, or the reply to that of a create is lost: the schedule stays on the
-- agent without a row in D1, reconcile leaves it there, and the agent goes on firing it.
theorem failed_request_leaves_orphan :
    let answers : Nat → Exchange := fun _ => ⟨.answered, 0, 0⟩
    let afterDelete := reconciled utcMinutes answers 0
      (serviceRun utcMinutes constantHashes (emptyEstate [.answered, .failed]) createThenDelete).state
    let afterCreate := reconciled utcMinutes answers 0
      (serviceRun utcMinutes constantHashes (emptyEstate [.lost]) (createThenDelete.take 4 ++ [.step 0])).state
    let fired (estate : Estate) := (TaskQueue.fireDueSchedulers utcMinutes 60000 60000).runIn AgentOp.exec (estate.agents "backend")
    (∀ estate ∈ [afterDelete, afterCreate], storesSchedule (estate.agents "backend") "schedule" = true ∧
        backendOf estate.cp "schedule" = none ∧ (fired estate).2.db.tasks.rows.length = 1) ∧
      ¬ contained afterDelete ∧ ¬ contained afterCreate := by
  intro answers afterDelete afterCreate fired
  have orphans : ∀ estate ∈ [afterDelete, afterCreate], storesSchedule (estate.agents "backend") "schedule" = true ∧
      backendOf estate.cp "schedule" = none ∧ (fired estate).2.db.tasks.rows.length = 1 := by
    decide +kernel
  have uncontained : ∀ estate ∈ [afterDelete, afterCreate], ¬ contained estate := by
    intro estate member held
    obtain ⟨stored, absent, _⟩ := orphans estate member
    rw [held "backend" "schedule" stored] at absent
    cases absent
  exact ⟨orphans, uncontained afterDelete (by simp), uncontained afterCreate (by simp)⟩

end Vacps.ControlPlane
