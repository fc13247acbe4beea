import Vacps.Agent.CursorRaces
import Vacps.ControlPlane.SchedulePatch

/- What one reconcile leaves on the agents: which schedules of D1 it lists, and what the upsert of each
   makes of the row its agent holds. -/
set_option autoImplicit false

namespace Vacps.ControlPlane

open Library SchedulerStore

def storedOn (agent : AgentState) (id : String) : Option StoredScheduler :=
  (agent.db.schedulers.find? id).map rowToScheduler

-- The agent's row says of the schedule what D1 does, or is of a later revision.
structure Reflects (platform : Platform) (schedule : ScheduleRecord) (stored : StoredScheduler) : Prop where
  revision : schedule.revision ≤ stored.revision
  enabled : stored.revision = schedule.revision → stored.enabled = schedule.enabled
  trigger : stored.revision = schedule.revision → stored.cron = schedule.expression ∧ stored.timezone = schedule.timezone
  task : stored.revision = schedule.revision → stored.task = schedule.task
  policy : stored.revision = schedule.revision → stored.policy = schedule.policy
  cursor : stored.revision = schedule.revision → ∀ time, instantOf platform schedule.next_run_at = some time →
    ∃ reached, instantOf platform stored.nextRunAt = some reached ∧ time ≤ reached

def InStep (platform : Platform) (estate : Estate) (schedule : ScheduleRecord) : Prop :=
  ∃ stored, storedOn (estate.agents schedule.backend_id) schedule.id = some stored ∧ Reflects platform schedule stored

-- The agent holds a later revision than D1.
def Ahead (stored : Option StoredScheduler) (schedule : ScheduleRecord) : Prop :=
  ∃ row, stored = some row ∧ schedule.revision < row.revision

-- The row an upsert writes for the schedule.
structure Carries (platform : Platform) (schedule : ScheduleRecord) (stored : StoredScheduler) : Prop where
  revision : stored.revision = schedule.revision
  enabled : stored.enabled = schedule.enabled
  trigger : stored.cron = schedule.expression ∧ stored.timezone = schedule.timezone
  task : stored.task = schedule.task
  policy : stored.policy = schedule.policy
  idle : schedule.enabled = false → stored.nextRunAt = none
  cursor : schedule.enabled = true → ∀ time, instantOf platform schedule.next_run_at = some time →
    ∃ reached, instantOf platform stored.nextRunAt = some reached ∧ time ≤ reached

-- What becomes of the agent's row when the schedule is sent to it.
def Delivered (platform : Platform) (schedule : ScheduleRecord) (before after : Option StoredScheduler) : Prop :=
  (Ahead before schedule ∧ after = before) ∨
    (¬ Ahead before schedule ∧ ∃ stored, after = some stored ∧ Carries platform schedule stored)

section upsert

variable (platform : Platform)

theorem parse_policy_json (policy : SchedulePolicy) (within : runsWithin policy.max_catchup_runs) :
    parseSchedulePolicy (policyJson policy) = policy := by
  obtain ⟨concurrency, misfire, max_catchup_runs⟩ := policy
  obtain ⟨low, high⟩ := within
  have runs : min 100 (max 0 max_catchup_runs) = max_catchup_runs := by
    dsimp only at low high
    omega
  have concurrencies : parseConcurrency (some (concurrencyText concurrency)) = concurrency := by cases concurrency <;> rfl
  have misfires : parseMisfire (some (misfireText misfire)) = misfire := by cases misfire <;> rfl
  have members : (policyJson ⟨concurrency, misfire, max_catchup_runs⟩).member "concurrency" = some (.str (concurrencyText concurrency)) ∧
      (policyJson ⟨concurrency, misfire, max_catchup_runs⟩).member "misfire" = some (.str (misfireText misfire)) ∧
      (policyJson ⟨concurrency, misfire, max_catchup_runs⟩).member "max_catchup_runs" = some (.num max_catchup_runs) :=
    ⟨rfl, rfl, rfl⟩
  rw [parseSchedulePolicy, members.1, members.2.1, members.2.2]
  simp only [Option.bind_some, Json.asString, Json.asInteger, concurrencies, misfires, Rat.den_intCast, Rat.num_intCast,
    if_true, runs]

theorem merge_ignores {Task : Type} (current : Option (SchedulerMergeLocal Task)) (incoming : SchedulerMergeIncoming Task)
    (ignored : mergeSchedulerWire platform current incoming = .ignore) :
    ∃ stored, current = some stored ∧ incoming.revision < stored.revision := by
  cases current with
  | none => cases ignored
  | some stored =>
      by_cases older : incoming.revision < stored.revision
      · exact ⟨stored, rfl, older⟩
      · by_cases newer : stored.revision < incoming.revision
        · simp only [mergeSchedulerWire, if_neg older, if_pos newer] at ignored
          cases ignored
        · by_cases on : incoming.enabled = true
          · have same : stored.revision = incoming.revision := by omega
            rw [merge_same_revision platform stored incoming same on] at ignored
            cases ignored
          · simp only [mergeSchedulerWire, if_neg older, if_neg newer, on, Bool.not_false, if_true] at ignored
            cases ignored

-- A merge that applies takes the configuration of the wire, and its revision where that is one.
theorem merge_config {Task : Type} (current : Option (SchedulerMergeLocal Task)) (incoming : SchedulerMergeIncoming Task)
    (revision : Int) (cron timezone : String) (enabled : Bool) (task : Task) (policy : SchedulePolicy) (next : Option String)
    (merged : mergeSchedulerWire platform current incoming = .apply revision cron timezone enabled task policy next) :
    cron = incoming.cron ∧ timezone = incoming.timezone ∧ enabled = incoming.enabled ∧ task = incoming.task ∧
      policy = incoming.policy ∧ (1 ≤ incoming.revision → revision = incoming.revision) := by
  cases current with
  | none =>
      cases merged
      exact ⟨rfl, rfl, rfl, rfl, rfl, max_eq_right⟩
  | some stored =>
      by_cases older : incoming.revision < stored.revision
      · simp only [mergeSchedulerWire, if_pos older] at merged
        cases merged
      · by_cases newer : stored.revision < incoming.revision
        · simp only [mergeSchedulerWire, if_neg older, if_pos newer] at merged
          cases merged
          exact ⟨rfl, rfl, rfl, rfl, rfl, fun _ => rfl⟩
        · have same : stored.revision = incoming.revision := by omega
          by_cases on : incoming.enabled = true
          · rw [merge_same_revision platform stored incoming same on] at merged
            cases merged
            exact ⟨rfl, rfl, rfl, rfl, rfl, fun _ => same⟩
          · simp only [mergeSchedulerWire, if_neg older, if_neg newer, on, Bool.not_false, if_true] at merged
            cases merged
            exact ⟨rfl, rfl, (by simpa using on), rfl, rfl, fun _ => same⟩

theorem wire_statement_none (current : Option StoredScheduler) (input : SchedulerWire) (now : Int)
    (refused : wireStatement platform current input now = none) :
    ∃ stored, current = some stored ∧ (mergeIncoming current input).revision < stored.revision := by
  unfold wireStatement at refused
  cases result : mergeSchedulerWire platform (current.map mergeLocal) (mergeIncoming current input) with
  | ignore =>
      obtain ⟨local_, present, older⟩ := merge_ignores platform _ _ result
      obtain ⟨stored, found, rfl⟩ := Option.map_eq_some_iff.mp present
      exact ⟨stored, found, older⟩
  | apply revision cron timezone enabled task policy next =>
      rw [result] at refused
      cases refused

theorem wire_statement_config (current : Option StoredScheduler) (input : SchedulerWire) (now : Int) (id cron timezone : String)
    (enabled : Bool) (task : CreateTaskInput) (next : Option String) (revision : Int) (policy : Json) (at_ : Int)
    (built : wireStatement platform current input now =
      some (.upsertScheduler id cron timezone enabled task next revision policy at_)) :
    cron = input.cron ∧ timezone = input.timezone ∧ task = input.task ∧
      policy = policyJson (mergeIncoming current input).policy ∧
      (1 ≤ (mergeIncoming current input).revision → revision = (mergeIncoming current input).revision) ∧
      (input.enabled = false → next = none) := by
  unfold wireStatement at built
  cases result : mergeSchedulerWire platform (current.map mergeLocal) (mergeIncoming current input) with
  | ignore =>
      rw [result] at built
      cases built
  | apply revision cron timezone enabled task policy merged =>
      rw [result] at built
      obtain ⟨rfl, rfl, rfl, rfl, rfl, level⟩ := merge_config platform _ _ revision cron timezone enabled task policy merged result
      cases built
      refine ⟨rfl, rfl, rfl, rfl, level, ?_⟩
      intro off
      have disabled : (mergeIncoming current input).enabled = false := off
      rw [disabled]
      rfl

-- A schedule as toSchedule reads it.
structure Readable (schedule : ScheduleRecord) : Prop where
  revision : 1 ≤ schedule.revision
  policy : runsWithin schedule.policy.max_catchup_runs

theorem to_schedule_readable (row : ScheduleRow) : Readable (toSchedule row) := by
  refine ⟨?_, schedule_policy_within row⟩
  simp only [toSchedule]
  split <;> omega

theorem request_instant (schedule : ScheduleRecord) (now time : Int)
    (shown : instantOf platform schedule.next_run_at = some time) :
    instantOf platform (syncRequest platform schedule now).next_run_at = some time := by
  obtain ⟨raw, present, parsed⟩ := Option.bind_eq_some_iff.mp shown
  have given : schedule.next_run_at = some raw := by
    rw [truthy, Option.filter_eq_some_iff] at present
    exact present.1
  have same : instantOf platform (some raw) = some time := given ▸ shown
  simp only [syncRequest, given, Option.some_or]
  rw [show canonicalText platform (some raw) = some (toISOString time) from canonical_of_instant platform _ time same]
  exact instant_of_iso platform time (instant_valid platform _ time same)

theorem row_carries (schedule : ScheduleRecord) (readable : Readable schedule) (row : SchedulerRow)
    (revision : row.revision = schedule.revision) (enabled : row.enabled = schedule.enabled)
    (trigger : row.cron = schedule.expression ∧ row.timezone = schedule.timezone) (task : row.task = schedule.task)
    (policy : row.policy_json = some (policyJson schedule.policy)) (idle : schedule.enabled = false → row.next_run_at = none)
    (cursor : schedule.enabled = true → ∀ time, instantOf platform schedule.next_run_at = some time →
      reachesInstant row.next_run_at time) : Carries platform schedule (rowToScheduler row) where
  revision := by
    have first := readable.revision
    rw [rowToScheduler, revision, if_neg (by omega)]
  enabled := enabled
  trigger := trigger
  task := task
  policy := by
    rw [rowToScheduler, policy]
    exact parse_policy_json schedule.policy readable.policy
  idle := by
    intro off
    rw [rowToScheduler, idle off]
    rfl
  cursor := by
    intro on time shown
    obtain ⟨reached, written, valid, later⟩ := cursor on time shown
    refine ⟨reached, ?_, later⟩
    rw [rowToScheduler, written, instant_of_truthy]
    exact instant_of_iso platform reached valid

-- The row a wire statement of the schedule writes, as the agent reads it back.
theorem wire_statement_carries (schedule : ScheduleRecord) (readable : Readable schedule) (agent : AgentState)
    (input : SchedulerWire) (now : Int) (statement : Statement)
    (built : wireStatement platform (storedOn agent schedule.id) input now = some statement)
    (id : input.id = schedule.id) (trigger : input.cron = schedule.expression ∧ input.timezone = schedule.timezone)
    (enabled : input.enabled = schedule.enabled) (task : input.task = schedule.task)
    (revision : input.revision = some schedule.revision) (policy : input.policy = some schedule.policy)
    (cursor : ∀ time, instantOf platform schedule.next_run_at = some time → instantOf platform input.nextRunAt = some time) :
    ¬ Ahead (storedOn agent schedule.id) schedule ∧
      ∃ stored, storedOn (AgentOp.exec (.run statement) agent).2 schedule.id = some stored ∧ Carries platform schedule stored := by
  obtain ⟨cron, timezone, wireTask, json, written, merged, next, rfl, applies, reaches⟩ :=
    wire_statement_spec platform _ input now statement built
  obtain ⟨rfl, rfl, rfl, rfl, level, idle⟩ := wire_statement_config platform _ input now _ _ _ _ _ _ _ _ _ built
  have incoming : (mergeIncoming (storedOn agent schedule.id) input).revision = schedule.revision := by
    rw [mergeIncoming, revision]
    rfl
  have carried : (mergeIncoming (storedOn agent schedule.id) input).policy = schedule.policy := by
    rw [mergeIncoming, policy]
    rfl
  have same : written = schedule.revision := (level (incoming ▸ readable.revision)).trans incoming
  have positive : written ≠ 0 := by
    have first := readable.revision
    omega
  refine ⟨?_, ?_⟩
  · rintro ⟨stored, found, later⟩
    have older := (applies.stored (mergeLocal stored) (by rw [found]; rfl)).1
    rw [incoming] at older
    exact absurd older (Int.not_le.mpr later)
  · have found := find_upserted_scheduler agent.db
    rw [carried]
    simp only [storedOn, AgentOp.exec, Database.run, Statement.exec, found, id, if_pos]
    refine ⟨_, rfl, ?_⟩
    have reaches_row : schedule.enabled = true → ∀ time, instantOf platform schedule.next_run_at = some time →
        reachesInstant next time := by
      intro on time shown
      have enabledWire : input.enabled = true := enabled.trans on
      exact reaches enabledWire time (applies.wire enabledWire time (cursor time shown))
    have idle_row : schedule.enabled = false → next = none := fun off => idle (enabled.trans off)
    cases agent.db.schedulers.find? schedule.id with
    | none => exact row_carries platform schedule readable _ same enabled trigger task rfl idle_row reaches_row
    | some old => exact row_carries platform schedule readable _ same enabled trigger task rfl idle_row reaches_row

theorem upsert_from_wire_run (input : SchedulerWire) (now : Int) (agent : AgentState) :
    ((upsertFromWire platform input now).runIn AgentOp.exec agent).2 =
      match wireStatement platform (storedOn agent input.id) input now with
      | none => agent
      | some statement => (AgentOp.exec (.run statement) agent).2 := by
  simp only [upsertFromWire, SchedulerStore.get, Async.run_in_bind, Async.run_in_perform, AgentOp.exec, Async.run_in_pure]
  change _ = match wireStatement platform ((agent.db.schedulers.find? input.id).map rowToScheduler) input now with
    | none => agent
    | some statement => (AgentOp.exec (.run statement) agent).2
  cases wireStatement platform ((agent.db.schedulers.find? input.id).map rowToScheduler) input now with
  | none => rfl
  | some statement =>
      simp only [Async.run_in_bind, Async.run_in_perform]
      split <;> simp_all [Async.run_in_pure]

theorem upsert_scheduler_run (input : SchedulerWire) (nowMs now : Int) (agent : AgentState) :
    ((TaskQueue.upsertScheduler platform input nowMs now).runIn AgentOp.exec agent).2 =
      ((upsertFromWire platform
        { input with
          policy := input.policy.or (some DEFAULT_SCHEDULE_POLICY)
          computeNextIfMissing := some (nextCronRunAtIso platform input.cron input.timezone nowMs) } now).runIn
        AgentOp.exec agent).2 := by
  rw [TaskQueue.upsertScheduler, Async.run_in_bind]
  split
  · rename_i value after outcome
    rw [outcome]
    rfl
  · rename_i error after outcome
    rw [outcome]

theorem upsert_delivers (schedule : ScheduleRecord) (readable : Readable schedule) (agent : AgentState) (syncedAt nowMs now : Int) :
    Delivered platform schedule (storedOn agent schedule.id)
      (storedOn ((TaskQueue.upsertScheduler platform (wireOf (syncRequest platform schedule syncedAt)) nowMs now).runIn
        AgentOp.exec agent).2 schedule.id) := by
  let wire : SchedulerWire :=
    { wireOf (syncRequest platform schedule syncedAt) with
      policy := (wireOf (syncRequest platform schedule syncedAt)).policy.or (some DEFAULT_SCHEDULE_POLICY)
      computeNextIfMissing := some (nextCronRunAtIso platform schedule.expression schedule.timezone nowMs) }
  have ran : ((TaskQueue.upsertScheduler platform (wireOf (syncRequest platform schedule syncedAt)) nowMs now).runIn
      AgentOp.exec agent).2 = match wireStatement platform (storedOn agent schedule.id) wire now with
        | none => agent
        | some statement => (AgentOp.exec (.run statement) agent).2 :=
    (upsert_scheduler_run platform _ nowMs now agent).trans (upsert_from_wire_run platform wire now agent)
  rw [ran]
  cases built : wireStatement platform (storedOn agent schedule.id) wire now with
  | none =>
      obtain ⟨stored, found, older⟩ := wire_statement_none platform _ wire now built
      exact Or.inl ⟨⟨stored, found, older⟩, rfl⟩
  | some statement =>
      exact Or.inr (wire_statement_carries platform schedule readable agent wire now statement built rfl ⟨rfl, rfl⟩ rfl rfl
        rfl rfl (request_instant platform schedule syncedAt))

theorem upsert_elsewhere (request : SchedulerRequest) (agent : AgentState) (nowMs now : Int) (id : String)
    (other : id ≠ request.id) :
    storedOn ((TaskQueue.upsertScheduler platform (wireOf request) nowMs now).runIn AgentOp.exec agent).2 id =
      storedOn agent id := by
  rw [upsert_scheduler_run, upsert_from_wire_run]
  split
  · rfl
  · rename_i statement built
    obtain ⟨cron, timezone, task, json, revision, merged, next, rfl, -, -⟩ := wire_statement_spec platform _ _ now statement built
    have found := find_upserted_scheduler agent.db
    have named : ¬ (wireOf request).id = id := fun same => other same.symm
    simp only [storedOn, AgentOp.exec, Database.run, Statement.exec, found]
    rw [if_neg named]

end upsert

section runs

variable (platform : Platform)

def Estate.answersAll (estate : Estate) : Prop := ∀ n, (estate.exchanges n).fate = .answered

-- The agents after the schedule's upsert was served.
def Estate.served (estate : Estate) (schedule : ScheduleRecord) (syncedAt : Int) : Estate :=
  { estate with
    agents := Function.update estate.agents schedule.backend_id
      ((TaskQueue.upsertScheduler platform (wireOf (syncRequest platform schedule syncedAt)) estate.next.nowMs estate.next.now).runIn
        AgentOp.exec (estate.agents schedule.backend_id)).2
    requests := estate.requests + 1 }

theorem served_here (schedule : ScheduleRecord) (syncedAt : Int) (estate : Estate) :
    (estate.served platform schedule syncedAt).agents schedule.backend_id =
      ((TaskQueue.upsertScheduler platform (wireOf (syncRequest platform schedule syncedAt)) estate.next.nowMs estate.next.now).runIn
        AgentOp.exec (estate.agents schedule.backend_id)).2 :=
  Function.update_self ..

theorem served_elsewhere (schedule : ScheduleRecord) (syncedAt : Int) (estate : Estate) (backendId id : String)
    (other : id ≠ schedule.id) :
    storedOn ((estate.served platform schedule syncedAt).agents backendId) id = storedOn (estate.agents backendId) id := by
  by_cases here : backendId = schedule.backend_id
  · subst here
    rw [served_here]
    exact upsert_elsewhere platform _ _ _ _ id other
  · have kept : (estate.served platform schedule syncedAt).agents backendId = estate.agents backendId :=
      Function.update_of_ne here ..
    rw [kept]

theorem sync_answered (schedule : ScheduleRecord) (syncedAt : Int) (estate : Estate) (answered : estate.next.fate = .answered) :
    (sync platform schedule syncedAt).runIn (Estate.exec platform) estate =
      (.ok (), estate.served platform schedule syncedAt) := by
  have sent : Estate.exec platform (.upsertScheduler schedule.backend_id (syncRequest platform schedule syncedAt)) estate =
      (.ok (), estate.served platform schedule syncedAt) := by
    simp only [Estate.exec, Estate.request, answered, upsert_answers, Estate.served]
    rfl
  rw [sync_run, sent]

-- Every schedule of the list is delivered to its agent, and the agents keep all other rows.
theorem reconcile_each_delivers (syncedAt : Int) (schedules : List ScheduleRecord)
    (unique : (schedules.map ScheduleRecord.id).Nodup) (readable : ∀ schedule ∈ schedules, Readable schedule) (estate : Estate)
    (answered : estate.answersAll) :
    let after := ((reconcileEach platform syncedAt schedules).runIn (Estate.exec platform) estate).2
    after.cp = estate.cp ∧
      (∀ schedule ∈ schedules, Delivered platform schedule (storedOn (estate.agents schedule.backend_id) schedule.id)
        (storedOn (after.agents schedule.backend_id) schedule.id)) ∧
      ∀ backendId id, id ∉ schedules.map ScheduleRecord.id →
        storedOn (after.agents backendId) id = storedOn (estate.agents backendId) id := by
  induction schedules generalizing estate with
  | nil =>
      refine ⟨rfl, ?_, fun _ _ _ => rfl⟩
      intro schedule member
      cases member
  | cons schedule rest ih =>
      obtain ⟨absent, restUnique⟩ := List.nodup_cons.mp unique
      have sent := sync_answered platform schedule syncedAt estate (answered estate.requests)
      have elsewhere := served_elsewhere platform schedule syncedAt estate
      obtain ⟨cp, delivered, kept⟩ := ih restUnique (fun other member => readable other (List.mem_cons_of_mem _ member))
        (estate.served platform schedule syncedAt) answered
      intro after
      have final : after = ((reconcileEach platform syncedAt rest).runIn (Estate.exec platform)
          (estate.served platform schedule syncedAt)).2 := by
        have next := reconcile_each_next platform syncedAt schedule rest estate
        rwa [sent] at next
      rw [final]
      refine ⟨cp, ?_, ?_⟩
      · intro other member
        rcases List.mem_cons.mp member with rfl | later
        · rw [kept other.backend_id other.id absent]
          have here := upsert_delivers platform other (readable other List.mem_cons_self) (estate.agents other.backend_id)
            syncedAt estate.next.nowMs estate.next.now
          rwa [served_here]
        · have different : other.id ≠ schedule.id := fun same => absent (same ▸ List.mem_map_of_mem later)
          rw [← elsewhere other.backend_id other.id different]
          exact delivered other later
      · intro backendId id outside
        rw [List.map_cons, List.mem_cons, not_or] at outside
        rw [kept backendId id outside.2, elsewhere backendId id outside.1]

-- The rows one reconcile reads: the first two hundred by name.
def reconciledRows (cp : CpState) : List ScheduleRow := (cp.schedules.rows.insertionSort fun a b => a.name ≤ b.name).take 200

theorem reconcile_run (syncedAt : Int) (estate : Estate) :
    ((reconcile platform syncedAt).runIn (Estate.exec platform) estate).2 =
      ((reconcileEach platform syncedAt ((reconciledRows estate.cp).map toSchedule)).runIn (Estate.exec platform) estate).2 := by
  have listed : (listedSchedules estate.cp none none 201 0).take 200 = reconciledRows estate.cp := by
    simp [listedSchedules, reconciledRows, List.take_take]
  have page : (list ⟨none, none, some 200, none⟩).runIn (Estate.exec platform) estate =
      (.ok ⟨((listedSchedules estate.cp none none 201 0).take 200).map toSchedule,
        ((listedSchedules estate.cp none none 201 0).take 200).length,
        if 200 < (listedSchedules estate.cp none none 201 0).length then
          some (0 + ((listedSchedules estate.cp none none 201 0).take 200).length) else none⟩, estate) := rfl
  rw [reconcile, Async.run_in_bind, page, listed]

theorem reconciled_unique (cp : CpState) : (((reconciledRows cp).map toSchedule).map ScheduleRecord.id).Nodup := by
  have sorted : ((cp.schedules.rows.insertionSort fun a b => a.name ≤ b.name).map ScheduleRow.id).Nodup :=
    ((List.perm_insertionSort _ _).map ScheduleRow.id).nodup_iff.mpr cp.schedules.unique
  rw [List.map_map]
  exact sorted.sublist ((List.take_sublist 200 _).map ScheduleRow.id)

theorem reconciled_stored (cp : CpState) (row : ScheduleRow) (listed : row ∈ reconciledRows cp) : row ∈ cp.schedules.rows :=
  (List.perm_insertionSort _ _).mem_iff.mp (List.mem_of_mem_take listed)

theorem all_reconciled (cp : CpState) (few : cp.schedules.rows.length ≤ 200) (row : ScheduleRow)
    (stored : row ∈ cp.schedules.rows) : row ∈ reconciledRows cp := by
  rw [reconciledRows, List.take_of_length_le (by rwa [List.length_insertionSort])]
  exact (List.perm_insertionSort _ _).mem_iff.mpr stored

end runs

-- What the upsert of a listed schedule leaves is in step, unless a disabled schedule carries a cursor.
theorem delivered_reflects (platform : Platform) (schedule : ScheduleRecord) (before after : Option StoredScheduler)
    (delivered : Delivered platform schedule before after) :
    (∃ stored, after = some stored ∧ Reflects platform schedule stored) ↔
      (Ahead before schedule ∨ schedule.enabled = true ∨ instantOf platform schedule.next_run_at = none) := by
  rcases delivered with ⟨ahead, rfl⟩ | ⟨behind, stored, rfl, carries⟩
  · obtain ⟨stored, rfl, later⟩ := ahead
    have different : stored.revision ≠ schedule.revision := by omega
    refine ⟨fun _ => Or.inl ⟨stored, rfl, later⟩, fun _ => ⟨stored, rfl, ?_⟩⟩
    exact ⟨by omega, fun same => absurd same different, fun same => absurd same different, fun same => absurd same different,
      fun same => absurd same different, fun same => absurd same different⟩
  · constructor
    · rintro ⟨same, found, reflects⟩
      cases found
      cases on : schedule.enabled with
      | true => exact Or.inr (Or.inl rfl)
      | false =>
          refine Or.inr (Or.inr ?_)
          cases shown : instantOf platform schedule.next_run_at with
          | none => rfl
          | some time =>
              obtain ⟨reached, cursor, _⟩ := reflects.cursor carries.revision time shown
              rw [carries.idle on] at cursor
              cases cursor
    · intro condition
      refine ⟨stored, rfl, ?_⟩
      refine ⟨le_of_eq carries.revision.symm, fun _ => carries.enabled, fun _ => carries.trigger, fun _ => carries.task,
        fun _ => carries.policy, ?_⟩
      intro _ time shown
      rcases condition with ahead | on | none_shown
      · exact absurd ahead behind
      · exact carries.cursor on time shown
      · rw [none_shown] at shown
        cases shown

theorem some_unlisted (cp : CpState) (many : 200 < cp.schedules.rows.length) :
    ∃ row ∈ cp.schedules.rows, row ∉ reconciledRows cp := by
  by_contra none_left
  have listed : cp.schedules.rows ⊆ reconciledRows cp := by
    intro row stored
    by_contra outside
    exact none_left ⟨row, stored, outside⟩
  have distinct : cp.schedules.rows.Nodup := cp.schedules.unique.of_map
  have more := (List.subperm_of_subset distinct listed).length_le
  have most : (reconciledRows cp).length ≤ 200 := List.length_take_le _ _
  omega

section reconciled

variable (platform : Platform) (estate : Estate) (syncedAt : Int) (answered : estate.answersAll)

include answered

theorem reconcile_delivers :
    let after := ((reconcile platform syncedAt).runIn (Estate.exec platform) estate).2
    after.cp = estate.cp ∧
      (∀ row ∈ reconciledRows estate.cp, Delivered platform (toSchedule row)
        (storedOn (estate.agents row.backend_id) row.id) (storedOn (after.agents row.backend_id) row.id)) ∧
      ∀ row ∈ estate.cp.schedules.rows, row ∉ reconciledRows estate.cp →
        storedOn (after.agents row.backend_id) row.id = storedOn (estate.agents row.backend_id) row.id := by
  intro after
  have readable : ∀ schedule ∈ (reconciledRows estate.cp).map toSchedule, Readable schedule := by
    intro schedule member
    obtain ⟨row, _, rfl⟩ := List.mem_map.mp member
    exact to_schedule_readable row
  obtain ⟨cp, delivered, kept⟩ := reconcile_each_delivers platform syncedAt ((reconciledRows estate.cp).map toSchedule)
    (reconciled_unique estate.cp) readable estate answered
  rw [← reconcile_run platform syncedAt estate] at cp delivered kept
  refine ⟨cp, fun row member => delivered (toSchedule row) (List.mem_map_of_mem member), ?_⟩
  intro row stored outside
  refine kept row.backend_id row.id ?_
  rw [List.map_map, List.mem_map]
  rintro ⟨other, member, same⟩
  have found := estate.cp.schedules.find_of_mem other (reconciled_stored estate.cp other member)
  rw [show other.id = row.id from same, estate.cp.schedules.find_of_mem row stored] at found
  exact outside (Option.some.inj found ▸ member)

theorem listed_in_step (row : ScheduleRow) (listed : row ∈ reconciledRows estate.cp) :
    InStep platform ((reconcile platform syncedAt).runIn (Estate.exec platform) estate).2 (toSchedule row) ↔
      Ahead (storedOn (estate.agents row.backend_id) row.id) (toSchedule row) ∨ row.enabled = true ∨
        instantOf platform row.next_run_at = none := by
  have delivered := (reconcile_delivers platform estate syncedAt answered).2.1 row listed
  have served := delivered_reflects platform (toSchedule row) _ _ delivered
  have cursor : instantOf platform (toSchedule row).next_run_at = instantOf platform row.next_run_at :=
    instant_of_truthy platform row.next_run_at
  rw [cursor] at served
  exact served

theorem unlisted_in_step (row : ScheduleRow) (stored : row ∈ estate.cp.schedules.rows) (outside : row ∉ reconciledRows estate.cp) :
    InStep platform ((reconcile platform syncedAt).runIn (Estate.exec platform) estate).2 (toSchedule row) ↔
      InStep platform estate (toSchedule row) := by
  have same := (reconcile_delivers platform estate syncedAt answered).2.2 row stored outside
  simp only [InStep]
  rw [show (toSchedule row).backend_id = row.backend_id from rfl, show (toSchedule row).id = row.id from rfl, same]

theorem many_left_out (unknown : ∀ backendId id, storedOn (estate.agents backendId) id = none)
    (many : 200 < estate.cp.schedules.rows.length) :
    ¬ ∀ row ∈ ((reconcile platform syncedAt).runIn (Estate.exec platform) estate).2.cp.schedules.rows,
      InStep platform ((reconcile platform syncedAt).runIn (Estate.exec platform) estate).2 (toSchedule row) := by
  rw [(reconcile_delivers platform estate syncedAt answered).1]
  intro complete
  obtain ⟨row, stored, outside⟩ := some_unlisted estate.cp many
  obtain ⟨known, found, _⟩ := (unlisted_in_step platform estate syncedAt answered row stored outside).mp (complete row stored)
  rw [unknown] at found
  cases found

end reconciled

-- One reconcile brings the agents in step with D1 just in case the schedules past the first two hundred
-- by name are in step already, and no listed schedule is disabled yet carries a cursor.
theorem reconcile_complete (platform : Platform) (estate : Estate) (syncedAt : Int) (answered : estate.answersAll) :
    let after := ((reconcile platform syncedAt).runIn (Estate.exec platform) estate).2
    (∀ row ∈ after.cp.schedules.rows, InStep platform after (toSchedule row)) ↔
      (∀ row ∈ reconciledRows estate.cp, Ahead (storedOn (estate.agents row.backend_id) row.id) (toSchedule row) ∨
          row.enabled = true ∨ instantOf platform row.next_run_at = none) ∧
        ∀ row ∈ estate.cp.schedules.rows, row ∉ reconciledRows estate.cp → InStep platform estate (toSchedule row) := by
  intro after
  have listed := listed_in_step platform estate syncedAt answered
  have unlisted := unlisted_in_step platform estate syncedAt answered
  rw [(reconcile_delivers platform estate syncedAt answered).1]
  constructor
  · intro complete
    refine ⟨?_, ?_⟩
    · intro row member
      exact (listed row member).mp (complete row (reconciled_stored estate.cp row member))
    · intro row stored outside
      exact (unlisted row stored outside).mp (complete row stored)
  · rintro ⟨inside, beyond⟩ row stored
    by_cases member : row ∈ reconciledRows estate.cp
    · exact (listed row member).mpr (inside row member)
    · exact (unlisted row stored member).mpr (beyond row stored member)

def minutelyEstate : Estate := { emptyEstate [] with cp := controlPlaneWith (mirrored (minutely 3 none)) }

-- A schedule no agent knows yet is among the first two hundred.
theorem reconcile_complete_minutely :
    let after := ((reconcile utcMinutes 0).runIn (Estate.exec utcMinutes) minutelyEstate).2
    ∀ row ∈ after.cp.schedules.rows, InStep utcMinutes after (toSchedule row) := by
  refine (reconcile_complete utcMinutes minutelyEstate 0 fun _ => rfl).mpr ⟨?_, ?_⟩
  · intro row member
    cases List.mem_singleton.mp (reconciled_stored _ row member)
    exact Or.inr (Or.inl rfl)
  · intro row stored outside
    exact absurd (all_reconciled minutelyEstate.cp (by decide) row stored) outside

def crowdedId (n : Nat) : String := String.ofList ("00000000-0000-4000-8000-".toList ++ CivilDate.digits 12 n)

theorem crowded_id_injective (a b : Nat) (small : a < 10 ^ 12 ∧ b < 10 ^ 12) (same : crowdedId a = crowdedId b) : a = b := by
  have chars := List.append_cancel_left (String.ofList_injective same)
  have read := congrArg CivilDate.readDigits chars
  rw [CivilDate.read_digits_of_digits 12 a small.1, CivilDate.read_digits_of_digits 12 b small.2] at read
  exact Option.some.inj read

def crowdedRow (n : Nat) : ScheduleRow := { mirrored (minutely 1 none) with id := crowdedId n, name := crowdedId n }

-- Two hundred and one schedules that no agent knows yet.
def crowdedEstate : Estate :=
  { emptyEstate [] with
    cp :=
      { (emptyEstate []).cp with
        schedules :=
          { rows := (List.range 201).map crowdedRow
            unique := by
              rw [List.map_map]
              refine (List.nodup_range).map_on ?_
              intro a left b right same
              have first := List.mem_range.mp left
              have second := List.mem_range.mp right
              exact crowded_id_injective a b (by omega) same } } }

theorem crowded_rows : crowdedEstate.cp.schedules.rows = (List.range 201).map crowdedRow := rfl

theorem crowded_size : crowdedEstate.cp.schedules.rows.length = 201 := by
  rw [crowded_rows, List.length_map, List.length_range]

theorem crowded_unknown (backendId id : String) : storedOn (crowdedEstate.agents backendId) id = none := rfl

-- One of the two hundred and one is sent to no agent, though every request is answered.
theorem reconcile_misses_schedule :
    let after := ((reconcile utcMinutes 0).runIn (Estate.exec utcMinutes) crowdedEstate).2
    crowdedEstate.answersAll ∧ crowdedEstate.cp.schedules.rows.length = 201 ∧
      ¬ ∀ row ∈ after.cp.schedules.rows, InStep utcMinutes after (toSchedule row) :=
  ⟨fun _ => rfl, crowded_size,
    many_left_out utcMinutes crowdedEstate 0 (fun _ => rfl) crowded_unknown (by rw [crowded_size]; decide)⟩

end Vacps.ControlPlane
