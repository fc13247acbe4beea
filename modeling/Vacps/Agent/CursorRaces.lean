import Vacps.Agent.Claim

/- Interleaved upserts and claims of the schedulers table: which writes move a row's revision and
   cursor forward only. -/
set_option autoImplicit false

namespace Vacps.SchedulerStore

open Library

section merge

variable (platform : Platform)

def instantOf (text : Option String) : Option Int := (truthy text).bind platform.dateParse

theorem canonical_of_instant (text : Option String) (time : Int) (shown : instantOf platform text = some time) :
    canonicalText platform text = some (toISOString time) := by
  obtain ⟨raw, present, parsed⟩ := Option.bind_eq_some_iff.mp shown
  rw [canonicalText, present, Option.bind_some, parsed]
  rfl

theorem instant_valid (text : Option String) (time : Int) (shown : instantOf platform text = some time) : validTime time := by
  obtain ⟨raw, _, parsed⟩ := Option.bind_eq_some_iff.mp shown
  exact date_parse_valid platform.otherDate raw time parsed

theorem instant_of_iso (time : Int) (valid : validTime time) : instantOf platform (some (toISOString time)) = some time := by
  rw [instantOf, truthy_iso, Option.bind_some, platform_parse_iso platform time valid]

-- The merged cursor is at or after this instant.
def reachesInstant (next : Option String) (time : Int) : Prop :=
  ∃ reached, next = some (toISOString reached) ∧ validTime reached ∧ time ≤ reached

theorem instant_of_truthy (text : Option String) : instantOf platform (truthy text) = instantOf platform text := by
  rw [instantOf, truthy_truthy, ← instantOf]

def laterInstant (a b : Option Int) : Option Int :=
  match a, b with
  | some am, some bm => some (max am bm)
  | some am, none => some am
  | none, later => later

theorem later_text_eq (a b : Option String) :
    laterUtcIso platform.otherDate a b =
      (laterInstant (instantOf platform a) (instantOf platform b)).map toISOString := by
  unfold laterUtcIso instantOf Platform.dateParse
  cases (truthy a).bind (dateParse platform.otherDate) <;> cases (truthy b).bind (dateParse platform.otherDate) <;> rfl

theorem later_reaches (a b : Option String) (time : Int)
    (shown : instantOf platform a = some time ∨ instantOf platform b = some time) :
    reachesInstant (laterUtcIso platform.otherDate a b) time := by
  have valid := fun text => instant_valid platform text
  rw [later_text_eq]
  cases first : instantOf platform a with
  | none =>
      cases second : instantOf platform b with
      | none => simp [first, second] at shown
      | some bm =>
          rw [first, second] at shown
          exact ⟨bm, rfl, valid b bm second, by simp at shown; omega⟩
  | some am =>
      cases second : instantOf platform b with
      | none =>
          rw [first, second] at shown
          exact ⟨am, rfl, valid a am first, by simp at shown; omega⟩
      | some bm =>
          have aValid := valid a am first
          have bValid := valid b bm second
          rw [first, second] at shown
          refine ⟨max am bm, rfl, ?_, by simp at shown; omega⟩
          rcases max_choice am bm with left | right
          · rwa [left]
          · rwa [right]

-- What a merge that applies does to revision and cursor, whatever it was merged from.
structure Merged (current : Option (SchedulerMergeLocal CreateTaskInput)) (incoming : SchedulerMergeIncoming CreateTaskInput)
    (revision : Int) (enabled : Bool) (next : Option String) : Prop where
  enabled : enabled = incoming.enabled
  newer : incoming.revision ≤ revision
  stored : ∀ local_, current = some local_ → local_.revision ≤ incoming.revision ∧ revision = incoming.revision
  wire : incoming.enabled = true → ∀ time, instantOf platform incoming.nextRunAt = some time → reachesInstant next time
  kept : incoming.enabled = true → ∀ local_ time, current = some local_ → local_.revision = revision →
    instantOf platform local_.nextRunAt = some time → reachesInstant next time

-- At one revision an enabled wire leaves the later of the two cursors, whichever are there.
theorem merge_same_revision {Task : Type} (stored : SchedulerMergeLocal Task) (incoming : SchedulerMergeIncoming Task)
    (same : stored.revision = incoming.revision) (on : incoming.enabled = true) :
    mergeSchedulerWire platform (some stored) incoming =
      .apply stored.revision incoming.cron incoming.timezone incoming.enabled incoming.task incoming.policy
        (laterUtcIso platform.otherDate stored.nextRunAt incoming.nextRunAt) := by
  have notOlder : ¬ incoming.revision < stored.revision := by omega
  have notNewer : ¬ stored.revision < incoming.revision := by omega
  simp only [mergeSchedulerWire, if_neg notOlder, if_neg notNewer, on, Bool.not_true, Bool.false_eq_true, if_false]
  have keptAgain := truthy_truthy stored.nextRunAt
  have wireAgain := truthy_truthy incoming.nextRunAt
  cases kept : truthy stored.nextRunAt with
  | none =>
      cases wire : truthy incoming.nextRunAt with
      | none =>
          simp only [laterUtcIso, kept, wire, Option.bind_none]
          rfl
      | some raw =>
          rw [wire] at wireAgain
          simp only [laterUtcIso, kept, wire, wireAgain, Option.bind_some, Option.bind_none, Platform.dateParse]
          cases dateParse platform.otherDate raw <;> rfl
  | some old =>
      rw [kept] at keptAgain
      cases wire : truthy incoming.nextRunAt with
      | none =>
          simp only [laterUtcIso, kept, wire, keptAgain, Option.bind_some, Option.bind_none, Platform.dateParse]
          cases dateParse platform.otherDate old <;> rfl
      | some raw =>
          rw [wire] at wireAgain
          simp only [laterUtcIso, kept, wire, keptAgain, wireAgain]

theorem merge_applies (current : Option (SchedulerMergeLocal CreateTaskInput)) (incoming : SchedulerMergeIncoming CreateTaskInput)
    (revision : Int) (cron timezone : String) (enabled : Bool) (task : CreateTaskInput) (policy : SchedulePolicy)
    (next : Option String)
    (merged : mergeSchedulerWire platform current incoming = .apply revision cron timezone enabled task policy next) :
    Merged platform current incoming revision enabled next := by
  have reaches : ∀ text time, instantOf platform text = some time →
      reachesInstant ((truthy text).bind fun raw => canonicalUtcIso (platform.dateParse raw)) time := by
    intro text time shown
    exact ⟨time, canonical_of_instant platform text time shown, instant_valid platform text time shown, Int.le_refl time⟩
  cases current with
  | none =>
      cases merged
      refine ⟨rfl, Int.le_max_right 1 incoming.revision, (fun _ found => nomatch found), ?_, fun _ _ _ found => nomatch found⟩
      intro on time shown
      rw [if_pos on]
      exact reaches incoming.nextRunAt time shown
  | some stored =>
      by_cases older : incoming.revision < stored.revision
      · simp only [mergeSchedulerWire, if_pos older] at merged
        cases merged
      · by_cases newer : stored.revision < incoming.revision
        · simp only [mergeSchedulerWire, if_neg older, if_pos newer] at merged
          cases merged
          refine ⟨rfl, Int.le_refl _, fun local_ found => ?_, ?_, fun _ local_ time found same => ?_⟩
          · cases found
            exact ⟨by omega, rfl⟩
          · intro on time shown
            rw [if_pos on]
            exact reaches incoming.nextRunAt time shown
          · cases found
            omega
        · have same : stored.revision = incoming.revision := by omega
          by_cases on : incoming.enabled = true
          · rw [merge_same_revision platform stored incoming same on] at merged
            cases merged
            refine ⟨rfl, by omega, fun local_ found => ?_, fun _ time shown => ?_, fun _ local_ time found _ shown => ?_⟩
            · cases found
              exact ⟨by omega, same⟩
            · exact later_reaches platform stored.nextRunAt incoming.nextRunAt time (Or.inr shown)
            · cases found
              exact later_reaches platform stored.nextRunAt incoming.nextRunAt time (Or.inl shown)
          · simp only [mergeSchedulerWire, if_neg older, if_neg newer, on, Bool.not_false, if_true] at merged
            cases merged
            refine ⟨(by simpa using on), by omega, fun local_ found => ?_, fun enabled => absurd enabled on,
              fun enabled => absurd enabled on⟩
            cases found
            exact ⟨by omega, same⟩

-- The row an upsert writes, whatever it read before.
theorem wire_statement_spec (current : Option StoredScheduler) (input : SchedulerWire) (now : Int) (statement : Statement)
    (built : wireStatement platform current input now = some statement) :
    ∃ cron timezone task policy revision merged next,
      statement = .upsertScheduler input.id cron timezone input.enabled task next revision policy now ∧
      Merged platform (current.map mergeLocal) (mergeIncoming current input) revision input.enabled merged ∧
      (input.enabled = true → ∀ time, reachesInstant merged time → reachesInstant next time) := by
  unfold wireStatement at built
  cases result : mergeSchedulerWire platform (current.map mergeLocal) (mergeIncoming current input) with
  | ignore =>
      rw [result] at built
      cases built
  | apply revision cron timezone enabled task policy merged =>
      rw [result] at built
      cases built
      have applies := merge_applies platform _ _ revision cron timezone enabled task policy merged result
      have same : enabled = input.enabled := applies.enabled
      subst same
      refine ⟨cron, timezone, task, policyJson policy, revision, merged, _, rfl, applies, ?_⟩
      intro on time reaches
      obtain ⟨reached, rfl, valid, bound⟩ := reaches
      have canonical := canonical_of_instant platform _ reached (instant_of_iso platform reached valid)
      have cursor : wireCursor platform input input.enabled (some (toISOString reached)) = some (toISOString reached) := by
        rw [canonicalText, truthy_iso, Option.bind_some] at canonical
        simp only [wireCursor, on, truthy_iso, Option.isNone_some, Bool.and_false, Bool.false_eq_true, if_false, if_true,
          Option.bind_some, canonical]
      exact ⟨reached, by rw [cursor, canonical], valid, bound⟩

end merge

-- A row moved forward: its revision not down, and its cursor not back while revision and flag stay.
structure Forward (platform : Platform) (before after : SchedulerRow) : Prop where
  revision : before.revision ≤ after.revision
  cursor : after.revision = before.revision → before.enabled = true → after.enabled = true → ∀ a b,
    instantOf platform before.next_run_at = some a → instantOf platform after.next_run_at = some b → a ≤ b

def movesForward (platform : Platform) (id : String) (before after : Database) : Prop :=
  ∀ row, before.schedulers.find? id = some row →
    ∃ moved, after.schedulers.find? id = some moved ∧ Forward platform row moved

-- The wire is not outrun by the row: the row shows what the upsert read, or the wire is newer, or at
-- the row's revision it has nothing to take back.
def keepsPace (platform : Platform) (input : SchedulerWire) (current : Option StoredScheduler) (row : SchedulerRow) : Prop :=
  (∃ stored, current = some stored ∧ stored.revision = (rowToScheduler row).revision ∧
      stored.nextRunAt = (rowToScheduler row).nextRunAt) ∨
    row.revision < (mergeIncoming current input).revision ∨
    ((mergeIncoming current input).revision = row.revision ∧
      (input.enabled = false ∨ row.enabled = false ∨ ∀ cursor, instantOf platform row.next_run_at = some cursor →
        ∃ time, instantOf platform input.nextRunAt = some time ∧ cursor ≤ time))

theorem forward_refl (platform : Platform) (id : String) (db : Database) : movesForward platform id db db := by
  intro row found
  refine ⟨row, found, Int.le_refl _, ?_⟩
  intro _ _ _ a b first second
  cases first.symm.trans second
  exact Int.le_refl a

-- A merged row against the row it replaces: the merge may have seen another one.
theorem merged_forward (platform : Platform) (input : SchedulerWire) (current : Option StoredScheduler)
    (row after : SchedulerRow) (revision : Int) (merged : Option String)
    (written : Merged platform (current.map mergeLocal) (mergeIncoming current input) revision input.enabled merged)
    (cursor : input.enabled = true → ∀ time, reachesInstant merged time → reachesInstant after.next_run_at time)
    (paced : keepsPace platform input current row) (afterRevision : after.revision = revision)
    (afterEnabled : after.enabled = input.enabled) : Forward platform row after := by
  have reached : ∀ a b, reachesInstant after.next_run_at a → instantOf platform after.next_run_at = some b → a ≤ b := by
    intro a b reaches second
    obtain ⟨time, shown, valid, bound⟩ := reaches
    rw [shown, instant_of_iso platform time valid] at second
    cases second
    exact bound
  have newer := written.newer
  rcases paced with ⟨stored, rfl, sameRevision, sameCursor⟩ | ahead | ⟨level, harmless⟩
  · obtain ⟨older, exact_⟩ := written.stored (mergeLocal stored) rfl
    have local_ : (mergeLocal stored).revision = stored.revision := rfl
    have zero : (rowToScheduler row).revision = if row.revision = 0 then 1 else row.revision := rfl
    refine ⟨by split at zero <;> omega, ?_⟩
    intro same before on a b first second
    have kept : instantOf platform (mergeLocal stored).nextRunAt = some a := by
      have shown : (mergeLocal stored).nextRunAt = truthy (truthy row.next_run_at) := by
        rw [← show (rowToScheduler row).nextRunAt = truthy row.next_run_at from rfl, ← sameCursor]
        rfl
      rw [shown, instant_of_truthy, instant_of_truthy]
      exact first
    have enabled : input.enabled = true := afterEnabled.symm.trans on
    refine reached a b (cursor enabled a (written.kept enabled (mergeLocal stored) a rfl ?_ kept)) second
    split at zero <;> omega
  · refine ⟨by omega, ?_⟩
    intro same
    omega
  · refine ⟨by omega, ?_⟩
    intro same before on a b first second
    have enabled : input.enabled = true := afterEnabled.symm.trans on
    rcases harmless with off | off | later
    · rw [enabled] at off
      cases off
    · rw [before] at off
      cases off
    · obtain ⟨time, shown, bound⟩ := later a first
      exact Int.le_trans bound (reached time b (cursor enabled time (written.wire enabled time shown)) second)

theorem upsert_forward (platform : Platform) (input : SchedulerWire) (current : Option StoredScheduler) (now : Int)
    (statement : Statement) (db : Database) (id : String)
    (built : wireStatement platform current input now = some statement)
    (paced : ∀ row, db.schedulers.find? input.id = some row → keepsPace platform input current row) :
    movesForward platform id db (db.run statement).2 := by
  obtain ⟨cron, timezone, task, policy, revision, merged, next, rfl, written, cursor⟩ :=
    wire_statement_spec platform current input now statement built
  intro row found
  have after := find_upserted_scheduler db
    ⟨input.id, cron, timezone, input.enabled, task, none, next, revision, none, some policy, now⟩ id
  by_cases same : input.id = id
  · rw [if_pos same, found] at after
    subst same
    exact ⟨_, after, merged_forward platform input current row _ revision merged written cursor (paced row found) rfl rfl⟩
  · rw [if_neg same, found] at after
    obtain ⟨moved, still, forward⟩ := forward_refl platform id db row found
    cases still.symm.trans found
    exact ⟨row, after, forward⟩

theorem claim_cursor_later (platform : Platform) (schedule : StoredScheduler) (nowMs : Int) (raw : String) (plan : MisfirePlan)
    (spec : schedulePlan platform schedule nowMs raw = some plan) (cursor : truthy schedule.nextRunAt = some raw)
    (row : SchedulerRow) (matched : row.matches schedule.id schedule.revision plan.scheduledForRaw = true) (a b : Int)
    (first : instantOf platform row.next_run_at = some a) (second : instantOf platform plan.advancedNext = some b) : a ≤ b := by
  obtain ⟨start, parsed, due, _, next, rawText, _⟩ := schedule_plan_spec platform schedule nowMs raw plan spec
  have shown : row.next_run_at = some raw := by
    simp only [SchedulerRow.matches, Bool.and_eq_true, beq_iff_eq] at matched
    rw [matched.2.2, rawText]
  have origin : a = start := by
    rw [shown, ← cursor, instant_of_truthy, instantOf, cursor, Option.bind_some, parsed] at first
    exact (Option.some.inj first).symm
  rw [next] at second
  cases target : (slotPlan (cronChain platform schedule.cron schedule.timezone) schedule.policy start nowMs).2 with
  | none =>
      rw [target] at second
      cases second
  | some time =>
      obtain ⟨k, low, reached⟩ := slot_plan_reaches _ schedule.policy start nowMs time due target
      have valid := cron_chain_nth_valid platform schedule.cron schedule.timezone start time k
        (date_parse_valid platform.otherDate raw start parsed) reached
      rw [target, Option.map_some, instant_of_iso platform time valid] at second
      cases second
      rw [origin]
      exact Chain.nth_le _ start _ k reached

theorem claim_forward (platform : Platform) (schedule : StoredScheduler) (nowMs now : Int) (plan : MisfirePlan) (db : Database)
    (id : String) (planned : claimPlan platform schedule nowMs = some plan) :
    movesForward platform id db (db.transaction (claimSteps platform schedule plan now)).2 := by
  obtain ⟨raw, _, cursor, spec⟩ := claim_plan_spec platform schedule nowMs plan planned
  have distinct := planned_slots_distinct platform schedule nowMs raw plan spec
  have transaction := claim_transaction platform db schedule now plan distinct
  split at transaction
  · obtain ⟨error, failed⟩ := transaction
    rw [failed]
    exact forward_refl platform id db
  · obtain ⟨after, ran, _, schedulers⟩ := transaction
    rw [ran]
    intro row found
    have table := congrArg (fun table => Table.find? table id) schedulers
    have updated := db.schedulers.find_update (SchedulerRow.matches schedule.id schedule.revision plan.scheduledForRaw)
      (SchedulerRow.claim plan.advancedNext (toISOString plan.scheduledForMs) now) (fun _ => rfl) id
    rw [found, Option.map_some] at updated
    by_cases matched : row.matches schedule.id schedule.revision plan.scheduledForRaw = true
    · rw [if_pos matched] at updated
      refine ⟨_, table.trans updated, Int.le_refl _, ?_⟩
      intro _ _ _ a b first second
      exact claim_cursor_later platform schedule nowMs raw plan spec cursor row matched a b first second
    · rw [if_neg matched] at updated
      obtain ⟨moved, still, forward⟩ := forward_refl platform id db row found
      cases still.symm.trans found
      exact ⟨row, table.trans updated, forward⟩

inductive ScheduleCall where
  | upsert (input : SchedulerWire) (now : Int)
  | claim (schedule : StoredScheduler) (nowMs now : Int)

def ScheduleCall.body (platform : Platform) : ScheduleCall → Agent Unit
  | .upsert input now => do
      let _ ← upsertFromWire platform input now
      pure ()
  | .claim schedule nowMs now => do
      let _ ← claimAndEnqueue platform schedule nowMs now
      pure ()

abbrev SchedulePool : Type := Pool AgentOp AgentOp.Result AgentError Unit ScheduleCall AgentState

-- Where a call stands between its database calls.
inductive SchedulePlace where
  | reading
  | writing
  | claiming
  | done

open Classical in
noncomputable def scheduleNext (platform : Platform) :
    ScheduleCall → SchedulePlace → AgentOp → AgentState → Option SchedulePlace
  | .upsert _ _, .reading, .selectScheduler _, _ => some .writing
  | .upsert input now, .writing, .run statement, _ =>
      if ∃ current, wireStatement platform current input now = some statement then some .done else none
  | .claim schedule nowMs now, .claiming, .transaction steps, _ =>
      if ∃ plan, claimPlan platform schedule nowMs = some plan ∧ steps = claimSteps platform schedule plan now
      then some .done else none
  | _, _, _, _ => none

def ScheduleCall.entry : ScheduleCall → SchedulePlace
  | .upsert _ _ => .reading
  | .claim _ _ _ => .claiming

theorem schedule_call_follows (platform : Platform) (call : ScheduleCall) :
    (call.body platform).Follows AgentOp.exec (scheduleNext platform call) call.entry fun _ _ => True := by
  cases call with
  | upsert input now =>
      intro agent
      refine ⟨.writing, rfl, ?_⟩
      cases built : wireStatement platform ((agent.db.schedulers.find? input.id).map rowToScheduler) input now with
      | none => simp only [AgentOp.exec, Bind.bind, Async.bind, Pure.pure, built, Async.Follows]
      | some statement =>
          simp only [AgentOp.exec, Bind.bind, Async.bind, Pure.pure, built, Vacps.call, Async.perform]
          intro later
          refine ⟨.done, if_pos ⟨_, built⟩, ?_⟩
          cases (AgentOp.exec (.run statement) later).1 <;> exact trivial
  | claim schedule nowMs now =>
      cases planned : claimPlan platform schedule nowMs with
      | none =>
          obtain ⟨reason, program⟩ := claim_unplanned platform schedule nowMs now planned
          rw [ScheduleCall.body, program]
          exact trivial
      | some plan =>
          rw [ScheduleCall.body, claim_planned platform schedule nowMs now plan planned]
          intro agent
          refine ⟨.done, if_pos ⟨plan, planned, rfl⟩, ?_⟩
          cases (AgentOp.exec (.transaction (claimSteps platform schedule plan now)) agent).1 <;> exact trivial

-- What the places allow: a read, a merged write, or a planned claim.
theorem schedule_next_cases (platform : Platform) (call : ScheduleCall) (place : SchedulePlace) (op : AgentOp)
    (agent : AgentState) (there : SchedulePlace) (moved : scheduleNext platform call place op agent = some there) :
    (∃ key, op = .selectScheduler key) ∨
      (∃ input now statement, call = .upsert input now ∧ op = .run statement) ∨
      ∃ schedule nowMs now plan, claimPlan platform schedule nowMs = some plan ∧
        op = .transaction (claimSteps platform schedule plan now) := by
  unfold scheduleNext at moved
  split at moved
  · exact Or.inl ⟨_, rfl⟩
  · exact Or.inr (Or.inl ⟨_, _, _, rfl, rfl⟩)
  · split at moved
    · obtain ⟨plan, planned, rfl⟩ := ‹∃ plan, _›
      exact Or.inr (Or.inr ⟨_, _, _, plan, planned, rfl⟩)
    · cases moved
  · cases moved

-- The write about to be made was merged from a row that the stored one has not outrun.
def unraced (platform : Platform) : SchedulePool → PoolEvent ScheduleCall → Prop
  | _, .start _ => True
  | pool, .step i => ∀ input now statement rest, pool.threads[i]? = some ⟨.upsert input now, .call (.run statement) rest⟩ →
      ∃ current, wireStatement platform current input now = some statement ∧
        ∀ row, pool.state.db.schedulers.find? input.id = some row → keepsPace platform input current row

section runs

variable (platform : Platform) (start : AgentState) (id : String)

def scheduleRun (events : List (PoolEvent ScheduleCall)) : SchedulePool :=
  Pool.run AgentOp.exec (ScheduleCall.body platform) ⟨start, []⟩ events

theorem schedule_run_aligned (events : List (PoolEvent ScheduleCall)) :
    ∃ places, Aligned AgentOp.exec (scheduleNext platform) (fun _ _ _ => True) (scheduleRun platform start events).threads
      places := by
  have outlined := run_outline AgentOp.exec (scheduleNext platform) (ScheduleCall.body platform) ScheduleCall.entry
    (fun _ _ _ => True) (schedule_call_follows platform) (fun _ _ => True) (fun _ _ => True) start trivial
    (fun _ _ _ _ _ => trivial) (fun _ _ _ _ _ _ _ _ _ _ _ _ _ _ => trivial) events (fun _ _ _ _ => trivial)
  obtain ⟨places, aligned, _⟩ := outlined
  exact ⟨places, aligned⟩

theorem unraced_step_forward (pool : SchedulePool) (places : List SchedulePlace)
    (aligned : Aligned AgentOp.exec (scheduleNext platform) (fun _ _ _ => True) pool.threads places)
    (event : PoolEvent ScheduleCall) (allowed : unraced platform pool event) :
    movesForward platform id pool.state.db (pool.perform AgentOp.exec (ScheduleCall.body platform) event).state.db := by
  cases event with
  | start call => exact forward_refl platform id pool.state.db
  | step i =>
      rcases advance_cases AgentOp.exec pool i with lost | ⟨call, op, rest, found, taken⟩
      · rw [Pool.perform, lost]
        exact forward_refl platform id pool.state.db
      · obtain ⟨place, _, follows⟩ := aligned_place _ _ _ _ _ aligned i _ found
        obtain ⟨there, moved, _⟩ := follows pool.state
        rw [Pool.perform, taken]
        rcases schedule_next_cases platform call place op pool.state there moved with
          ⟨key, rfl⟩ | ⟨input, now, statement, rfl, rfl⟩ | ⟨schedule, nowMs, now, plan, planned, rfl⟩
        · exact forward_refl platform id pool.state.db
        · obtain ⟨current, built, paced⟩ := allowed input now statement rest found
          exact upsert_forward platform input current now statement pool.state.db id built paced
        · exact claim_forward platform schedule nowMs now plan pool.state.db id planned

-- The claim's law over every run in which no upsert writes what it read too long ago: each step moves
-- each row forward, so no stretch of the run lowers a revision.
theorem unraced_runs_forward (events : List (PoolEvent ScheduleCall))
    (guarded : Pool.Guarded AgentOp.exec (ScheduleCall.body platform) (unraced platform) ⟨start, []⟩ events) :
    (∀ before event after, events = before ++ event :: after →
        movesForward platform id (scheduleRun platform start before).state.db
          (scheduleRun platform start (before ++ [event])).state.db) ∧
      ∀ before after, events = before ++ after → ∀ row, (scheduleRun platform start before).state.db.schedulers.find? id = some row →
        ∃ last, (scheduleRun platform start events).state.db.schedulers.find? id = some last ∧ row.revision ≤ last.revision := by
  have steps : ∀ before event after, events = before ++ event :: after →
      movesForward platform id (scheduleRun platform start before).state.db
        (scheduleRun platform start (before ++ [event])).state.db := by
    intro before event after split
    obtain ⟨places, aligned⟩ := schedule_run_aligned platform start before
    have step := unraced_step_forward platform id _ places aligned event (guarded before event after split)
    rwa [scheduleRun, scheduleRun, run_append]
  refine ⟨steps, ?_⟩
  intro before after split
  induction after generalizing before with
  | nil =>
      intro row found
      rw [List.append_nil] at split
      subst split
      exact ⟨row, found, Int.le_refl _⟩
  | cons event rest ih =>
      intro row found
      obtain ⟨moved, there, forward⟩ := steps before event rest split row found
      obtain ⟨last, reached, order⟩ := ih (before ++ [event]) (by rw [split]; simp) moved there
      exact ⟨last, reached, Int.le_trans forward.revision order⟩

end runs

def wireAt (revision : Int) (next : String) : SchedulerWire where
  id := "schedule"
  cron := "* * * * *"
  timezone := "UTC"
  enabled := true
  task := nightlyTask
  revision := some revision
  policy := none
  nextRunAt := some next
  computeNextIfMissing := none

theorem unraced_upsert_forward :
    let events : List (PoolEvent ScheduleCall) :=
      [.start (.upsert (wireAt 2 "1970-01-01T00:05:00.000Z") 0), .step 0, .step 0]
    movesForward utcMinutes "schedule" (scheduleRun utcMinutes (agentWith (minutely 1 none)) (events.take 2)).state.db
      (scheduleRun utcMinutes (agentWith (minutely 1 none)) events).state.db := by
  intro events
  refine (unraced_runs_forward utcMinutes (agentWith (minutely 1 none)) "schedule" events ?_).1 (events.take 2) (.step 0) [] rfl
  refine guarded_cons _ _ _ _ _ _ trivial (guarded_cons _ _ _ _ _ _ ?_ (guarded_cons _ _ _ _ _ _ ?_ (guarded_nil _ _ _ _)))
  · intro input now statement rest found
    cases found
  · intro input now statement rest found
    cases found
    refine ⟨some (rowToScheduler (minutely 1 none)), rfl, fun row stored => ?_⟩
    cases stored
    exact Or.inl ⟨_, rfl, rfl, rfl⟩

-- Two upserts read the row at revision 1; the newer one writes first.
theorem raced_upsert_rewinds :
    let events : List (PoolEvent ScheduleCall) :=
      [.start (.upsert (wireAt 3 "1970-01-01T00:30:00.000Z") 0), .start (.upsert (wireAt 2 "1970-01-01T00:10:00.000Z") 0),
        .step 0, .step 1, .step 0, .step 1]
    let stored (n : Nat) := ((scheduleRun utcMinutes (agentWith (minutely 1 none)) (events.take n)).state.db.schedulers.find?
      "schedule").map fun row => (row.revision, row.next_run_at)
    stored 5 = some (3, some "1970-01-01T00:30:00.000Z") ∧ stored 6 = some (2, some "1970-01-01T00:10:00.000Z") := by
  decide +kernel

end Vacps.SchedulerStore
