import Vacps.Agent.Claim
import Vacps.ControlPlane.OccurrenceAck

/- The cursor the agent stores for a claim against the one the control plane computes from its ack. -/
set_option autoImplicit false

namespace Vacps.ControlPlane

open Library SchedulerStore

section slots

variable (chain : Chain Int) (policy : SchedulePolicy)

-- The control plane's advance, on instants.
def ackedSlot (start now : Int) (inserted : Nat) : Option Int :=
  if policy.misfire = .catch_up ∧ inserted ≠ 0 then chain.nth start (min 32 inserted) else chain.escape now 32 start

-- When the count of inserted tasks leads where the plan went. Without catch_up it always does.
def advancesAlike (start now : Int) (inserted : Nat) : Prop :=
  policy.misfire ≠ .catch_up ∨
    (inserted ≠ 0 ∧ inserted = (chain.due now (catchUpCount policy) start).length ∧ keepsBacklog chain policy start now) ∨
    (inserted = 0 ∧
      ((∀ slot, chain.nth start (chain.due now (catchUpCount policy) start).length = some slot → now < slot) ∨
        ((chain.due now (catchUpCount policy) start).length = 32 ∧ ∃ slot, chain.nth start 33 = some slot ∧ now < slot)))

theorem nth_differs (start slot : Int) (m n : Nat) (less : m < n) (reached : chain.nth start m = some slot) :
    chain.nth start m ≠ chain.nth start n := by
  intro same
  rw [reached] at same
  exact absurd (chain.nth_index start slot m n reached same.symm) (Nat.ne_of_lt less)

-- Some tasks went in: the control plane counts their slots, the agent may have passed more.
theorem agree_of_inserted (start now : Int) (inserted : Nat) (inside : start ≤ now)
    (bound : inserted ≤ (chain.due now (catchUpCount policy) start).length) :
    chain.nth start (min 32 inserted) = catchUpNext chain (catchUpCount policy) start now ↔
      inserted = (chain.due now (catchUpCount policy) start).length ∧ keepsBacklog chain policy start now := by
  obtain ⟨m, _, cursor, more, passed, keeps, _⟩ := catch_up_step chain policy start now inside
  have limit := chain.due_bound now start (catchUpCount policy)
  have cap := (catch_up_count_bounds policy).2
  rw [cursor, Nat.min_eq_right (by omega), ← keeps]
  constructor
  · intro same
    have index : inserted = m := by
      rcases Nat.lt_or_eq_of_le (Nat.le_trans bound more) with less | equal
      · obtain ⟨slot, reached, _⟩ := passed inserted less
        exact absurd same (nth_differs chain start slot inserted m less reached)
      · exact equal
    omega
  · rintro ⟨whole, exact_⟩
    rw [whole, ← exact_]

section none_inserted

variable (start now : Int) (inside : start ≤ now)

include inside

-- The first slot the plan did not list is past now: both advances stop there.
theorem agree_past (past : ∀ slot, chain.nth start (chain.due now (catchUpCount policy) start).length = some slot → now < slot) :
    chain.escape now 32 start = catchUpNext chain (catchUpCount policy) start now := by
  have limit := chain.due_bound now start (catchUpCount policy)
  have cap := (catch_up_count_bounds policy).2
  obtain ⟨rest, shape⟩ := chain.due_nonempty now start (catchUpCount policy) (catch_up_count_bounds policy).1 inside
  have positive : 1 ≤ (chain.due now (catchUpCount policy) start).length := by rw [shape]; simp
  obtain ⟨j, low, high, result, within, ending⟩ := chain.escape_spec now start 32
  obtain ⟨m, _, cursor, more, passed, _, _⟩ := catch_up_step chain policy start now inside
  have mStops : m = (chain.due now (catchUpCount policy) start).length := by
    by_contra further
    obtain ⟨slot, here, due⟩ := passed _ (Nat.lt_of_le_of_ne more (Ne.symm further))
    exact absurd (past slot here) (not_lt.mpr due)
  have jStops : j = (chain.due now (catchUpCount policy) start).length := by
    rcases Nat.lt_trichotomy j (chain.due now (catchUpCount policy) start).length with less | same | greater
    · obtain ⟨slot, here, due⟩ := passed j (by omega)
      have after := (ending.resolve_left (by omega)) slot here
      omega
    · exact same
    · obtain ⟨slot, here, due⟩ := within _ positive greater
      exact absurd (past slot here) (not_lt.mpr due)
  rw [cursor, result, jStops, mStops]

-- All 32 slots are listed and the 33rd after them is past now: the leap and the skip both find it.
theorem agree_leap (slot : Int) (full : (chain.due now (catchUpCount policy) start).length = 32)
    (reached : chain.nth start 33 = some slot) (after : now < slot) :
    chain.escape now 32 start = catchUpNext chain (catchUpCount policy) start now := by
  obtain ⟨last, at32⟩ := chain.nth_defined start slot 32 33 (by omega) reached
  by_cases past : now < last
  · refine agree_past chain policy start now inside ?_
    intro other here
    rw [full, at32] at here
    exact Option.some.inj here ▸ past
  · have limit := chain.due_bound now start (catchUpCount policy)
    have cap := (catch_up_count_bounds policy).2
    obtain ⟨j, low, high, result, within, ending⟩ := chain.escape_spec now start 32
    obtain ⟨m, _, cursor, more, passed, keeps, _⟩ := catch_up_step chain policy start now inside
    have jLast : j = 33 := by
      by_contra early
      obtain ⟨other, here, due⟩ : ∃ other, chain.nth start j = some other ∧ other ≤ now := by
        rcases Nat.lt_or_ge j 32 with less | most
        · exact passed j (by omega)
        · exact ⟨last, (show j = 32 by omega) ▸ at32, not_lt.mp past⟩
      have beyond := (ending.resolve_left early) other here
      omega
    have mUpper : m ≤ 33 := by
      by_contra more
      obtain ⟨other, here, due⟩ := passed 33 (by omega)
      cases reached.symm.trans here
      omega
    have mLower : m ≠ 32 := by
      intro same
      have kept := keeps.mp (same.trans full.symm)
      rcases kept ((catch_up_count_full policy).mp (by omega)) last at32 with beyond | ended
      · exact past beyond
      · have due := ended.2 slot ⟨33, reached⟩
        omega
    rw [cursor, result, jLast, show m = 33 by omega]

-- Nothing went in: the control plane skips as far as its steps reach, the agent stands where the
-- plan went.
theorem agree_of_none :
    chain.escape now 32 start = catchUpNext chain (catchUpCount policy) start now ↔
      (∀ slot, chain.nth start (chain.due now (catchUpCount policy) start).length = some slot → now < slot) ∨
        ((chain.due now (catchUpCount policy) start).length = 32 ∧ ∃ slot, chain.nth start 33 = some slot ∧ now < slot) := by
  constructor
  · intro same
    by_contra neither
    rw [not_or] at neither
    obtain ⟨stays, notLeap⟩ := neither
    obtain ⟨slot, listed, due⟩ : ∃ slot, chain.nth start (chain.due now (catchUpCount policy) start).length = some slot ∧
        slot ≤ now := by simpa using stays
    have limit := chain.due_bound now start (catchUpCount policy)
    have cap := (catch_up_count_bounds policy).2
    have stopped := (chain.due_end now start slot (catchUpCount policy) listed).resolve_left (not_lt.mpr due)
    obtain ⟨j, low, high, result, within, ending⟩ := chain.escape_spec now start 32
    obtain ⟨m, _, cursor, more, passed, keeps, reach⟩ := catch_up_step chain policy start now inside
    rw [cursor, result] at same
    have later : (chain.due now (catchUpCount policy) start).length < j := by
      by_contra early
      obtain ⟨other, here, inside'⟩ : ∃ other, chain.nth start j = some other ∧ other ≤ now := by
        rcases Nat.lt_or_ge j (chain.due now (catchUpCount policy) start).length with less | most
        · exact passed j (by omega)
        · exact ⟨slot, (show j = (chain.due now (catchUpCount policy) start).length by omega) ▸ listed, due⟩
      have beyond := (ending.resolve_left (by omega)) other here
      omega
    have notKept : m ≠ (chain.due now (catchUpCount policy) start).length := by
      intro kept
      rw [kept] at same
      exact nth_differs chain start slot _ j later listed same.symm
    have large : 32 ≤ policy.max_catchup_runs := by
      by_contra small
      exact notKept (keeps.mpr fun enough => absurd enough small)
    have full : (chain.due now (catchUpCount policy) start).length = 32 :=
      stopped.trans ((catch_up_count_full policy).mpr large)
    have jLast : j = 33 := by omega
    rw [jLast] at same
    cases ends : chain.nth start 33 with
    | none =>
        refine notKept (keeps.mpr fun _ _ _ => Or.inr ⟨chain.nth_undefined start 33 64 (by omega) ends, ?_⟩)
        rintro time ⟨i, here⟩
        have before : i < 33 := by
          by_contra beyond
          rw [chain.nth_undefined start 33 i (by omega) ends] at here
          cases here
        rcases Nat.eq_zero_or_pos i with rfl | positive
        · cases here
          exact inside
        · obtain ⟨other, there, bound⟩ := within i positive (by omega)
          cases there.symm.trans here
          exact bound
    | some target =>
        rw [ends] at same
        have mIndex := chain.nth_index start target m 33 same.symm ends
        refine notLeap ⟨full, target, ends, ?_⟩
        rcases reach with kept | last | beyond
        · exact absurd kept notKept
        · omega
        · exact beyond target same.symm
  · intro cond
    rcases cond with past | ⟨full, slot, reached, after⟩
    · exact agree_past chain policy start now inside past
    · exact agree_leap chain policy start now inside slot full reached after

end none_inserted

theorem acked_slot_iff (start now : Int) (inserted : Nat) (inside : start ≤ now)
    (bound : inserted ≤ (slotPlan chain policy start now).1.length) :
    ackedSlot chain policy start now inserted = (slotPlan chain policy start now).2 ↔
      advancesAlike chain policy start now inserted := by
  cases kind : policy.misfire with
  | skip => exact iff_of_true (by simp [ackedSlot, slotPlan, kind]) (Or.inl (by simp [kind]))
  | run_once => exact iff_of_true (by simp [ackedSlot, slotPlan, kind]) (Or.inl (by simp [kind]))
  | catch_up =>
      have plan : slotPlan chain policy start now =
          (chain.due now (catchUpCount policy) start, catchUpNext chain (catchUpCount policy) start now) := by
        rw [slotPlan, kind]
      rw [plan] at bound
      rw [plan, ackedSlot, advancesAlike]
      by_cases none_in : inserted = 0
      · simpa [kind, none_in] using agree_of_none chain policy start now inside
      · simpa [kind, none_in] using agree_of_inserted chain policy start now inserted inside bound

end slots

section texts

variable (platform : Platform)

theorem iso_option_injective (a b : Option Int) (aValid : ∀ time, a = some time → validTime time)
    (bValid : ∀ time, b = some time → validTime time) : a.map toISOString = b.map toISOString ↔ a = b := by
  constructor
  · intro same
    cases a with
    | none => exact (Option.map_eq_none_iff.mp same.symm).symm
    | some time =>
        obtain ⟨other, rfl, text⟩ := Option.map_eq_some_iff.mp same.symm
        rw [to_iso_injective other time (bValid other rfl) (aValid time rfl) text]
  · intro same
    rw [same]

theorem acked_slot_valid (cron timezone : String) (policy : SchedulePolicy) (start now time : Int) (inserted : Nat)
    (valid : validTime start) (found : ackedSlot (cronChain platform cron timezone) policy start now inserted = some time) :
    validTime time := by
  unfold ackedSlot at found
  by_cases counted : policy.misfire = .catch_up ∧ inserted ≠ 0
  · rw [if_pos counted] at found
    exact cron_chain_nth_valid platform cron timezone start time _ valid found
  · rw [if_neg counted] at found
    obtain ⟨k, _, reached⟩ := (cronChain platform cron timezone).escape_reaches now start time 32 found
    exact cron_chain_nth_valid platform cron timezone start time k valid reached

theorem acked_next_of_chain (schedule : ScheduleRecord) (start nowMs : Int) (inserted : Nat) (valid : validTime start) :
    ackedNext platform schedule (toISOString start) inserted nowMs =
      (ackedSlot (cronChain platform schedule.expression schedule.timezone) schedule.policy start nowMs inserted).map
        toISOString := by
  have computed := authoritative_next_of_chain platform schedule.expression schedule.timezone start nowMs
    (ackMisfire schedule inserted) (max 1 inserted) valid
  have steps : (min (MAX_ADVANCE_STEPS : Int) (max 1 (max 1 (inserted : Int)))).toNat = min 32 (max 1 inserted) := by
    unfold MAX_ADVANCE_STEPS
    omega
  rw [steps] at computed
  have slot : (if ackMisfire schedule inserted = .catch_up then
        (cronChain platform schedule.expression schedule.timezone).nth start (min 32 (max 1 inserted))
      else (cronChain platform schedule.expression schedule.timezone).escape nowMs MAX_ADVANCE_STEPS start) =
      ackedSlot (cronChain platform schedule.expression schedule.timezone) schedule.policy start nowMs inserted := by
    unfold ackMisfire ackedSlot
    by_cases kind : schedule.policy.misfire = .catch_up
    · by_cases none_in : inserted = 0
      · simp [kind, none_in, MAX_ADVANCE_STEPS]
      · simp [kind, none_in, show max 1 inserted = inserted by omega]
    · simp [kind, MAX_ADVANCE_STEPS]
  rw [slot] at computed
  rw [ackedNext, computed]
  cases found : ackedSlot (cronChain platform schedule.expression schedule.timezone) schedule.policy start nowMs inserted with
  | none => rfl
  | some time =>
      have timeValid := acked_slot_valid platform schedule.expression schedule.timezone schedule.policy start nowMs time
        inserted valid found
      simp [platform_parse_iso platform time timeValid, canonicalUtcIso]

end texts

section claimed

variable (platform : Platform) (schedule : StoredScheduler) (agent : AgentState) (nowMs now : Int)

theorem open_slots_sublist (db : Database) (slots : List ClaimEnqueueSlot) :
    (openSlots db schedule slots).Sublist slots := by
  unfold openSlots
  split
  · exact List.nil_sublist slots
  · split
    · exact List.filter_sublist
    · exact (List.take_sublist 1 _).trans List.filter_sublist

theorem inserted_count (db : Database) (slots : List ClaimEnqueueSlot) (distinct : slots.Nodup) :
    (insertedSlots slots (slots.map fun slot => if slot ∈ openSlots db schedule slots then 1 else 0)).length =
      (openSlots db schedule slots).length := by
  have chosen : insertedSlots slots (slots.map fun slot => if slot ∈ openSlots db schedule slots then 1 else 0) =
      slots.filter fun slot => decide (slot ∈ openSlots db schedule slots) := by
    rw [insertedSlots, ← List.map_prod_left_eq_zip, List.filter_map, List.map_map]
    refine (List.map_id _).trans (List.filter_congr fun slot _ => ?_)
    by_cases member : slot ∈ openSlots db schedule slots <;> simp [member]
  have sublist := open_slots_sublist schedule db slots
  have same : (slots.filter fun slot => decide (slot ∈ openSlots db schedule slots)).Perm (openSlots db schedule slots) := by
    refine (List.perm_ext_iff_of_nodup (distinct.filter _) (distinct.sublist sublist)).mpr fun slot => ?_
    rw [List.mem_filter, decide_eq_true_eq, and_iff_right_of_imp]
    exact fun member => sublist.subset member
  rw [chosen, same.length_eq]

-- A successful claim: where it started, what it inserted and where it left the row.
theorem claimed_outcome (result : ClaimResult) (plan : MisfirePlan) (raw : String) (start : Int)
    (returned : (claimAlone platform schedule agent nowMs now).1 = .ok result) (won : result.claimed = true)
    (planned : result.plan = some plan) (cursor : truthy schedule.nextRunAt = some raw)
    (parsed : platform.dateParse raw = some start) :
    start ≤ nowMs ∧ plan.scheduledForMs = start ∧
      result.advancedNext =
        (slotPlan (cronChain platform schedule.cron schedule.timezone) schedule.policy start nowMs).2.map toISOString ∧
      result.slots.length = (openSlots agent.db schedule
        ((slotPlan (cronChain platform schedule.cron schedule.timezone) schedule.policy start nowMs).1.map
          (slotAt schedule))).length ∧
      ((claimAlone platform schedule agent nowMs now).2.db.schedulers.find? schedule.id).map SchedulerRow.next_run_at =
        some result.advancedNext := by
  cases found : claimPlan platform schedule nowMs with
  | none =>
      obtain ⟨reason, alone⟩ := claim_alone_unplanned platform schedule agent nowMs now found
      rw [alone] at returned
      cases returned
      cases won
  | some chosen =>
      obtain ⟨text, _, shown, spec⟩ := claim_plan_spec platform schedule nowMs chosen found
      cases shown.symm.trans cursor
      obtain ⟨origin, readText, due, _, next, rawText, time⟩ := schedule_plan_spec platform schedule nowMs raw chosen spec
      cases readText.symm.trans parsed
      obtain ⟨first, firstParsed, slots⟩ := planned_slots_of_chain platform schedule nowMs raw chosen spec
      cases firstParsed.symm.trans parsed
      have distinct := planned_slots_distinct platform schedule nowMs raw chosen spec
      have transaction := claim_transaction platform agent.db schedule now chosen distinct
      rw [claim_alone_planned platform schedule agent nowMs now chosen found] at returned ⊢
      split at transaction
      · obtain ⟨error, failed⟩ := transaction
        rw [failed] at returned
        cases returned
      · obtain ⟨after, ran, _, schedulers⟩ := transaction
        rw [ran] at returned ⊢
        cases returned
        have matched : guardMatches agent.db schedule chosen.scheduledForRaw = true := by
          by_contra missed
          simp [claimResult, claimMarks, missed, notClaimed] at won
        have kept : claimResult platform schedule chosen (claimMarks platform agent.db schedule chosen) =
            ⟨true, none, some chosen, insertedSlots (plannedSlots platform schedule chosen)
              ((claimMarks platform agent.db schedule chosen).drop 1), chosen.advancedNext⟩ := by
          simp [claimResult, claimMarks, matched]
        rw [kept] at planned ⊢
        cases planned
        refine ⟨due, time, next, ?_, ?_⟩
        · rw [← slots]
          exact inserted_count schedule agent.db _ (distinct.1.of_map _)
        · rw [schedulers]
          exact claimed_db_cursor agent.db schedule now plan matched

-- The tasks a catch-up claim inserts, read off the tables it starts from.
def catchUpInserts (start : Int) : Nat :=
  (openSlots agent.db schedule
    (((cronChain platform schedule.cron schedule.timezone).due nowMs (catchUpCount schedule.policy) start).map
      (slotAt schedule))).length

-- The control plane's row of the same schedule, at the same cursor.
structure Mirrors (backendId : String) (start : Int) (row : ScheduleRow) : Prop where
  backend : row.backend_id = backendId
  cron : row.cron = schedule.cron
  timezone : row.timezone = schedule.timezone
  enabled : row.enabled = true
  positive : 0 < row.revision
  revision : row.revision = schedule.revision
  policy : (toSchedule row).policy = schedule.policy
  cursor : cursorAt platform row start

section reported

variable (backendId : String) (result : ClaimResult) (plan : MisfirePlan) (raw : String) (start : Int)
  (returned : (claimAlone platform schedule agent nowMs now).1 = .ok result) (won : result.claimed = true)
  (planned : result.plan = some plan) (cursor : truthy schedule.nextRunAt = some raw)
  (parsed : platform.dateParse raw = some start)

include returned won planned cursor parsed

theorem acked_next_iff (record : ScheduleRecord) (cron : record.expression = schedule.cron)
    (timezone : record.timezone = schedule.timezone) (policy : record.policy = schedule.policy) :
    ackedNext platform record (TaskQueue.fireAck schedule plan result).scheduled_for
        (enqueuedOf (reportScheduleOccurrenceAck backendId (TaskQueue.fireAck schedule plan result))) nowMs =
        result.advancedNext ↔
      advancesAlike (cronChain platform schedule.cron schedule.timezone) schedule.policy start nowMs
        (catchUpInserts platform schedule agent nowMs start) := by
  obtain ⟨due, time, next, count, _⟩ :=
    claimed_outcome platform schedule agent nowMs now result plan raw start returned won planned cursor parsed
  have valid := date_parse_valid platform.otherDate raw start parsed
  have enqueued : enqueuedOf (reportScheduleOccurrenceAck backendId (TaskQueue.fireAck schedule plan result)) =
      (result.slots.length : Int) := rfl
  have acked : (TaskQueue.fireAck schedule plan result).scheduled_for = toISOString start := by
    rw [TaskQueue.fireAck, time]
  have bound : result.slots.length ≤
      (slotPlan (cronChain platform schedule.cron schedule.timezone) schedule.policy start nowMs).1.length := by
    have shorter := (open_slots_sublist schedule agent.db
      ((slotPlan (cronChain platform schedule.cron schedule.timezone) schedule.policy start nowMs).1.map
        (slotAt schedule))).length_le
    rwa [List.length_map, ← count] at shorter
  have planValid : ∀ time, (slotPlan (cronChain platform schedule.cron schedule.timezone) schedule.policy start nowMs).2 =
      some time → validTime time := by
    intro time found
    obtain ⟨k, _, reached⟩ := slot_plan_reaches _ schedule.policy start nowMs time due found
    exact cron_chain_nth_valid platform schedule.cron schedule.timezone start time k valid reached
  have ackValid := fun time => acked_slot_valid platform schedule.cron schedule.timezone schedule.policy start nowMs time
    result.slots.length valid
  rw [enqueued, acked, acked_next_of_chain platform record start nowMs result.slots.length valid, cron, timezone, policy, next,
    iso_option_injective _ _ ackValid planValid, acked_slot_iff _ schedule.policy start nowMs result.slots.length due bound]
  by_cases kind : schedule.policy.misfire = .catch_up
  · have slots : (slotPlan (cronChain platform schedule.cron schedule.timezone) schedule.policy start nowMs).1 =
        (cronChain platform schedule.cron schedule.timezone).due nowMs (catchUpCount schedule.policy) start := by
      rw [slotPlan, kind]
    rw [slots] at count
    rw [count, catchUpInserts]
  · exact iff_of_true (Or.inl kind) (Or.inl kind)

-- The two cursors after the ack is delivered, as the two tables hold them.
theorem acked_rows_iff (cp : CpState) (row : ScheduleRow) (syncedAt : Int)
    (stored : cp.schedules.find? schedule.id = some row) (mirrors : Mirrors platform schedule backendId start row) :
    ((ackAlone platform (reportScheduleOccurrenceAck backendId (TaskQueue.fireAck schedule plan result)) nowMs syncedAt
        cp).2.schedules.find? schedule.id).map ScheduleRow.next_run_at =
        ((claimAlone platform schedule agent nowMs now).2.db.schedulers.find? schedule.id).map SchedulerRow.next_run_at ↔
      advancesAlike (cronChain platform schedule.cron schedule.timezone) schedule.policy start nowMs
        (catchUpInserts platform schedule agent nowMs start) := by
  obtain ⟨_, time, _, _, agentRow⟩ :=
    claimed_outcome platform schedule agent nowMs now result plan raw start returned won planned cursor parsed
  have valid := date_parse_valid platform.otherDate raw start parsed
  have acked : (TaskQueue.fireAck schedule plan result).scheduled_for = toISOString start := by
    rw [TaskQueue.fireAck, time]
  have addressed : Addressed platform (reportScheduleOccurrenceAck backendId (TaskQueue.fireAck schedule plan result)) cp row
      start :=
    { stored := stored
      backend := mirrors.backend
      positive := mirrors.positive
      revision := mirrors.revision.symm
      enabled := mirrors.enabled
      parsed := (congrArg platform.dateParse acked).trans (platform_parse_iso platform start valid) }
  have cpRow := (ack_due platform _ nowMs syncedAt cp row start addressed mirrors.cursor).2
  have name : (reportScheduleOccurrenceAck backendId (TaskQueue.fireAck schedule plan result)).schedule_id = schedule.id := rfl
  rw [name] at cpRow
  rw [cpRow, agentRow, ← acked, Option.map_some, Option.some.injEq]
  exact acked_next_iff platform schedule agent nowMs now backendId result plan raw start returned won planned cursor parsed
    (toSchedule row) mirrors.cron mirrors.timezone mirrors.policy

-- What the ack makes the control plane compute is what the agent stored, and so the two rows show the
-- same cursor, exactly when the count of inserted tasks leads where the plan went.
theorem cursors_agree_iff (cp : CpState) (row : ScheduleRow) (syncedAt : Int)
    (stored : cp.schedules.find? schedule.id = some row) (mirrors : Mirrors platform schedule backendId start row) :
    (ackedNext platform (toSchedule row) (TaskQueue.fireAck schedule plan result).scheduled_for
          (enqueuedOf (reportScheduleOccurrenceAck backendId (TaskQueue.fireAck schedule plan result))) nowMs =
          result.advancedNext ↔
        advancesAlike (cronChain platform schedule.cron schedule.timezone) schedule.policy start nowMs
          (catchUpInserts platform schedule agent nowMs start)) ∧
      (((ackAlone platform (reportScheduleOccurrenceAck backendId (TaskQueue.fireAck schedule plan result)) nowMs syncedAt
          cp).2.schedules.find? schedule.id).map ScheduleRow.next_run_at =
          ((claimAlone platform schedule agent nowMs now).2.db.schedulers.find? schedule.id).map SchedulerRow.next_run_at ↔
        advancesAlike (cronChain platform schedule.cron schedule.timezone) schedule.policy start nowMs
          (catchUpInserts platform schedule agent nowMs start)) :=
  ⟨acked_next_iff platform schedule agent nowMs now backendId result plan raw start returned won planned cursor parsed
      (toSchedule row) mirrors.cron mirrors.timezone mirrors.policy,
    acked_rows_iff platform schedule agent nowMs now backendId result plan raw start returned won planned cursor parsed cp row
      syncedAt stored mirrors⟩

end reported

end claimed

theorem cursors_agree_two_minutes :
    let row := minutely 1 (some ⟨.queue, .catch_up, 2⟩)
    let slots := ["1970-01-01T00:00:00.000Z", "1970-01-01T00:01:00.000Z"]
    let next := some "1970-01-01T00:02:00.000Z"
    let plan : MisfirePlan := ⟨slots, next, "1970-01-01T00:00:00.000Z", 0⟩
    let result : ClaimResult := ⟨true, none, some plan, [0, 60000].map (slotAt (rowToScheduler row)), next⟩
    let ack := reportScheduleOccurrenceAck "backend" (TaskQueue.fireAck (rowToScheduler row) plan result)
    (claimAlone utcMinutes (rowToScheduler row) (agentWith row) 150000 150000).1 = .ok result ∧
      ((ackAlone utcMinutes ack 150000 150000 (controlPlaneWith (mirrored row))).2.schedules.find? row.id).map
          ScheduleRow.next_run_at =
        ((claimAlone utcMinutes (rowToScheduler row) (agentWith row) 150000 150000).2.db.schedulers.find? row.id).map
          SchedulerRow.next_run_at := by
  intro row slots next plan result ack
  have returned : (claimAlone utcMinutes (rowToScheduler row) (agentWith row) 150000 150000).1 = .ok result := by
    decide +kernel
  have mirrors : Mirrors utcMinutes (rowToScheduler row) "backend" 0 (mirrored row) :=
    ⟨rfl, rfl, rfl, rfl, by decide, rfl, by decide, _, rfl, by decide⟩
  refine ⟨returned, (cursors_agree_iff utcMinutes (rowToScheduler row) (agentWith row) 150000 150000 "backend" result plan
    "1970-01-01T00:00:00.000Z" 0 returned rfl rfl rfl (by decide) (controlPlaneWith (mirrored row)) (mirrored row) 150000 rfl
    mirrors).2.mpr (Or.inr (Or.inl ?_))⟩
  have inserts : catchUpInserts utcMinutes (rowToScheduler row) (agentWith row) 150000 0 = 2 := by decide +kernel
  have listed : ((cronChain utcMinutes "* * * * *" "UTC").due 150000 2 0).length = 2 := by decide +kernel
  rw [inserts]
  refine ⟨Nat.succ_ne_zero 1, listed.symm, fun large => ?_⟩
  exact absurd large (by decide)

-- Two slots are planned; without a queue the first task keeps the second out. The agent stands at
-- minute 2, the control plane at minute 1.
theorem forbidden_catch_up_parts :
    let row := minutely 1 (some ⟨.forbid, .catch_up, 2⟩)
    let fired := (TaskQueue.fireDueSchedulers utcMinutes 150000 150000).runIn AgentOp.exec (agentWith row)
    let acked (ack : TaskQueue.ScheduleFireAck) :=
      (ackAlone utcMinutes (reportScheduleOccurrenceAck "backend" ack) 150000 150000 (controlPlaneWith (mirrored row))).2
    fired.1.toOption.map (List.map fun ack => (ack.scheduled_for, ack.enqueued_count)) =
        some [("1970-01-01T00:00:00.000Z", 1)] ∧
      (fired.2.db.schedulers.find? "schedule").map SchedulerRow.next_run_at = some (some "1970-01-01T00:02:00.000Z") ∧
      fired.1.toOption.map (List.map fun ack => ((acked ack).schedules.find? "schedule").map ScheduleRow.next_run_at) =
        some [some (some "1970-01-01T00:01:00.000Z")] := by
  decide +kernel

end Vacps.ControlPlane
