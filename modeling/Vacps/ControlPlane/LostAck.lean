import Vacps.ControlPlane.AckAgreement

/- One agent and the control plane over a run in which acks may be lost: what becomes of the ones
   that arrive. -/
set_option autoImplicit false

namespace Vacps.ControlPlane

open Library SchedulerStore

-- The acks are those reported and neither lost nor delivered yet.
structure Fleet where
  agent : AgentState
  cp : CpState
  acks : List ScheduleOccurrenceAck

inductive FleetEvent where
  | tick (nowMs now : Int)
  | lose (i : Nat)
  | deliver (i : Nat) (nowMs syncedAt : Int)
  -- The agent serves one of the requests the control plane sent.
  | receive (i : Nat) (nowMs now : Int)

section run

variable (platform : Platform) (backendId : String)

def Fleet.tick (fleet : Fleet) (nowMs now : Int) : Fleet :=
  let fired := (TaskQueue.fireDueSchedulers platform nowMs now).runIn AgentOp.exec fleet.agent
  { fleet with
    agent := fired.2
    acks := fleet.acks ++ (fired.1.toOption.getD []).map (reportScheduleOccurrenceAck backendId) }

def Fleet.deliver (fleet : Fleet) (i : Nat) (nowMs syncedAt : Int) : Fleet :=
  match fleet.acks[i]? with
  | none => fleet
  | some ack =>
      { fleet with cp := (ackAlone platform ack nowMs syncedAt fleet.cp).2, acks := fleet.acks.eraseIdx i }

def Fleet.receive (fleet : Fleet) (i : Nat) (nowMs now : Int) : Fleet :=
  match fleet.cp.sent[i]? with
  | none => fleet
  | some request =>
      { fleet with
        agent := ((TaskQueue.upsertScheduler platform (wireOf request) nowMs now).runIn AgentOp.exec fleet.agent).2 }

def Fleet.step (fleet : Fleet) : FleetEvent → Fleet
  | .tick nowMs now => fleet.tick platform backendId nowMs now
  | .lose i => { fleet with acks := fleet.acks.eraseIdx i }
  | .deliver i nowMs syncedAt => fleet.deliver platform i nowMs syncedAt
  | .receive i nowMs now => fleet.receive platform i nowMs now

def Fleet.run (fleet : Fleet) (events : List FleetEvent) : Fleet := events.foldl (Fleet.step platform backendId) fleet

end run

section cursor

variable (platform : Platform) (origin : ScheduleRow) (start : Int)

-- A row that only acks have moved: every column an ack may not write is the original's, and the
-- cursor is null or a slot of the chain the original cursor starts.
structure Moved (row : ScheduleRow) : Prop where
  backend : row.backend_id = origin.backend_id
  cron : row.cron = origin.cron
  timezone : row.timezone = origin.timezone
  enabled : row.enabled = origin.enabled
  revision : row.revision = origin.revision
  cursor : row.next_run_at = none ∨
    ∃ time, (cronChain platform origin.cron origin.timezone).Reaches start time ∧ cursorAt platform row time

theorem acked_next_reaches (schedule : ScheduleRecord) (scheduled enqueued nowMs : Int) (text : String)
    (valid : validTime scheduled) (found : ackedNext platform schedule (toISOString scheduled) enqueued nowMs = some text) :
    ∃ k time, 1 ≤ k ∧ (cronChain platform schedule.expression schedule.timezone).nth scheduled k = some time ∧
      text = toISOString time := by
  obtain ⟨computed, advanced, shown⟩ := Option.map_eq_some_iff.mp found
  rw [authoritative_next_of_chain platform schedule.expression schedule.timezone scheduled nowMs
    (ackMisfire schedule enqueued) (max 1 enqueued) valid] at advanced
  obtain ⟨time, slot, rfl⟩ := Option.map_eq_some_iff.mp advanced
  have reached : ∃ k, 1 ≤ k ∧ (cronChain platform schedule.expression schedule.timezone).nth scheduled k = some time := by
    by_cases counted : ackMisfire schedule enqueued = .catch_up
    · rw [if_pos counted] at slot
      exact ⟨_, by unfold MAX_ADVANCE_STEPS; omega, slot⟩
    · rw [if_neg counted] at slot
      exact Chain.escape_reaches _ nowMs scheduled time _ slot
  obtain ⟨k, low, here⟩ := reached
  have timeValid := cron_chain_nth_valid platform schedule.expression schedule.timezone scheduled time k valid here
  refine ⟨k, time, low, here, ?_⟩
  rw [platform_parse_iso platform time timeValid] at shown
  exact shown.symm

theorem moved_advance (row : ScheduleRow) (scheduled enqueued nowMs : Int) (moved : Moved platform origin start row)
    (reached : (cronChain platform origin.cron origin.timezone).Reaches start scheduled) (valid : validTime scheduled) :
    Moved platform origin start
      (row.advance (toISOString nowMs) (ackedNext platform (toSchedule row) (toISOString scheduled) enqueued nowMs)) := by
  refine ⟨moved.backend, moved.cron, moved.timezone, moved.enabled, moved.revision, ?_⟩
  cases next : ackedNext platform (toSchedule row) (toISOString scheduled) enqueued nowMs with
  | none => exact Or.inl rfl
  | some text =>
      obtain ⟨k, time, _, here, rfl⟩ := acked_next_reaches platform (toSchedule row) scheduled enqueued nowMs text valid next
      have timeValid := cron_chain_nth_valid platform row.cron row.timezone scheduled time k valid here
      obtain ⟨n, before⟩ := reached
      refine Or.inr ⟨time, ⟨n + k, ?_⟩, toISOString time, truthy_iso time, platform_parse_iso platform time timeValid⟩
      rw [Chain.nth_add, before, Option.bind_some, ← moved.cron, ← moved.timezone]
      exact here

theorem ack_moved (cp : CpState) (ack : ScheduleOccurrenceAck) (nowMs syncedAt : Int) (id : String) (row : ScheduleRow)
    (stored : cp.schedules.find? id = some row) (positive : 0 < origin.revision) (moved : Moved platform origin start row) :
    ∃ after, (ackAlone platform ack nowMs syncedAt cp).2.schedules.find? id = some after ∧
      Moved platform origin start after := by
  by_cases same : ack.schedule_id = id
  · subst same
    have rowPositive : 0 < row.revision := moved.revision.symm ▸ positive
    by_cases known : ∃ scheduled, Addressed platform ack cp row scheduled
    · obtain ⟨scheduled, addressed⟩ := known
      rcases moved.cursor with ended | ⟨time, reached, here⟩
      · rw [ack_ended platform ack nowMs syncedAt cp row scheduled addressed ended]
        exact ⟨row, stored, moved⟩
      · rcases Int.lt_trichotomy scheduled time with before | rfl | after
        · rw [(ack_stale platform ack nowMs syncedAt cp row scheduled addressed time here before).1]
          exact ⟨row, stored, moved⟩
        · have valid := date_parse_valid platform.otherDate ack.scheduled_for scheduled addressed.parsed
          exact ⟨_, (ack_due platform ack nowMs syncedAt cp row scheduled addressed here).2,
            moved_advance platform origin start row scheduled (enqueuedOf ack) nowMs moved reached valid⟩
        · rw [(ack_early platform ack nowMs syncedAt cp row scheduled addressed time here after).1]
          exact ⟨row, stored, moved⟩
    · rw [ack_refused platform ack nowMs syncedAt cp row stored rowPositive fun scheduled holds => known ⟨scheduled, holds⟩]
      exact ⟨row, stored, moved⟩
  · exact ⟨row, (ack_frame platform ack nowMs syncedAt cp id same).trans stored, moved⟩

theorem fleet_step_moved (backendId : String) (fleet : Fleet) (event : FleetEvent) (id : String) (row : ScheduleRow)
    (stored : fleet.cp.schedules.find? id = some row) (positive : 0 < origin.revision)
    (moved : Moved platform origin start row) :
    ∃ after, (fleet.step platform backendId event).cp.schedules.find? id = some after ∧ Moved platform origin start after := by
  cases event with
  | tick nowMs now => exact ⟨row, stored, moved⟩
  | lose i => exact ⟨row, stored, moved⟩
  | deliver i nowMs syncedAt =>
      cases found : fleet.acks[i]? with
      | none => exact ⟨row, by simpa [Fleet.step, Fleet.deliver, found] using stored, moved⟩
      | some ack =>
          simp only [Fleet.step, Fleet.deliver, found]
          exact ack_moved platform origin start fleet.cp ack nowMs syncedAt id row stored positive moved
  | receive i nowMs now =>
      cases found : fleet.cp.sent[i]? with
      | none => exact ⟨row, by simpa [Fleet.step, Fleet.receive, found] using stored, moved⟩
      | some request => exact ⟨row, by simpa [Fleet.step, Fleet.receive, found] using stored, moved⟩

theorem fleet_run_moved (backendId : String) (fleet : Fleet) (events : List FleetEvent) (id : String) (row : ScheduleRow)
    (stored : fleet.cp.schedules.find? id = some row) (positive : 0 < origin.revision)
    (moved : Moved platform origin start row) :
    ∃ after, (fleet.run platform backendId events).cp.schedules.find? id = some after ∧ Moved platform origin start after := by
  induction events generalizing fleet row with
  | nil => exact ⟨row, stored, moved⟩
  | cons event rest ih =>
      obtain ⟨middle, found, kept⟩ :=
        fleet_step_moved platform origin start backendId fleet event id row stored positive moved
      exact ih (fleet.step platform backendId event) middle found kept

end cursor

section delivered

variable (platform : Platform) (backendId : String) (fleet : Fleet) (events : List FleetEvent) (origin : ScheduleRow)
  (start : Int)

-- The ack is of the schedule as it stands.
structure Current (ack : ScheduleOccurrenceAck) : Prop where
  schedule : ack.schedule_id = origin.id
  backend : ack.backend_id = origin.backend_id
  revision : ack.revision = origin.revision

-- The ack is accepted, and the cursor it leaves is null or later than the acked slot.
def ackTaken (cp : CpState) (ack : ScheduleOccurrenceAck) (nowMs syncedAt scheduled : Int) : Prop :=
  ∃ reply after, (ackAlone platform ack nowMs syncedAt cp).1 = .ok reply ∧ reply.accepted = true ∧
    (ackAlone platform ack nowMs syncedAt cp).2.schedules.find? ack.schedule_id = some after ∧
    (after.next_run_at = none ∨ ∃ next, cursorAt platform after next ∧ scheduled < next)

theorem due_ack_taken (cp : CpState) (ack : ScheduleOccurrenceAck) (nowMs syncedAt scheduled : Int) (row : ScheduleRow)
    (addressed : Addressed platform ack cp row scheduled) (here : cursorAt platform row scheduled) :
    ackTaken platform cp ack nowMs syncedAt scheduled := by
  obtain ⟨⟨reply, replied, accepted, _⟩, stored⟩ := ack_due platform ack nowMs syncedAt cp row scheduled addressed here
  refine ⟨reply, _, replied, accepted, stored, ?_⟩
  cases next : ackedNext platform (toSchedule row) (toISOString scheduled) (enqueuedOf ack) nowMs with
  | none => exact Or.inl rfl
  | some text =>
      have valid := date_parse_valid platform.otherDate ack.scheduled_for scheduled addressed.parsed
      obtain ⟨k, time, low, reached, rfl⟩ :=
        acked_next_reaches platform (toSchedule row) scheduled (enqueuedOf ack) nowMs text valid next
      have timeValid := cron_chain_nth_valid platform row.cron row.timezone scheduled time k valid reached
      refine Or.inr ⟨time, ⟨toISOString time, truthy_iso time, platform_parse_iso platform time timeValid⟩, ?_⟩
      exact Chain.nth_lt _ scheduled scheduled time 0 k low rfl reached

-- In every reachable state the cursor is null or a slot of the original chain, and a current ack of a
-- slot at or after it is taken just in case the slot is the cursor. A later one is refused and changes
-- nothing.
theorem delivered_ack_iff (nowMs syncedAt scheduled cursor : Int) (row : ScheduleRow) (ack : ScheduleOccurrenceAck)
    (stored : fleet.cp.schedules.find? origin.id = some origin) (positive : 0 < origin.revision)
    (enabled : origin.enabled = true) (initial : cursorAt platform origin start)
    (current : Current origin ack)
    (parsed : platform.dateParse ack.scheduled_for = some scheduled)
    (found : (fleet.run platform backendId events).cp.schedules.find? origin.id = some row)
    (here : cursorAt platform row cursor) (slot : (cronChain platform origin.cron origin.timezone).Reaches cursor scheduled) :
    (cronChain platform origin.cron origin.timezone).Reaches start cursor ∧
      (ackTaken platform (fleet.run platform backendId events).cp ack nowMs syncedAt scheduled ↔ scheduled = cursor) ∧
      (scheduled ≠ cursor →
        (ackAlone platform ack nowMs syncedAt (fleet.run platform backendId events).cp).2 =
            (fleet.run platform backendId events).cp ∧
          ∃ reply, (ackAlone platform ack nowMs syncedAt (fleet.run platform backendId events).cp).1 = .ok reply ∧
            reply.accepted = false ∧ reply.status = .cursor_mismatch) := by
  obtain ⟨reachedRow, reachedFound, moved⟩ := fleet_run_moved platform origin start backendId fleet events origin.id origin
    stored positive ⟨rfl, rfl, rfl, rfl, rfl, Or.inr ⟨start, ⟨0, rfl⟩, initial⟩⟩
  cases reachedFound.symm.trans found
  have addressed : Addressed platform ack (fleet.run platform backendId events).cp row scheduled :=
    { stored := current.schedule ▸ found
      backend := moved.backend.trans current.backend.symm
      positive := moved.revision.symm ▸ positive
      revision := current.revision.trans moved.revision.symm
      enabled := moved.enabled.trans enabled
      parsed := parsed }
  obtain ⟨n, reached⟩ := slot
  have refused : scheduled ≠ cursor →
      (ackAlone platform ack nowMs syncedAt (fleet.run platform backendId events).cp).2 =
          (fleet.run platform backendId events).cp ∧
        ∃ reply, (ackAlone platform ack nowMs syncedAt (fleet.run platform backendId events).cp).1 = .ok reply ∧
          reply.accepted = false ∧ reply.status = .cursor_mismatch := by
    intro different
    have before := Chain.nth_le _ cursor scheduled n reached
    exact ack_early platform ack nowMs syncedAt _ row scheduled addressed cursor here (by omega)
  refine ⟨?_, ⟨?_, ?_⟩, refused⟩
  · rcases moved.cursor with ended | ⟨time, onChain, there⟩
    · obtain ⟨raw, shown, _⟩ := here
      rw [ended] at shown
      cases shown
    · rwa [cursor_unique platform row cursor time here there]
  · intro taken
    by_contra different
    obtain ⟨reply, _, replied, accepted, _⟩ := taken
    obtain ⟨_, other, otherReplied, otherRefused, _⟩ := refused different
    cases replied.symm.trans otherReplied
    rw [accepted] at otherRefused
    cases otherRefused
  · intro same
    subst same
    exact due_ack_taken platform _ ack nowMs syncedAt scheduled row addressed here

end delivered

theorem delivered_ack_minute :
    let row := mirrored (minutely 1 (some ⟨.queue, .run_once, 1⟩))
    let fleet : Fleet := ⟨agentWith (minutely 1 (some ⟨.queue, .run_once, 1⟩)), controlPlaneWith row, []⟩
    let ack : ScheduleOccurrenceAck :=
      ⟨"backend", "schedule", 1, "1970-01-01T00:00:00.000Z", some "1970-01-01T00:01:00.000Z", some "schedule:1:0", some 1⟩
    (fleet.run utcMinutes "backend" [.tick 30000 30000]).acks = [ack] ∧
      ackTaken utcMinutes (fleet.run utcMinutes "backend" [.tick 30000 30000]).cp ack 30000 30000 0 := by
  intro row fleet ack
  have cursor : cursorAt utcMinutes row 0 := ⟨"1970-01-01T00:00:00.000Z", rfl, utc_minutes_parse_epoch⟩
  have delivered := delivered_ack_iff utcMinutes "backend" fleet [.tick 30000 30000] row 0 30000 30000 0 0 row ack rfl
    (by decide) rfl cursor ⟨rfl, rfl, rfl⟩ utc_minutes_parse_epoch rfl cursor ⟨0, rfl⟩
  exact ⟨by decide +kernel, delivered.2.1.mpr rfl⟩

-- Two minutes are claimed and the first ack is lost. The second names a slot after the control
-- plane's cursor and is refused.
theorem lost_ack_refuses_next :
    let row := mirrored (minutely 1 (some ⟨.queue, .run_once, 1⟩))
    let fleet : Fleet := ⟨agentWith (minutely 1 (some ⟨.queue, .run_once, 1⟩)), controlPlaneWith row, []⟩
    let reached := fleet.run utcMinutes "backend" [.tick 30000 30000, .lose 0, .tick 90000 90000]
    let outcomes := reached.acks.map fun ack => ackAlone utcMinutes ack 90000 90000 reached.cp
    reached.acks.map ScheduleOccurrenceAck.scheduled_for = ["1970-01-01T00:01:00.000Z"] ∧
      outcomes.map (fun outcome => outcome.1.toOption.map fun reply => (reply.accepted, reply.status)) =
        [some (false, .cursor_mismatch)] ∧
      outcomes.map (fun outcome => (outcome.2.schedules.find? "schedule").map ScheduleRow.next_run_at) =
        [some (some "1970-01-01T00:00:00.000Z")] := by
  decide +kernel

end Vacps.ControlPlane
