import Vacps.Contracts.CronExact
import Vacps.ControlPlane.CursorForward

/- An accepted occurrence ack that is delivered again, with nothing else in between. -/
set_option autoImplicit false

namespace Vacps.ControlPlane

open Library Library.CivilDate SchedulerStore

section checks

variable (platform : Platform) (input : ScheduleOccurrenceAck) (nowMs syncedAt : Int) (cp : CpState)

-- The ack gets past the checks that look at no cursor.
structure Checked (row : ScheduleRow) (scheduled : Int) : Prop where
  stored : cp.schedules.find? input.schedule_id = some row
  backend : row.backend_id = input.backend_id
  revision : input.revision = (toSchedule row).revision
  enabled : row.enabled = true
  parsed : platform.dateParse input.scheduled_for = some scheduled

def ackAccepted (outcome : Except AppError ScheduleOccurrenceAckResult) : Bool :=
  match outcome with
  | .ok reply => reply.accepted
  | .error _ => false

variable (row : ScheduleRow) (scheduled : Int)

theorem checked_run (checked : Checked platform input cp row scheduled) :
    ackAlone platform input nowMs syncedAt cp =
      if passed platform (toSchedule row) scheduled then
        (.ok ⟨true, .already_advanced, row.id, (toSchedule row).revision, canonicalText platform (toSchedule row).next_run_at,
            (toSchedule row).last_run_at,
            localAdvanceDrift platform input.locally_advanced_to (canonicalText platform (toSchedule row).next_run_at)⟩, cp)
      else if cursorElsewhere platform (toSchedule row) input.scheduled_for (toISOString scheduled) scheduled then
        (.ok (refuse .cursor_mismatch (toSchedule row) (canonicalText platform (toSchedule row).next_run_at)
            (toSchedule row).last_run_at), cp)
      else (advance platform input (toSchedule row) (toISOString scheduled) scheduled nowMs syncedAt).runIn CpOp.exec cp := by
  have backend : (toSchedule row).backend_id = input.backend_id := checked.backend
  have enabled : (toSchedule row).enabled = true := checked.enabled
  rw [ackAlone, ackOccurrence, Async.run_in_bind, run_get, checked.stored]
  simp only [backend, checked.revision, enabled, checked.parsed, ne_eq, not_true_eq_false, if_false, Bool.not_true,
    Bool.false_eq_true]
  split
  · rfl
  · split
    · rfl
    · rfl

theorem accepted_checked (taken : ackAccepted (ackAlone platform input nowMs syncedAt cp).1 = true) :
    ∃ row scheduled, Checked platform input cp row scheduled := by
  rw [ackAlone, ackOccurrence, Async.run_in_bind, run_get] at taken
  cases found : cp.schedules.find? input.schedule_id with
  | none =>
      rw [found] at taken
      cases taken
  | some row =>
      rw [found] at taken
      simp only at taken
      split at taken
      · cases taken
      rename_i backend
      split at taken
      · cases taken
      rename_i revision
      split at taken
      · cases taken
      rename_i enabled
      split at taken
      · cases taken
      rename_i scheduled parsed
      exact ⟨row, scheduled, found, not_not.mp backend, not_not.mp revision, by simpa [toSchedule] using enabled, parsed⟩

-- An ack whose slot the cursor has passed is accepted and changes nothing.
theorem passed_accepted (checked : Checked platform input cp row scheduled)
    (behind : passed platform (toSchedule row) scheduled = true) :
    ackAccepted (ackAlone platform input nowMs syncedAt cp).1 = true ∧ (ackAlone platform input nowMs syncedAt cp).2 = cp := by
  rw [checked_run platform input nowMs syncedAt cp row scheduled checked, if_pos behind]
  exact ⟨rfl, rfl⟩

end checks

section swaps

variable (platform : Platform) (input : ScheduleOccurrenceAck) (nowMs syncedAt : Int) (cp : CpState) (row : ScheduleRow)
  (scheduled : Int)

-- An UPDATE whose condition the row does not meet.
theorem advance_misses (stored : cp.schedules.find? row.id = some row) (lastRunAt token : String) (next : Option String)
    (revision : Int) (elsewhere : ¬(row.revision = revision ∧ row.next_run_at = some token)) :
    CpOp.exec (.advanceSchedule lastRunAt next (toSchedule row).id revision token) cp = (.ok 0, cp) := by
  have missed : cp.schedules.rows.countP (ScheduleRow.matches row.id revision token) = 0 := by
    have count := cp.schedules.count_selected row.id fun other => other.revision == revision && other.next_run_at == some token
    refine count.trans ?_
    rw [stored, Option.toList_some, List.countP_singleton, if_neg (by simpa using elsewhere)]
  rw [exec_advance, show (toSchedule row).id = row.id from rfl, missed]
  refine Prod.ext rfl ?_
  rw [CpState.swapped, Table.update_unselected cp.schedules _ (ScheduleRow.advance lastRunAt next)
    (ScheduleRow.advance_id lastRunAt next) missed]

-- With no row for either token the second look refuses.
theorem advance_refused (stored : cp.schedules.find? row.id = some row)
    (ahead : passed platform (toSchedule row) scheduled = false)
    (elsewhere : ∀ token, token = (toSchedule row).next_run_at.getD (toISOString scheduled) ∨ token = toISOString scheduled →
      ¬(row.revision = (toSchedule row).revision ∧ row.next_run_at = some token)) :
    ackAccepted ((advance platform input (toSchedule row) (toISOString scheduled) scheduled nowMs syncedAt).runIn CpOp.exec cp).1 =
      false := by
  have name : (toSchedule row).id = row.id := rfl
  have lost : ackAccepted ((lostAdvance platform (toSchedule row) scheduled).runIn CpOp.exec cp).1 = false := by
    rw [lostAdvance, Async.run_in_bind, run_get, name, stored]
    simp [ahead, ackAccepted, refuse]
  simp only [advance, Async.run_in_bind, Async.run_in_perform,
    advance_misses cp row stored _ _ _ _ (elsewhere _ (Or.inl rfl)), Nat.lt_irrefl, if_false]
  split
  · simp only [Async.run_in_bind, Async.run_in_perform, advance_misses cp row stored _ _ _ _ (elsewhere _ (Or.inr rfl)),
      Nat.lt_irrefl, if_false]
    exact lost
  · exact lost

-- An ack that was taken by its UPDATE found the row's own cursor there.
theorem advance_taken (stored : cp.schedules.find? row.id = some row)
    (ahead : passed platform (toSchedule row) scheduled = false)
    (taken : ackAccepted ((advance platform input (toSchedule row) (toISOString scheduled) scheduled nowMs syncedAt).runIn
      CpOp.exec cp).1 = true) :
    0 < row.revision ∧ ∃ raw, truthy row.next_run_at = some raw := by
  by_contra absent
  have refused := advance_refused platform input nowMs syncedAt cp row scheduled stored ahead ?_
  · rw [refused] at taken
    cases taken
  · rintro token which ⟨revision, cursor⟩
    have positive : 0 < row.revision := by
      by_contra low
      rw [show (toSchedule row).revision = 1 from if_neg low] at revision
      omega
    have text : toISOString scheduled ≠ "" := by
      intro empty
      have shown := truthy_iso scheduled
      rw [empty] at shown
      cases shown
    by_cases empty : token = ""
    · have none_ : (toSchedule row).next_run_at = none := by
        rw [show (toSchedule row).next_run_at = truthy row.next_run_at from rfl, cursor, empty]
        rfl
      rw [none_, Option.getD_none, or_self, empty] at which
      exact text which.symm
    · exact absent ⟨positive, token, by simp [truthy, cursor, empty]⟩

end swaps

section again

variable (platform : Platform) (input : ScheduleOccurrenceAck)

-- The chain from the acked occurrence goes on as far as the advance needs it to: for catch_up the number of enqueued
-- slots, otherwise to a slot past now or 33 slots on.
def GoesOn (chain : Chain Int) (misfire : Misfire) (enqueued nowMs occurrence : Int) : Prop :=
  if misfire = .catch_up then chain.nth occurrence (min 32 (max 1 enqueued)).toNat ≠ none
  else chain.nth occurrence 33 ≠ none ∨ ∃ i slot, 1 ≤ i ∧ chain.nth occurrence i = some slot ∧ nowMs < slot

theorem acked_next_goes_on (schedule : ScheduleRecord) (occurrence enqueued nowMs : Int) (valid : validTime occurrence) :
    ackedNext platform schedule (toISOString occurrence) enqueued nowMs ≠ none ↔
      GoesOn (cronChain platform schedule.expression schedule.timezone) (ackMisfire schedule enqueued) enqueued nowMs occurrence := by
  have steps : (min (MAX_ADVANCE_STEPS : Int) (max 1 (max 1 enqueued))).toNat = (min 32 (max 1 enqueued)).toNat := by
    unfold MAX_ADVANCE_STEPS
    omega
  rw [ackedNext, authoritative_next_of_chain platform schedule.expression schedule.timezone occurrence nowMs
    (ackMisfire schedule enqueued) (max 1 enqueued) valid, steps, Ne, Option.map_eq_none_iff, Option.map_eq_none_iff, GoesOn]
  by_cases counted : ackMisfire schedule enqueued = .catch_up
  · rw [if_pos counted, if_pos counted]
  · rw [if_neg counted, if_neg counted, MAX_ADVANCE_STEPS, Chain.escape_none_iff]
    simp only [not_and_or, not_forall, not_le, exists_prop]

-- Each delivery is accepted and leaves the schedule's row as it was.
def AcceptedAgain : CpState → List (Int × Int) → Prop
  | _, [] => True
  | cp, (nowMs, syncedAt) :: rest =>
      ackAccepted (ackAlone platform input nowMs syncedAt cp).1 = true ∧
        (ackAlone platform input nowMs syncedAt cp).2.schedules.find? input.schedule_id = cp.schedules.find? input.schedule_id ∧
          AcceptedAgain (ackAlone platform input nowMs syncedAt cp).2 rest

theorem passed_again (cp : CpState) (row : ScheduleRow) (scheduled : Int) (checked : Checked platform input cp row scheduled)
    (behind : passed platform (toSchedule row) scheduled = true) (readings : List (Int × Int)) :
    AcceptedAgain platform input cp readings := by
  induction readings with
  | nil => trivial
  | cons reading rest ih =>
      obtain ⟨nowMs, syncedAt⟩ := reading
      obtain ⟨taken, same⟩ := passed_accepted platform input nowMs syncedAt cp row scheduled checked behind
      rw [AcceptedAgain, same]
      exact ⟨taken, rfl, ih⟩

theorem advanced_checked (cp after : CpState) (row : ScheduleRow) (scheduled : Int) (lastRunAt : String) (next : Option String)
    (checked : Checked platform input cp row scheduled)
    (stored : after.schedules.find? input.schedule_id = some (row.advance lastRunAt next)) :
    Checked platform input after (row.advance lastRunAt next) scheduled :=
  ⟨stored, checked.backend, checked.revision, checked.enabled, checked.parsed⟩

theorem text_passed (row : ScheduleRow) (scheduled time : Int) (shown : row.next_run_at = some (toISOString time))
    (valid : validTime time) (later : scheduled < time) : passed platform (toSchedule row) scheduled = true := by
  have here : cursorAt platform row time :=
    ⟨toISOString time, by rw [shown, truthy_iso], platform_parse_iso platform time valid⟩
  rw [passed_iff platform row time scheduled here]
  exact decide_eq_true later

-- A row without a cursor takes no ack.
theorem ended_refused (cp : CpState) (row : ScheduleRow) (scheduled nowMs syncedAt : Int)
    (checked : Checked platform input cp row scheduled) (ended : row.next_run_at = none) :
    ackAccepted (ackAlone platform input nowMs syncedAt cp).1 = false := by
  have none_text : (toSchedule row).next_run_at = none := by
    rw [show (toSchedule row).next_run_at = truthy row.next_run_at from rfl, ended]
    rfl
  have ahead : passed platform (toSchedule row) scheduled = false := by
    rw [passed, none_text]
    rfl
  have here : ¬cursorElsewhere platform (toSchedule row) input.scheduled_for (toISOString scheduled) scheduled = true := by
    rw [cursorElsewhere, none_text]
    exact Bool.false_ne_true
  have name : row.id = input.schedule_id := find_stored_id cp row input.schedule_id checked.stored
  rw [checked_run platform input nowMs syncedAt cp row scheduled checked, if_neg (by simp [ahead]), if_neg here]
  refine advance_refused platform input nowMs syncedAt cp row scheduled (name ▸ checked.stored) ahead ?_
  rintro token _ ⟨_, cursor⟩
  rw [ended] at cursor
  cases cursor

end again

-- An accepted ack is accepted again however often exactly when the cursor had passed its slot, or the advance found a
-- next run to put there.
theorem redelivery_accepted_iff (platform : Platform) (input : ScheduleOccurrenceAck) (cp : CpState) (nowMs syncedAt : Int)
    (taken : ackAccepted (ackAlone platform input nowMs syncedAt cp).1 = true) :
    (∀ readings, (∀ reading ∈ readings, nowMs ≤ reading.1) →
      AcceptedAgain platform input (ackAlone platform input nowMs syncedAt cp).2 readings) ↔
        ∃ row occurrence, cp.schedules.find? input.schedule_id = some row ∧
          platform.dateParse input.scheduled_for = some occurrence ∧
            ((∃ cursor, cursorAt platform row cursor ∧ occurrence < cursor) ∨
              GoesOn (cronChain platform row.cron row.timezone) (ackMisfire (toSchedule row) (enqueuedOf input))
                (enqueuedOf input) nowMs occurrence) := by
  obtain ⟨row, occurrence, checked⟩ := accepted_checked platform input nowMs syncedAt cp taken
  have valid := date_parse_valid platform.otherDate input.scheduled_for occurrence checked.parsed
  have name : row.id = input.schedule_id := find_stored_id cp row input.schedule_id checked.stored
  cases behind : passed platform (toSchedule row) occurrence with
  | true =>
      obtain ⟨cursor, here, later⟩ := passed_cursor platform row occurrence behind
      rw [(passed_accepted platform input nowMs syncedAt cp row occurrence checked behind).2]
      exact iff_of_true (fun readings _ => passed_again platform input cp row occurrence checked behind readings)
        ⟨row, occurrence, checked.stored, checked.parsed, Or.inl ⟨cursor, Option.bind_eq_some_iff.mp here, later⟩⟩
  | false =>
      have run := checked_run platform input nowMs syncedAt cp row occurrence checked
      rw [behind, if_neg Bool.false_ne_true] at run
      have here : ¬cursorElsewhere platform (toSchedule row) input.scheduled_for (toISOString occurrence) occurrence = true := by
        intro elsewhere
        rw [run, if_pos elsewhere] at taken
        cases taken
      rw [if_neg here] at run
      have stored : cp.schedules.find? row.id = some row := name ▸ checked.stored
      rw [run] at taken
      obtain ⟨positive, raw, shown⟩ := advance_taken platform input nowMs syncedAt cp row occurrence stored behind taken
      have after := (advance_run platform input nowMs syncedAt cp row raw occurrence stored positive shown).2
      rw [← run, name] at after
      have again := advanced_checked platform input cp _ row occurrence _ _ checked after
      have goes := acked_next_goes_on platform (toSchedule row) occurrence (enqueuedOf input) nowMs valid
      cases next : ackedNext platform (toSchedule row) (toISOString occurrence) (enqueuedOf input) nowMs with
      | none =>
          rw [next] at again goes
          refine iff_of_false ?_ ?_
          · intro all
            have refused := ended_refused platform input _ _ occurrence nowMs syncedAt again rfl
            have once := (all [(nowMs, syncedAt)] (by simp)).1
            rw [refused] at once
            cases once
          · rintro ⟨other, time, found, parsed, ⟨cursor, at_, later⟩ | further⟩
            · rw [checked.stored] at found
              cases found
              rw [checked.parsed] at parsed
              cases parsed
              rw [passed_iff platform row cursor occurrence at_, decide_eq_false_iff_not] at behind
              exact behind later
            · rw [checked.stored] at found
              cases found
              rw [checked.parsed] at parsed
              cases parsed
              exact goes.mpr further rfl
      | some text =>
          obtain ⟨time, rfl, timeValid, later⟩ := acked_next_past platform (toSchedule row) occurrence (enqueuedOf input) nowMs valid
            text next
          rw [next] at again goes
          have passes := text_passed platform (row.advance (toISOString nowMs) (some (toISOString time))) occurrence time rfl
            timeValid later
          exact iff_of_true (fun readings _ => passed_again platform input _ _ occurrence again passes readings)
            ⟨row, occurrence, checked.stored, checked.parsed, Or.inr (goes.mp (by simp))⟩

theorem redelivery_minute :
    let row := mirrored (minutely 1 (some ⟨.queue, .run_once, 1⟩))
    let ack : ScheduleOccurrenceAck :=
      ⟨"backend", "schedule", 1, "1970-01-01T00:00:00.000Z", some "1970-01-01T00:01:00.000Z", some "schedule:1:0", some 1⟩
    ∀ readings, (∀ reading ∈ readings, (30000 : Int) ≤ reading.1) →
      AcceptedAgain utcMinutes ack (ackAlone utcMinutes ack 30000 30000 (controlPlaneWith row)).2 readings := by
  intro row ack
  refine (redelivery_accepted_iff utcMinutes ack (controlPlaneWith row) 30000 30000 (by decide +kernel)).mpr ?_
  refine ⟨row, 0, rfl, utc_minutes_parse_epoch, Or.inr ?_⟩
  have misfire : ackMisfire (toSchedule row) (enqueuedOf ack) = .run_once := by decide
  have minute := utc_minutes_nth 0 1 (by decide) (by decide)
  rw [GoesOn, misfire, if_neg (by decide)]
  exact Or.inr ⟨1, 60000, Nat.le_refl 1, minute, by decide⟩

-- The last minute of a leap day: the next leap day is out of the scan's reach.
def lastLeapMinute : ScheduleRow := { leapRow with next_run_at := some "2024-02-29T23:59:00.000Z" }

def lastLeapAck : ScheduleOccurrenceAck :=
  ⟨"backend", "schedule", 1, "2024-02-29T23:59:00.000Z", none, some "schedule:1:1709251140000", some 1⟩

theorem leap_day_only (parts : ZonedParts) (day month : Nat) (days : parts.day = some day) (months : parts.month = some month)
    (other : ¬(month = 2 ∧ day = 29)) : matchesFields ⟨none, none, some [29], some [2], none⟩ parts = false := by
  have named : ((day : Rat) = 29 ↔ day = 29) ∧ ((month : Rat) = 2 ↔ month = 2) := ⟨by norm_cast, by norm_cast⟩
  simp only [matchesFields, days, months, Option.all_some, Option.all_none, Option.any_some, List.contains_cons,
    List.contains_nil, Bool.or_false, Bool.true_and, Bool.and_true, Bool.and_eq_false_iff, beq_eq_false_iff_ne, ne_eq, named]
  exact not_and_or.mp other

theorem leap_search_ends :
    scanMinutes leapMinutes ⟨none, none, some [29], some [2], none⟩ "UTC" cronHorizon (1709251140000 / 60000 * 60000 + 60000) =
      none := by
  have days : ∀ n : Fin 367, ¬((civilOfDays (19783 + (n : Nat))).month = 2 ∧ (civilOfDays (19783 + (n : Nat))).day = 29) := by
    decide +kernel
  refine (scan_minutes_none _ _ _ _ _).mpr fun k few => ?_
  unfold cronHorizon at few
  have valid : validTime (1709251140000 / 60000 * 60000 + 60000 + 60000 * (k : Int)) := by
    unfold validTime maxTime
    omega
  obtain ⟨n, day⟩ : ∃ n : Fin 367, (1709251140000 / 60000 * 60000 + 60000 + 60000 * (k : Int)) / 86400000 =
      19783 + (n : Nat) := ⟨⟨k / 1440, by omega⟩, by dsimp only; omega⟩
  rw [show zonedParts leapMinutes = zonedParts utcMinutes from rfl, utc_zone_parts _ valid, utcParts, if_pos valid, day]
  exact leap_day_only _ _ _ rfl rfl (days n)

theorem leap_chain_ends : (cronChain leapMinutes "* * 29 2 *" "UTC").next 1709251140000 = none := by
  have parsed : leapMinutes.parseCron "* * 29 2 *" = some ⟨none, none, some [29], some [2], none⟩ := by decide +kernel
  have zone : (if trim "UTC" = "" then "UTC" else trim "UTC") = "UTC" := by decide +kernel
  simp only [cronChain, nextCronRunAfter, parsed, Option.bind_some, zone, leap_search_ends, Option.bind_none]

theorem last_leap_refused :
    let taken := ackAlone leapMinutes lastLeapAck 1709251140500 1709251140500 (controlPlaneWith lastLeapMinute)
    ackAccepted taken.1 = true ∧ ackAccepted (ackAlone leapMinutes lastLeapAck 1709251141000 1709251141000 taken.2).1 = false := by
  intro taken
  have parsed : leapMinutes.dateParse "2024-02-29T23:59:00.000Z" = some 1709251140000 := by decide +kernel
  have addressed : Addressed leapMinutes lastLeapAck (controlPlaneWith lastLeapMinute) lastLeapMinute 1709251140000 :=
    ⟨rfl, rfl, by decide, rfl, rfl, parsed⟩
  have here : cursorAt leapMinutes lastLeapMinute 1709251140000 := ⟨"2024-02-29T23:59:00.000Z", rfl, parsed⟩
  have ended : (cronChain leapMinutes "* * 29 2 *" "UTC").nth 1709251140000 1 = none := by
    rw [Chain.nth_from_next, leap_chain_ends]
    rfl
  have next : ackedNext leapMinutes (toSchedule lastLeapMinute) (toISOString 1709251140000) (enqueuedOf lastLeapAck) 1709251140500 =
      none := by
    by_contra found
    have goes := (acked_next_goes_on leapMinutes (toSchedule lastLeapMinute) 1709251140000 _ _ (by decide)).mp found
    rw [show ackMisfire (toSchedule lastLeapMinute) (enqueuedOf lastLeapAck) = .run_once by decide, GoesOn,
      if_neg (by decide)] at goes
    rcases goes with far | ⟨i, slot, positive, reached, _⟩
    · exact far (Chain.nth_undefined _ _ 1 33 (by omega) ended)
    · have none_ := Chain.nth_undefined _ _ 1 i positive ended
      exact absurd (none_.symm.trans reached) (by simp)
  obtain ⟨⟨reply, answered, accepted, _⟩, stored⟩ :=
    ack_due leapMinutes lastLeapAck 1709251140500 1709251140500 (controlPlaneWith lastLeapMinute) lastLeapMinute 1709251140000 addressed here
  rw [next] at stored
  refine ⟨?_, ?_⟩
  · rw [answered]
    exact accepted
  · exact ended_refused leapMinutes lastLeapAck taken.2 _ 1709251140000 _ _ ⟨stored, rfl, rfl, rfl, parsed⟩ rfl

end Vacps.ControlPlane
