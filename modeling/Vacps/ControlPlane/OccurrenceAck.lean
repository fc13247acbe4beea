import Vacps.Agent.TaskQueue
import Vacps.ControlPlane.ScheduleService

/- The occurrence ack the agent reports, and what it does to the schedules table by where its instant
   stands to the cursor. -/
set_option autoImplicit false

namespace Vacps.ControlPlane

open Library

-- The body registration/schedule-occurrence-ack.ts posts; claimed_at is read by nothing.
def reportScheduleOccurrenceAck (backendId : String) (ack : TaskQueue.ScheduleFireAck) : ScheduleOccurrenceAck where
  backend_id := backendId
  schedule_id := ack.schedule_id
  revision := ack.revision
  scheduled_for := ack.scheduled_for
  locally_advanced_to := truthy ack.locally_advanced_to
  occurrence_id := truthy ack.occurrence_id
  enqueued_count := some ack.enqueued_count

section ack

variable (platform : Platform) (input : ScheduleOccurrenceAck) (nowMs syncedAt : Int) (cp : CpState)

def ackAlone : Except AppError ScheduleOccurrenceAckResult × CpState :=
  (ackOccurrence platform input nowMs syncedAt).runIn CpOp.exec cp

-- The ack is one the row can take: its backend, its revision, an enabled schedule, an instant.
structure Addressed (row : ScheduleRow) (scheduled : Int) : Prop where
  stored : cp.schedules.find? input.schedule_id = some row
  backend : row.backend_id = input.backend_id
  positive : 0 < row.revision
  revision : input.revision = row.revision
  enabled : row.enabled = true
  parsed : platform.dateParse input.scheduled_for = some scheduled

-- The row's cursor is this instant.
def cursorAt (row : ScheduleRow) (cursor : Int) : Prop :=
  ∃ raw, truthy row.next_run_at = some raw ∧ platform.dateParse raw = some cursor

theorem cursor_unique (row : ScheduleRow) (a b : Int) (first : cursorAt platform row a) (second : cursorAt platform row b) :
    a = b := by
  obtain ⟨raw, shown, parsed⟩ := first
  obtain ⟨other, otherShown, otherParsed⟩ := second
  cases shown.symm.trans otherShown
  exact Option.some.inj (parsed.symm.trans otherParsed)

@[simp] theorem run_get (id : String) :
    (get id).runIn CpOp.exec cp =
      match cp.schedules.find? id with
      | some row => (.ok (toSchedule row), cp)
      | none => (.error (notFound id), cp) := by
  cases found : cp.schedules.find? id <;> simp [get, CpOp.exec, found]

theorem find_stored_id (row : ScheduleRow) (id : String) (found : cp.schedules.find? id = some row) : row.id = id :=
  cp.schedules.find_key id row found

theorem platform_canonical (text : Option String) (raw : String) (cursor : Int) (shown : truthy text = some raw)
    (parsed : platform.dateParse raw = some cursor) : canonicalText platform text = some (toISOString cursor) := by
  rw [canonicalText, shown, Option.bind_some, parsed]
  rfl

theorem passed_iff (row : ScheduleRow) (cursor scheduled : Int) (here : cursorAt platform row cursor) :
    passed platform (toSchedule row) scheduled = decide (scheduled < cursor) := by
  obtain ⟨raw, shown, parsed⟩ := here
  have valid := date_parse_valid platform.otherDate raw cursor parsed
  have again : truthy (toSchedule row).next_run_at = some raw := (truthy_truthy row.next_run_at).trans shown
  rw [passed, platform_canonical platform _ raw cursor again parsed, Option.bind_some,
    platform_parse_iso platform cursor valid, Option.any_some]

theorem cursor_elsewhere_iff (row : ScheduleRow) (cursor scheduled : Int) (text : String)
    (here : cursorAt platform row cursor) (textParsed : platform.dateParse text = some scheduled) :
    cursorElsewhere platform (toSchedule row) text (toISOString scheduled) scheduled = true ↔ cursor ≠ scheduled := by
  obtain ⟨raw, shown, parsed⟩ := here
  have valid := date_parse_valid platform.otherDate raw cursor parsed
  have textValid := date_parse_valid platform.otherDate text scheduled textParsed
  have kept : (toSchedule row).next_run_at = some raw := shown
  have again : truthy (some raw) = some raw := by rw [← shown, truthy_truthy]
  have canonical := platform_canonical platform (some raw) raw cursor again parsed
  have texts : toISOString cursor = toISOString scheduled ↔ cursor = scheduled :=
    ⟨to_iso_injective cursor scheduled valid textValid, fun same => same ▸ rfl⟩
  have raws : raw = text → cursor = scheduled := by
    intro same
    rw [same, textParsed] at parsed
    exact (Option.some.inj parsed).symm
  simp only [cursorElsewhere, kept, canonical, Option.bind_some, parsed, Option.any_some]
  by_cases same : cursor = scheduled
  · simp [same]
  · have different : raw ≠ text := fun equal => same (raws equal)
    simp [same, texts, different]

theorem sync_keeps_schedules (schedule : ScheduleRecord) :
    ((sync platform schedule syncedAt).runIn CpOp.exec cp).2.schedules = cp.schedules := by
  cases reached : cp.reachable <;> simp [sync, CpOp.exec, reached]

theorem applied_advance_keeps (schedule : ScheduleRecord) :
    ((appliedAdvance platform input schedule syncedAt).runIn CpOp.exec cp).2.schedules = cp.schedules := by
  cases found : cp.schedules.find? schedule.id with
  | none => simp [appliedAdvance, found]
  | some row => simpa [appliedAdvance, found] using sync_keeps_schedules platform syncedAt cp (toSchedule row)

theorem lost_advance_keeps (schedule : ScheduleRecord) (scheduled : Int) :
    ((lostAdvance platform schedule scheduled).runIn CpOp.exec cp).2 = cp := by
  cases found : cp.schedules.find? schedule.id with
  | none => simp [lostAdvance, found]
  | some row => by_cases stale : passed platform (toSchedule row) scheduled <;> simp [lostAdvance, found, stale]

theorem applied_advance_run (schedule : ScheduleRecord) (row : ScheduleRow)
    (found : cp.schedules.find? schedule.id = some row) :
    ∃ reply, ((appliedAdvance platform input schedule syncedAt).runIn CpOp.exec cp).1 = .ok reply ∧
      reply.accepted = true ∧ reply.status = .cas_applied := by
  simp only [appliedAdvance, Async.run_in_bind, run_get, found, Async.run_in_attempt, Async.run_in_pure]
  exact ⟨_, rfl, rfl, rfl⟩

-- The control plane after one compare-and-swap.
def CpState.swapped (cp : CpState) (lastRunAt : String) (next : Option String) (id : String) (revision : Int)
    (token : String) : CpState :=
  { cp with
    schedules := cp.schedules.update (ScheduleRow.matches id revision token) (ScheduleRow.advance lastRunAt next)
      (ScheduleRow.advance_id lastRunAt next) }

theorem exec_advance (lastRunAt token id : String) (next : Option String) (revision : Int) :
    CpOp.exec (.advanceSchedule lastRunAt next id revision token) cp =
      (.ok (cp.schedules.rows.countP (ScheduleRow.matches id revision token)),
        cp.swapped lastRunAt next id revision token) := rfl

theorem swapped_find (lastRunAt token id other : String) (next : Option String) (revision : Int) :
    (cp.swapped lastRunAt next id revision token).schedules.find? other =
      (cp.schedules.find? other).map fun row =>
        if row.matches id revision token then row.advance lastRunAt next else row :=
  cp.schedules.find_update (ScheduleRow.matches id revision token) (ScheduleRow.advance lastRunAt next) (fun _ => rfl) other

theorem swapped_frame (lastRunAt token id other : String) (next : Option String) (revision : Int) (different : id ≠ other) :
    (cp.swapped lastRunAt next id revision token).schedules.find? other = cp.schedules.find? other := by
  rw [swapped_find]
  cases found : cp.schedules.find? other with
  | none => rfl
  | some row =>
      have rowId := cp.schedules.find_key other row found
      rw [Option.map_some, if_neg (by simp [ScheduleRow.matches, rowId, Ne.symm different])]

theorem swapped_row (lastRunAt : String) (next : Option String) (row : ScheduleRow) (raw : String)
    (stored : cp.schedules.find? row.id = some row) (cursor : row.next_run_at = some raw) :
    (cp.swapped lastRunAt next row.id row.revision raw).schedules.find? row.id = some (row.advance lastRunAt next) := by
  rw [swapped_find, stored, Option.map_some, if_pos (by simp [ScheduleRow.matches, cursor])]

theorem advance_count (row : ScheduleRow) (raw : String) (stored : cp.schedules.find? row.id = some row)
    (cursor : row.next_run_at = some raw) :
    cp.schedules.rows.countP (ScheduleRow.matches row.id row.revision raw) = 1 := by
  have count := cp.schedules.count_selected row.id fun other => other.revision == row.revision && other.next_run_at == some raw
  refine count.trans ?_
  rw [stored, Option.toList_some, List.countP_singleton, if_pos (by simp [cursor])]

theorem truthy_some (text : Option String) (raw : String) (shown : truthy text = some raw) : text = some raw :=
  (Option.filter_eq_some_iff.mp shown).1

-- With the row as it was read, the first compare-and-swap finds it.
theorem advance_run (row : ScheduleRow) (raw : String) (scheduled : Int) (stored : cp.schedules.find? row.id = some row)
    (positive : 0 < row.revision) (shown : truthy row.next_run_at = some raw) :
    (∃ reply, ((advance platform input (toSchedule row) (toISOString scheduled) scheduled nowMs syncedAt).runIn
        CpOp.exec cp).1 = .ok reply ∧ reply.accepted = true ∧ reply.status = .cas_applied) ∧
      ((advance platform input (toSchedule row) (toISOString scheduled) scheduled nowMs syncedAt).runIn
        CpOp.exec cp).2.schedules.find? row.id = some (row.advance (toISOString nowMs)
          (ackedNext platform (toSchedule row) (toISOString scheduled) (enqueuedOf input) nowMs)) := by
  have cursor := truthy_some row.next_run_at raw shown
  have revision : (toSchedule row).revision = row.revision := if_pos positive
  have name : (toSchedule row).id = row.id := rfl
  have token : (toSchedule row).next_run_at.getD (toISOString scheduled) = raw := by
    rw [show (toSchedule row).next_run_at = some raw from shown]
    rfl
  have found := swapped_row cp (toISOString nowMs)
    (ackedNext platform (toSchedule row) (toISOString scheduled) (enqueuedOf input) nowMs) row raw stored cursor
  simp only [advance, Async.run_in_bind, Async.run_in_perform, exec_advance, token, revision, name,
    advance_count cp row raw stored cursor, Nat.zero_lt_one, if_true]
  refine ⟨applied_advance_run platform input syncedAt _ (toSchedule row) _ found, ?_⟩
  rw [applied_advance_keeps, found]

theorem advance_frame (schedule : ScheduleRecord) (scheduledFor : String) (scheduled : Int) (other : String)
    (different : schedule.id ≠ other) :
    ((advance platform input schedule scheduledFor scheduled nowMs syncedAt).runIn CpOp.exec cp).2.schedules.find? other =
      cp.schedules.find? other := by
  have swap := fun cp token => swapped_frame cp (toISOString nowMs) token schedule.id other
    (ackedNext platform schedule scheduledFor (enqueuedOf input) nowMs) schedule.revision different
  simp only [advance, Async.run_in_bind, Async.run_in_perform, exec_advance]
  split
  · rw [applied_advance_keeps, swap]
  · split
    · simp only [Async.run_in_bind, Async.run_in_perform, exec_advance]
      split
      · rw [applied_advance_keeps, swap, swap]
      · rw [lost_advance_keeps, swap, swap]
    · rw [lost_advance_keeps, swap]

theorem ack_frame (other : String) (different : input.schedule_id ≠ other) :
    (ackAlone platform input nowMs syncedAt cp).2.schedules.find? other = cp.schedules.find? other := by
  rw [ackAlone, ackOccurrence, Async.run_in_bind, run_get]
  cases found : cp.schedules.find? input.schedule_id with
  | none => rfl
  | some row =>
      have elsewhere : row.id ≠ other := by rwa [find_stored_id cp row input.schedule_id found]
      simp only
      split
      · rfl
      split
      · rfl
      split
      · rfl
      split
      · rfl
      split
      · rfl
      split
      · rfl
      exact advance_frame platform input nowMs syncedAt cp (toSchedule row) _ _ other elsewhere

section addressed

variable (row : ScheduleRow) (scheduled : Int) (addressed : Addressed platform input cp row scheduled)

include addressed

-- Past the checks, an ack is settled by the cursor alone.
theorem ack_run :
    ackAlone platform input nowMs syncedAt cp =
      if passed platform (toSchedule row) scheduled then
        (.ok ⟨true, .already_advanced, row.id, row.revision, canonicalText platform (toSchedule row).next_run_at,
            (toSchedule row).last_run_at,
            localAdvanceDrift platform input.locally_advanced_to (canonicalText platform (toSchedule row).next_run_at)⟩, cp)
      else if cursorElsewhere platform (toSchedule row) input.scheduled_for (toISOString scheduled) scheduled then
        (.ok (refuse .cursor_mismatch (toSchedule row) (canonicalText platform (toSchedule row).next_run_at)
            (toSchedule row).last_run_at), cp)
      else (advance platform input (toSchedule row) (toISOString scheduled) scheduled nowMs syncedAt).runIn CpOp.exec cp := by
  have revision : (toSchedule row).revision = row.revision := if_pos addressed.positive
  have backend : (toSchedule row).backend_id = input.backend_id := addressed.backend
  have enabled : (toSchedule row).enabled = true := addressed.enabled
  have mine : input.revision = (toSchedule row).revision := addressed.revision.trans revision.symm
  have name : (toSchedule row).id = row.id := rfl
  rw [ackAlone, ackOccurrence, Async.run_in_bind, run_get, addressed.stored]
  simp only [backend, mine, enabled, addressed.parsed, ne_eq, not_true_eq_false, if_false, Bool.not_true,
    Bool.false_eq_true]
  split
  · rw [Async.run_in_pure, revision, name]
  · split
    · rfl
    · rfl

theorem ack_stale (cursor : Int) (here : cursorAt platform row cursor) (later : scheduled < cursor) :
    (ackAlone platform input nowMs syncedAt cp).2 = cp ∧
      ∃ reply, (ackAlone platform input nowMs syncedAt cp).1 = .ok reply ∧ reply.accepted = true ∧
        reply.status = .already_advanced := by
  rw [ack_run platform input nowMs syncedAt cp row scheduled addressed,
    if_pos (by rw [passed_iff platform row cursor scheduled here]; exact decide_eq_true later)]
  exact ⟨rfl, _, rfl, rfl, rfl⟩

theorem ack_early (cursor : Int) (here : cursorAt platform row cursor) (earlier : cursor < scheduled) :
    (ackAlone platform input nowMs syncedAt cp).2 = cp ∧
      ∃ reply, (ackAlone platform input nowMs syncedAt cp).1 = .ok reply ∧ reply.accepted = false ∧
        reply.status = .cursor_mismatch := by
  have notPassed : passed platform (toSchedule row) scheduled = false := by
    rw [passed_iff platform row cursor scheduled here]
    exact decide_eq_false (by omega)
  have elsewhere := (cursor_elsewhere_iff platform row cursor scheduled input.scheduled_for here addressed.parsed).mpr (by omega)
  rw [ack_run platform input nowMs syncedAt cp row scheduled addressed, if_neg (by simp [notPassed]), if_pos elsewhere]
  exact ⟨rfl, _, rfl, rfl, rfl⟩

-- The cursor and the row as the compare-and-swap leaves them.
theorem ack_due (here : cursorAt platform row scheduled) :
    (∃ reply, (ackAlone platform input nowMs syncedAt cp).1 = .ok reply ∧ reply.accepted = true ∧
        reply.status = .cas_applied) ∧
      (ackAlone platform input nowMs syncedAt cp).2.schedules.find? input.schedule_id =
        some (row.advance (toISOString nowMs)
          (ackedNext platform (toSchedule row) (toISOString scheduled) (enqueuedOf input) nowMs)) := by
  have name : row.id = input.schedule_id := find_stored_id cp row input.schedule_id addressed.stored
  have stored : cp.schedules.find? row.id = some row := name ▸ addressed.stored
  have notPassed : passed platform (toSchedule row) scheduled = false := by
    rw [passed_iff platform row scheduled scheduled here]
    exact decide_eq_false (Int.lt_irrefl scheduled)
  have notElsewhere : ¬ cursorElsewhere platform (toSchedule row) input.scheduled_for (toISOString scheduled) scheduled = true := by
    rw [cursor_elsewhere_iff platform row scheduled scheduled input.scheduled_for here addressed.parsed]
    exact fun different => different rfl
  rw [ack_run platform input nowMs syncedAt cp row scheduled addressed, if_neg (by simp [notPassed]), if_neg notElsewhere]
  obtain ⟨raw, shown, _⟩ := here
  rw [← name]
  exact advance_run platform input nowMs syncedAt cp row raw scheduled stored addressed.positive shown

-- Without a cursor the compare-and-swap finds no row.
theorem ack_ended (ended : row.next_run_at = none) :
    (ackAlone platform input nowMs syncedAt cp).2.schedules = cp.schedules := by
  have none_text : (toSchedule row).next_run_at = none := by
    rw [show (toSchedule row).next_run_at = truthy row.next_run_at from rfl, ended]
    rfl
  have notPassed : passed platform (toSchedule row) scheduled = false := by rw [passed, none_text]; rfl
  have here : ¬ cursorElsewhere platform (toSchedule row) input.scheduled_for (toISOString scheduled) scheduled = true := by
    rw [cursorElsewhere, none_text]
    exact Bool.false_ne_true
  have name : row.id = input.schedule_id := find_stored_id cp row input.schedule_id addressed.stored
  have stored : cp.schedules.find? row.id = some row := name ▸ addressed.stored
  have missed : cp.schedules.rows.countP (ScheduleRow.matches row.id (toSchedule row).revision (toISOString scheduled)) = 0 := by
    have count := cp.schedules.count_selected row.id fun other =>
      other.revision == (toSchedule row).revision && other.next_run_at == some (toISOString scheduled)
    refine count.trans ?_
    rw [stored, Option.toList_some, List.countP_singleton, if_neg (by simp [ended])]
  rw [ack_run platform input nowMs syncedAt cp row scheduled addressed, if_neg (by simp [notPassed]), if_neg here]
  simp only [advance, Async.run_in_bind, Async.run_in_perform, exec_advance, none_text, Option.getD_none,
    show (toSchedule row).id = row.id from rfl, missed, Nat.lt_irrefl, if_false, ne_eq, not_true_eq_false]
  rw [lost_advance_keeps]
  exact Table.update_unselected cp.schedules _ (ScheduleRow.advance (toISOString nowMs) _) (fun _ => rfl) missed

end addressed

-- An ack no check lets through changes nothing.
theorem ack_refused (row : ScheduleRow) (stored : cp.schedules.find? input.schedule_id = some row)
    (positive : 0 < row.revision) (refused : ∀ scheduled, ¬ Addressed platform input cp row scheduled) :
    (ackAlone platform input nowMs syncedAt cp).2 = cp := by
  have revision : (toSchedule row).revision = row.revision := if_pos positive
  rw [ackAlone, ackOccurrence, Async.run_in_bind, run_get, stored]
  simp only [revision]
  split
  · rfl
  split
  · rfl
  split
  · rfl
  split
  · rfl
  rename_i backend mine enabled _ scheduled parsed
  exact absurd ⟨stored, not_not.mp backend, positive, not_not.mp mine, by simpa [toSchedule] using enabled, parsed⟩ (refused scheduled)

end ack

end Vacps.ControlPlane
