import Vacps.Agent.CursorRaces
import Vacps.ControlPlane.LostAck
import Vacps.ControlPlane.RunNow

/- Interleaved acks and runNow calls: where each call stands, what its UPDATE does to the cursor, and when
   the cursor keeps ahead of the acknowledged occurrences. -/
set_option autoImplicit false

namespace Vacps.ControlPlane

open Library SchedulerStore Classical

section places

variable (platform : Platform)

-- Where an UPDATE moves a cursor to: none, or an instant after this one.
def Past (next : Option String) (time : Int) : Prop :=
  ∀ text, next = some text → ∃ later, text = toISOString later ∧ validTime later ∧ time < later

-- The token an ack swaps is its own occurrence, where it is an instant at all.
structure Swaps (occurrence : Int) (next : Option String) (token : String) : Prop where
  past : Past next occurrence
  here : ∀ time, instantOf platform (some token) = some time → time = occurrence

theorem acked_next_past (schedule : ScheduleRecord) (occurrence enqueued nowMs : Int) (valid : validTime occurrence) :
    Past (ackedNext platform schedule (toISOString occurrence) enqueued nowMs) occurrence := by
  intro text found
  obtain ⟨k, time, positive, reached, rfl⟩ := acked_next_reaches platform schedule occurrence enqueued nowMs text valid found
  have timeValid := cron_chain_nth_valid platform schedule.expression schedule.timezone occurrence time k valid reached
  exact ⟨time, rfl, timeValid, Chain.nth_lt _ occurrence occurrence time 0 k positive rfl reached⟩

theorem run_next_past (schedule : ScheduleRecord) (now : Int) :
    Past (runNext platform schedule now) (advanceFrom platform schedule now) := by
  intro text found
  rw [runNext, canonicalNext] at found
  split at found
  · rw [next_iso_of_chain, Option.map_map] at found
    obtain ⟨run, next, rfl⟩ := Option.map_eq_some_iff.mp found
    have valid := cron_chain_next_valid platform _ _ _ run next
    refine ⟨run, ?_, valid, (cronChain platform schedule.expression schedule.timezone).later _ _ next⟩
    simp only [Function.comp_apply, platform_parse_iso platform run valid]
    rfl
  · cases found

-- An ack that neither finds its slot passed nor the cursor elsewhere swaps the cursor it read.
theorem read_swaps (row : ScheduleRow) (input : ScheduleOccurrenceAck) (nowMs occurrence : Int)
    (parsed : platform.dateParse input.scheduled_for = some occurrence)
    (here : cursorElsewhere platform (toSchedule row) input.scheduled_for (toISOString occurrence) occurrence = false) :
    Swaps platform occurrence (ackedNext platform (toSchedule row) (toISOString occurrence) (enqueuedOf input) nowMs)
      ((toSchedule row).next_run_at.getD (toISOString occurrence)) where
  past := acked_next_past platform (toSchedule row) occurrence _ nowMs
    (date_parse_valid platform.otherDate input.scheduled_for occurrence parsed)
  here := by
    intro time shown
    have valid := date_parse_valid platform.otherDate input.scheduled_for occurrence parsed
    cases cursor : (toSchedule row).next_run_at with
    | none =>
        rw [cursor, Option.getD_none, instant_of_iso platform occurrence valid] at shown
        exact (Option.some.inj shown).symm
    | some raw =>
        rw [cursor, Option.getD_some] at shown
        obtain ⟨text, present, read⟩ := Option.bind_eq_some_iff.mp shown
        have same : truthy row.next_run_at = some raw := cursor
        have stored : cursorAt platform row time := by
          refine ⟨raw, same, ?_⟩
          rw [← same, truthy_truthy, same] at present
          cases present
          exact read
        by_contra different
        have elsewhere := (cursor_elsewhere_iff platform row time occurrence input.scheduled_for stored parsed).mpr different
        rw [here] at elsewhere
        cases elsewhere

-- An ack before its SELECT, before its first and its second swap, before its second look, with its swap
-- done, and accepted; a runNow before its task, before its UPDATE, and after it.
inductive CursorPlace where
  | reading
  | advancing (occurrence : Int) (schedule : ScheduleRecord)
  | retrying (occurrence : Int) (schedule : ScheduleRecord)
  | comparing (occurrence : Int)
  | applied (schedule : String) (occurrence : Int)
  | accepted (occurrence : Int)
  | creating (schedule : ScheduleRecord)
  | booking (schedule : ScheduleRecord)
  | mirroring
  | closed

def ackPlace (input : ScheduleOccurrenceAck) (schedule : ScheduleRecord) : CursorPlace :=
  if schedule.backend_id ≠ input.backend_id ∨ input.revision ≠ schedule.revision ∨ schedule.enabled = false then .closed
  else
    match platform.dateParse input.scheduled_for with
    | none => .closed
    | some occurrence =>
        if passed platform schedule occurrence then .accepted occurrence
        else if cursorElsewhere platform schedule input.scheduled_for (toISOString occurrence) occurrence then .closed
        else .advancing occurrence schedule

def readPlace (call : CursorCall) (row : Option ScheduleRow) : CursorPlace :=
  match call, row with
  | _, none => .closed
  | .ack input _ _, some row => ackPlace platform input (toSchedule row)
  | .runNow _ _ _ _, some row => .creating (toSchedule row)

def comparedPlace (occurrence : Int) : Option ScheduleRow → CursorPlace
  | none => .closed
  | some row => if passed platform (toSchedule row) occurrence then .accepted occurrence else .closed

-- What a swap of the ack is about.
structure AckSwap (call : CursorCall) (occurrence : Int) (next : Option String) (id token : String) : Prop where
  mine : id = call.schedule
  named : call.occurrence platform = some occurrence
  swaps : Swaps platform occurrence next token

-- The UPDATE of a runNow that read a cursor moves it past that cursor, or past now where it is no instant.
def RunSwap (call : CursorCall) (next : Option String) (token : String) : Prop :=
  call.occurrence platform = none ∧
    ∃ origin, Past next origin ∧ ∀ time, instantOf platform (some token) = some time → time = origin

def RunBooking (call : CursorCall) (next : Option String) (id : String) : Prop :=
  ∃ key now syncedAt, call = .runNow id key now syncedAt ∧ Past next now

def swapped (state : RunState) (id : String) (revision : Int) (token : String) : Nat :=
  state.estate.cp.schedules.rows.countP (ScheduleRow.matches id revision token)

noncomputable def cursorNext (call : CursorCall) : CursorPlace → RunOp → RunState → Option CursorPlace
  | .reading, .base (.selectSchedule id), state =>
      if id = call.schedule then some (readPlace platform call (state.estate.cp.schedules.find? id)) else none
  | .advancing occurrence schedule, .base (.advanceSchedule _ next id revision token), state =>
      if AckSwap platform call occurrence next id token then
        some (if 0 < swapped state id revision token then .applied id occurrence
          else if token ≠ toISOString occurrence then .retrying occurrence schedule else .comparing occurrence)
      else none
  | .retrying occurrence _, .base (.advanceSchedule _ next id revision token), state =>
      if AckSwap platform call occurrence next id token then
        some (if 0 < swapped state id revision token then .applied id occurrence else .comparing occurrence)
      else none
  | .comparing occurrence, .base (.selectSchedule id), state =>
      if id = call.schedule then some (comparedPlace platform occurrence (state.estate.cp.schedules.find? id)) else none
  | .applied schedule occurrence, .base (.selectSchedule id), state =>
      some (if (state.estate.cp.schedules.find? id).isSome then .applied schedule occurrence else .closed)
  | .applied schedule occurrence, .base (.upsertScheduler _ _), _ =>
      if schedule = call.schedule then some (.accepted occurrence) else none
  | .creating schedule, .createTask _ _, state =>
      some (match state.creations state.created with | .ok false => .booking schedule | _ => .closed)
  | .booking _, .base (.advanceSchedule _ next _ _ token), _ => if RunSwap platform call next token then some .mirroring else none
  | .booking _, .bookRun _ next id _, _ => if RunBooking call next id then some .mirroring else none
  | .mirroring, .base (.selectSchedule _), _ => some .mirroring
  | .mirroring, .base (.upsertScheduler _ _), _ => some .mirroring
  | _, _, _ => none

-- An accepted ack ends at the place that says so.
def cursorEnds (call : CursorCall) (place : CursorPlace) (result : Except AppError (Option ScheduleOccurrenceAckResult)) : Prop :=
  ∀ reply, result = .ok (some reply) → reply.accepted = true →
    ∃ occurrence, place = .accepted occurrence ∧ call.occurrence platform = some occurrence

def ackEnds (call : CursorCall) (place : CursorPlace) (result : Except AppError ScheduleOccurrenceAckResult) : Prop :=
  ∀ reply, result = .ok reply → reply.accepted = true →
    ∃ occurrence, place = .accepted occurrence ∧ call.occurrence platform = some occurrence

theorem error_ends (call : CursorCall) (place : CursorPlace) (error : AppError) : ackEnds platform call place (.error error) := by
  intro reply failed
  cases failed

theorem refused_ends (call : CursorCall) (place : CursorPlace) (reply : ScheduleOccurrenceAckResult)
    (refused : reply.accepted = false) : ackEnds platform call place (.ok reply) := by
  intro given same accepted
  cases same
  rw [refused] at accepted
  cases accepted

theorem accepted_ends (call : CursorCall) (occurrence : Int) (reply : ScheduleOccurrenceAckResult)
    (named : call.occurrence platform = some occurrence) : ackEnds platform call (.accepted occurrence) (.ok reply) :=
  fun _ _ _ => ⟨occurrence, rfl, named⟩

theorem applied_follows (call : CursorCall) (input : ScheduleOccurrenceAck) (schedule : ScheduleRecord) (syncedAt occurrence : Int)
    (mine : schedule.id = call.schedule) (named : call.occurrence platform = some occurrence) :
    (lifted (appliedAdvance platform input schedule syncedAt)).Follows (RunOp.exec platform) (cursorNext platform call)
      (.applied schedule.id occurrence) (ackEnds platform call) := by
  intro state
  refine ⟨_, rfl, ?_⟩
  cases found : state.estate.cp.schedules.find? schedule.id with
  | none =>
      simp only [RunOp.exec, Estate.exec, CpOp.exec, found]
      exact error_ends platform call _ _
  | some row =>
      simp only [RunOp.exec, Estate.exec, CpOp.exec, found]
      intro later
      refine ⟨_, if_pos mine, ?_⟩
      simp only [RunOp.exec, upsert_answered]
      by_cases answered : later.estate.next.fate = .answered
      · simp only [if_pos answered]
        exact accepted_ends platform call occurrence _ named
      · simp only [if_neg answered]
        exact accepted_ends platform call occurrence _ named

theorem lost_follows (call : CursorCall) (schedule : ScheduleRecord) (occurrence : Int)
    (mine : schedule.id = call.schedule) (named : call.occurrence platform = some occurrence) :
    (lifted (lostAdvance platform schedule occurrence)).Follows (RunOp.exec platform) (cursorNext platform call)
      (.comparing occurrence) (ackEnds platform call) := by
  intro state
  refine ⟨_, if_pos mine, ?_⟩
  cases found : state.estate.cp.schedules.find? schedule.id with
  | none =>
      simp only [RunOp.exec, Estate.exec, CpOp.exec, found]
      exact error_ends platform call _ _
  | some row =>
      simp only [RunOp.exec, Estate.exec, CpOp.exec, found, comparedPlace]
      change (lifted (if passed platform (toSchedule row) occurrence then _ else _)).Follows _ _ _ _
      by_cases behind : passed platform (toSchedule row) occurrence = true
      · rw [if_pos behind, if_pos behind]
        exact accepted_ends platform call occurrence _ named
      · rw [if_neg behind, if_neg behind]
        exact refused_ends platform call _ _ rfl

theorem count_exec (lastRunAt token id : String) (next : Option String) (revision : Int) (state : RunState) :
    (RunOp.exec platform (.base (.advanceSchedule lastRunAt next id revision token)) state).1 =
      .ok (swapped state id revision token) := rfl

theorem advance_places (call : CursorCall) (input : ScheduleOccurrenceAck) (row : ScheduleRow) (nowMs syncedAt occurrence : Int)
    (mine : row.id = call.schedule) (named : call.occurrence platform = some occurrence)
    (parsed : platform.dateParse input.scheduled_for = some occurrence)
    (here : cursorElsewhere platform (toSchedule row) input.scheduled_for (toISOString occurrence) occurrence = false) :
    (lifted (advance platform input (toSchedule row) (toISOString occurrence) occurrence nowMs syncedAt)).Follows
      (RunOp.exec platform) (cursorNext platform call) (.advancing occurrence (toSchedule row)) (ackEnds platform call) := by
  have valid := date_parse_valid platform.otherDate input.scheduled_for occurrence parsed
  have swaps := read_swaps platform row input nowMs occurrence parsed here
  have again : Swaps platform occurrence
      (ackedNext platform (toSchedule row) (toISOString occurrence) (enqueuedOf input) nowMs) (toISOString occurrence) := by
    refine ⟨swaps.past, ?_⟩
    intro time shown
    rw [instant_of_iso platform occurrence valid] at shown
    exact (Option.some.inj shown).symm
  intro state
  refine ⟨_, if_pos ⟨mine, named, swaps⟩, ?_⟩
  rw [count_exec]
  change (lifted (if 0 < swapped state _ _ _ then _ else _)).Follows _ _ _ _
  by_cases counted : 0 < swapped state (toSchedule row).id (toSchedule row).revision
      ((toSchedule row).next_run_at.getD (toISOString occurrence))
  · rw [if_pos counted, if_pos counted]
    exact applied_follows platform call input (toSchedule row) syncedAt occurrence mine named
  · rw [if_neg counted, if_neg counted]
    by_cases other : (toSchedule row).next_run_at.getD (toISOString occurrence) ≠ toISOString occurrence
    · rw [if_pos other, if_pos other]
      intro later
      refine ⟨_, if_pos ⟨mine, named, again⟩, ?_⟩
      rw [count_exec]
      change (lifted (if 0 < swapped later _ _ _ then _ else _)).Follows _ _ _ _
      by_cases recounted : 0 < swapped later (toSchedule row).id (toSchedule row).revision (toISOString occurrence)
      · rw [if_pos recounted, if_pos recounted]
        exact applied_follows platform call input (toSchedule row) syncedAt occurrence mine named
      · rw [if_neg recounted, if_neg recounted]
        exact lost_follows platform call (toSchedule row) occurrence mine named
    · rw [if_neg other, if_neg other]
      exact lost_follows platform call (toSchedule row) occurrence mine named

theorem ack_places (input : ScheduleOccurrenceAck) (nowMs syncedAt : Int) :
    (lifted (ackOccurrence platform input nowMs syncedAt)).Follows (RunOp.exec platform)
      (cursorNext platform (.ack input nowMs syncedAt)) .reading (ackEnds platform (.ack input nowMs syncedAt)) := by
  intro state
  refine ⟨_, if_pos rfl, ?_⟩
  cases found : state.estate.cp.schedules.find? input.schedule_id with
  | none =>
      simp only [RunOp.exec, Estate.exec, CpOp.exec, found]
      exact error_ends platform _ _ _
  | some row =>
      have rowId := state.estate.cp.schedules.find_key input.schedule_id row found
      simp only [RunOp.exec, Estate.exec, CpOp.exec, found, readPlace, ackPlace]
      change (lifted (if (toSchedule row).backend_id ≠ input.backend_id then _ else _)).Follows _ _ _ _
      by_cases backend : (toSchedule row).backend_id ≠ input.backend_id
      · rw [if_pos backend, if_pos (Or.inl backend)]
        exact error_ends platform _ _ _
      · rw [if_neg backend]
        by_cases revision : input.revision ≠ (toSchedule row).revision
        · rw [if_pos revision, if_pos (Or.inr (Or.inl revision))]
          exact refused_ends platform _ _ _ rfl
        · rw [if_neg revision]
          cases enabled : (toSchedule row).enabled with
          | false =>
              rw [if_pos (Or.inr (Or.inr rfl))]
              exact refused_ends platform _ _ _ rfl
          | true =>
              rw [if_neg (by simp [not_not.mp backend, not_not.mp revision])]
              change (lifted (match platform.dateParse input.scheduled_for with | none => _ | some scheduledMs => _)).Follows _ _ _ _
              cases parsed : platform.dateParse input.scheduled_for with
              | none => exact error_ends platform _ _ _
              | some occurrence =>
                  have named : (CursorCall.ack input nowMs syncedAt).occurrence platform = some occurrence := parsed
                  dsimp only
                  by_cases behind : passed platform (toSchedule row) occurrence = true
                  · rw [if_pos behind, if_pos behind]
                    exact accepted_ends platform _ occurrence _ named
                  · rw [if_neg behind, if_neg behind]
                    cases here : cursorElsewhere platform (toSchedule row) input.scheduled_for (toISOString occurrence) occurrence with
                    | true => exact refused_ends platform _ _ _ rfl
                    | false => exact advance_places platform _ input row nowMs syncedAt occurrence rowId named parsed here

theorem sync_stored_follows (call : CursorCall) (id : String) (syncedAt : Int) :
    (lifted (Async.attempt (syncStored platform id syncedAt))).Follows (RunOp.exec platform) (cursorNext platform call) .mirroring
      fun _ _ => True := by
  intro state
  refine ⟨_, rfl, ?_⟩
  cases found : state.estate.cp.schedules.find? id with
  | none =>
      simp only [RunOp.exec, Estate.exec, CpOp.exec, found]
      exact trivial
  | some row =>
      simp only [RunOp.exec, Estate.exec, CpOp.exec, found]
      intro later
      refine ⟨_, rfl, ?_⟩
      generalize (RunOp.exec platform _ later).1 = result
      cases result with
      | ok value => exact trivial
      | error error => exact trivial

theorem book_follows (id : String) (key : Option String) (schedule : ScheduleRecord) (now syncedAt : Int) (mine : schedule.id = id) :
    (bookNext platform schedule now).Follows (RunOp.exec platform) (cursorNext platform (.runNow id key now syncedAt))
      (.booking schedule) fun there _ => there = .mirroring := by
  have past := run_next_past platform schedule now
  rw [bookNext]
  cases cursor : schedule.next_run_at with
  | none =>
      intro state
      rw [advanceFrom, cursor] at past
      exact ⟨_, if_pos ⟨key, now, syncedAt, by rw [mine], past⟩, rfl⟩
  | some raw =>
      intro state
      refine ⟨_, if_pos ⟨rfl, _, past, ?_⟩, rfl⟩
      intro time shown
      obtain ⟨text, present, parsed⟩ := Option.bind_eq_some_iff.mp shown
      cases truthy_some (some raw) text present
      rw [advanceFrom, cursor, Option.bind_some, parsed]
      rfl

theorem run_now_places (id : String) (key : Option String) (now syncedAt : Int) :
    (runNow platform id key now syncedAt).Follows (RunOp.exec platform) (cursorNext platform (.runNow id key now syncedAt))
      .reading fun _ _ => True := by
  intro state
  refine ⟨_, if_pos rfl, ?_⟩
  cases found : state.estate.cp.schedules.find? id with
  | none =>
      simp only [RunOp.exec, Estate.exec, CpOp.exec, found]
      exact trivial
  | some row =>
      have mine : (toSchedule row).id = id := state.estate.cp.schedules.find_key id row found
      simp only [RunOp.exec, Estate.exec, CpOp.exec, found]
      intro later
      refine ⟨_, rfl, ?_⟩
      have answered : (RunOp.exec platform (.createTask (runTemplate (toSchedule row) key) (toSchedule row).id) later).1 =
          later.creations later.created := rfl
      rw [answered]
      cases later.creations later.created with
      | error error => exact trivial
      | ok reused =>
          cases reused with
          | true => exact trivial
          | false =>
              change (bookNext platform (toSchedule row) now >>= _).Follows _ _ (CursorPlace.booking (toSchedule row)) _
              refine follows_bind _ _ _ _ _ _ _ (book_follows platform id key (toSchedule row) now syncedAt mine) ?_ ?_
              · intro there _ same
                subst same
                exact follows_bind _ _ _ _ _ _ _ (sync_stored_follows platform _ id syncedAt) (fun _ _ _ => trivial)
                  fun _ _ _ => trivial
              · intro _ _ _
                exact trivial

theorem cursor_call_follows (call : CursorCall) :
    (call.body platform).Follows (RunOp.exec platform) (cursorNext platform call) .reading (cursorEnds platform call) := by
  cases call with
  | ack input nowMs syncedAt =>
      refine follows_bind _ _ _ _ _ _ _ (ack_places platform input nowMs syncedAt) ?_ ?_
      · intro there reply ends given same accepted
        cases same
        exact ends reply rfl accepted
      · intro there error _ reply failed
        cases failed
  | runNow id key now syncedAt =>
      refine follows_bind _ _ _ _ _ _ _ (run_now_places platform id key now syncedAt) ?_ ?_
      · intro there reply _ given same
        cases same
      · intro there error _ reply failed
        cases failed

end places

section steps

variable (platform : Platform) (id : String)

-- The acknowledged occurrences lie before the cursor, where there is one.
structure KeepsAhead (acknowledged : List Int) (state : RunState) (places : List CursorPlace) : Prop where
  behind : ∀ occurrence ∈ acknowledged, ∀ time, cursorOf platform id state = some time → occurrence < time
  readable : acknowledged = [] ∨ ∀ row, state.estate.cp.schedules.find? id = some row →
    row.next_run_at = none ∨ (instantOf platform row.next_run_at).isSome
  applied : ∀ occurrence, .applied id occurrence ∈ places → occurrence ∈ acknowledged

def neverEarlier (before after : RunState) : Prop :=
  ∀ time later, cursorOf platform id before = some time → cursorOf platform id after = some later → time ≤ later

-- The three kinds of steps: those that leave the schedules, the swaps and the booking.
inductive CursorStep (call : CursorCall) (place there : CursorPlace) (state : RunState) : RunOp → Prop where
  | quiet (op : RunOp) (same : (RunOp.exec platform op state).2.estate.cp.schedules = state.estate.cp.schedules)
      (silent : ∀ lastRunAt next schedule revision token, op ≠ .base (.advanceSchedule lastRunAt next schedule revision token))
      (kept : ∀ schedule occurrence, there = .applied schedule occurrence → place = .applied schedule occurrence)
      (settled : ∀ occurrence, there = .accepted occurrence → place = .applied call.schedule occurrence ∨
        ∃ row, state.estate.cp.schedules.find? call.schedule = some row ∧ passed platform (toSchedule row) occurrence = true) :
      CursorStep call place there state op
  | ackSwap (lastRunAt : String) (next : Option String) (revision : Int) (token : String) (occurrence : Int)
      (swap : AckSwap platform call occurrence next call.schedule token)
      (moved : if 0 < swapped state call.schedule revision token then there = .applied call.schedule occurrence
        else ∀ other, (∀ schedule, there ≠ .applied schedule other) ∧ there ≠ .accepted other) :
      CursorStep call place there state (.base (.advanceSchedule lastRunAt next call.schedule revision token))
  | runSwap (lastRunAt : String) (next : Option String) (schedule : String) (revision : Int) (token : String)
      (swap : RunSwap platform call next token) (moved : there = .mirroring) :
      CursorStep call place there state (.base (.advanceSchedule lastRunAt next schedule revision token))
  | book (lastRunAt : String) (next : Option String) (schedule : String) (revision : Int)
      (booking : RunBooking call next schedule) (moved : there = .mirroring) :
      CursorStep call place there state (.bookRun lastRunAt next schedule revision)

theorem compared_settled (occurrence other : Int) (row : Option ScheduleRow)
    (accepted : comparedPlace platform occurrence row = .accepted other) :
    ∃ found, row = some found ∧ passed platform (toSchedule found) other = true := by
  cases row with
  | none => cases accepted
  | some found =>
      rw [comparedPlace] at accepted
      split at accepted
      · cases accepted
        exact ⟨found, rfl, ‹_›⟩
      · cases accepted

theorem ack_place_settled (input : ScheduleOccurrenceAck) (schedule : ScheduleRecord) (occurrence : Int)
    (accepted : ackPlace platform input schedule = .accepted occurrence) : passed platform schedule occurrence = true := by
  rw [ackPlace] at accepted
  split at accepted
  · cases accepted
  · split at accepted
    · cases accepted
    · split at accepted
      · cases accepted
        assumption
      · split at accepted
        · cases accepted
        · cases accepted

theorem ack_place_unapplied (input : ScheduleOccurrenceAck) (schedule : ScheduleRecord) (name : String) (occurrence : Int) :
    ackPlace platform input schedule ≠ .applied name occurrence := by
  intro reached
  rw [ackPlace] at reached
  split at reached
  · cases reached
  · split at reached
    · cases reached
    · split at reached
      · cases reached
      · split at reached
        · cases reached
        · cases reached

theorem read_place_cases (call : CursorCall) (row : Option ScheduleRow) :
    (∀ name occurrence, readPlace platform call row ≠ .applied name occurrence) ∧
      ∀ occurrence, readPlace platform call row = .accepted occurrence →
        ∃ found, row = some found ∧ passed platform (toSchedule found) occurrence = true := by
  cases row with
  | none => cases call <;> exact ⟨(fun _ _ reached => nomatch reached), fun _ reached => nomatch reached⟩
  | some row =>
      cases call with
      | runNow name key now syncedAt => exact ⟨(fun _ _ reached => nomatch reached), fun _ reached => nomatch reached⟩
      | ack input nowMs syncedAt =>
          exact ⟨ack_place_unapplied platform input (toSchedule row), fun occurrence accepted =>
            ⟨row, rfl, ack_place_settled platform input (toSchedule row) occurrence accepted⟩⟩

theorem compared_unapplied (occurrence : Int) (row : Option ScheduleRow) (name : String) (other : Int) :
    comparedPlace platform occurrence row ≠ .applied name other := by
  intro reached
  cases row with
  | none => cases reached
  | some row =>
      rw [comparedPlace] at reached
      split at reached <;> cases reached

-- A step that reads and stays clear of the two places an acknowledgement passes.
theorem quiet_step (call : CursorCall) (place there : CursorPlace) (state : RunState) (op : RunOp)
    (same : (RunOp.exec platform op state).2.estate.cp.schedules = state.estate.cp.schedules)
    (silent : ∀ lastRunAt next schedule revision token, op ≠ .base (.advanceSchedule lastRunAt next schedule revision token))
    (clear : ∀ occurrence, (∀ name, there ≠ .applied name occurrence) ∧ there ≠ .accepted occurrence) :
    CursorStep platform call place there state op :=
  .quiet op same silent (fun name occurrence reached => absurd reached ((clear occurrence).1 name))
    fun occurrence reached => absurd reached (clear occurrence).2

theorem cursor_next_cases (call : CursorCall) (place there : CursorPlace) (op : RunOp) (state : RunState)
    (moved : cursorNext platform call place op state = some there) : CursorStep platform call place there state op := by
  unfold cursorNext at moved
  split at moved
  case h_1 =>
    split at moved
    · rename_i mine
      cases moved
      obtain ⟨unapplied, settled⟩ := read_place_cases platform call (state.estate.cp.schedules.find? call.schedule)
      subst mine
      exact .quiet _ rfl (fun _ _ _ _ _ same => by cases same) (fun name occurrence reached => absurd reached (unapplied name occurrence))
        fun occurrence reached => Or.inr (settled occurrence reached)
    · cases moved
  case h_2 =>
    split at moved
    · rename_i swap
      cases moved
      obtain rfl := swap.mine
      refine .ackSwap _ _ _ _ _ swap ?_
      split
      · rfl
      · intro other
        split
        · exact ⟨(fun _ reached => by cases reached), fun reached => by cases reached⟩
        · exact ⟨(fun _ reached => by cases reached), fun reached => by cases reached⟩
    · cases moved
  case h_3 =>
    split at moved
    · rename_i swap
      cases moved
      obtain rfl := swap.mine
      refine .ackSwap _ _ _ _ _ swap ?_
      split
      · rfl
      · intro other
        exact ⟨(fun _ reached => by cases reached), fun reached => by cases reached⟩
    · cases moved
  case h_4 =>
    split at moved
    · rename_i mine
      cases moved
      subst mine
      exact .quiet _ rfl (fun _ _ _ _ _ same => by cases same)
        (fun name occurrence reached => absurd reached (compared_unapplied platform _ _ name occurrence))
        fun occurrence reached => Or.inr (compared_settled platform _ occurrence _ reached)
    · cases moved
  case h_5 =>
    cases moved
    refine .quiet _ rfl (fun _ _ _ _ _ same => by cases same) ?_ ?_
    · intro name occurrence reached
      split at reached
      · exact reached
      · cases reached
    · intro occurrence reached
      split at reached <;> cases reached
  case h_6 =>
    split at moved
    · rename_i mine
      cases moved
      subst mine
      refine .quiet _ (congrArg CpState.schedules (upsert_exec platform state.estate _ _).1) (fun _ _ _ _ _ same => by cases same)
        (fun _ _ reached => by cases reached) ?_
      intro occurrence reached
      cases reached
      exact Or.inl rfl
    · cases moved
  case h_7 =>
    cases moved
    refine quiet_step platform call _ _ state _ rfl (fun _ _ _ _ _ same => by cases same) ?_
    intro occurrence
    split
    · exact ⟨(fun _ reached => by cases reached), fun reached => by cases reached⟩
    · exact ⟨(fun _ reached => by cases reached), fun reached => by cases reached⟩
  case h_8 =>
    split at moved
    · rename_i swap
      cases moved
      exact .runSwap _ _ _ _ _ swap rfl
    · cases moved
  case h_9 =>
    split at moved
    · rename_i booking
      cases moved
      exact .book _ _ _ _ booking rfl
    · cases moved
  case h_10 =>
    cases moved
    exact quiet_step platform call _ _ state _ rfl (fun _ _ _ _ _ same => by cases same)
      fun _ => ⟨(fun _ reached => by cases reached), fun reached => by cases reached⟩
  case h_11 =>
    cases moved
    exact quiet_step platform call _ _ state _ (congrArg CpState.schedules (upsert_exec platform state.estate _ _).1)
      (fun _ _ _ _ _ same => by cases same) fun _ => ⟨(fun _ reached => by cases reached), fun reached => by cases reached⟩
  case h_12 => cases moved

theorem cursor_of_row (state : RunState) (row : ScheduleRow) (found : state.estate.cp.schedules.find? id = some row) :
    cursorOf platform id state = instantOf platform row.next_run_at := by
  rw [cursorOf, found]
  rfl

theorem passed_cursor (row : ScheduleRow) (occurrence : Int) (behind : passed platform (toSchedule row) occurrence = true) :
    ∃ time, instantOf platform row.next_run_at = some time ∧ occurrence < time := by
  rw [passed, Option.any_eq_true] at behind
  obtain ⟨time, shown, later⟩ := behind
  have same : instantOf platform (toSchedule row).next_run_at = some time := by
    obtain ⟨text, canonical, read⟩ := Option.bind_eq_some_iff.mp shown
    obtain ⟨raw, present, iso⟩ := Option.bind_eq_some_iff.mp canonical
    obtain ⟨instant, parsed, rfl⟩ := Option.map_eq_some_iff.mp iso
    rw [platform_parse_iso platform instant (date_parse_valid platform.otherDate raw instant parsed)] at read
    cases read
    exact Option.bind_eq_some_iff.mpr ⟨raw, present, parsed⟩
  exact ⟨time, (instant_of_truthy platform row.next_run_at).symm.trans same, by simpa using later⟩

theorem past_instant (next : Option String) (time : Int) (past : Past next time) :
    next = none ∨ ∃ later, instantOf platform next = some later ∧ time < later := by
  cases next with
  | none => exact Or.inl rfl
  | some text =>
      obtain ⟨later, rfl, valid, after⟩ := past text rfl
      exact Or.inr ⟨later, instant_of_iso platform later valid, after⟩

theorem located_applied (places : List CursorPlace) (i : Nat) (place there : CursorPlace) (located : places[i]? = some place)
    (occurrence : Int) (member : .applied id occurrence ∈ places.set i there) :
    there = .applied id occurrence ∨ .applied id occurrence ∈ places := by
  obtain ⟨j, found⟩ := List.getElem?_of_mem member
  rcases (located_set places i j place there _ located).mp found with ⟨_, same⟩ | ⟨_, before⟩
  · exact Or.inl same.symm
  · exact Or.inr (List.mem_of_getElem? before)

-- A step that leaves the row where it is.
theorem same_ahead (acknowledged : List Int) (state after : RunState) (places : List CursorPlace) (i : Nat)
    (place there : CursorPlace) (ready : KeepsAhead platform id acknowledged state places) (located : places[i]? = some place)
    (same : after.estate.cp.schedules.find? id = state.estate.cp.schedules.find? id)
    (kept : ∀ occurrence, there = .applied id occurrence → occurrence ∈ acknowledged) :
    KeepsAhead platform id acknowledged after (places.set i there) ∧ neverEarlier platform id state after := by
  have cursor : cursorOf platform id after = cursorOf platform id state := by rw [cursorOf, cursorOf, same]
  refine ⟨⟨?_, ?_, ?_⟩, ?_⟩
  · rw [cursor]
    exact ready.behind
  · rw [same]
    exact ready.readable
  · intro occurrence member
    rcases located_applied id places i place there located occurrence member with here | before
    · exact kept occurrence here
    · exact ready.applied occurrence before
  · intro time later before now
    rw [cursor, before] at now
    exact le_of_eq (Option.some.inj now)

-- A step that moves the row's cursor past an instant no acknowledged occurrence lies after.
theorem moved_ahead (acknowledged : List Int) (state after : RunState) (places : List CursorPlace) (i : Nat)
    (place there : CursorPlace) (located : places[i]? = some place) (row : ScheduleRow) (lastRunAt : String)
    (next : Option String) (time : Int) (found : state.estate.cp.schedules.find? id = some row)
    (left : after.estate.cp.schedules.find? id = some (row.advance lastRunAt next)) (past : Past next time)
    (bound : ∀ occurrence ∈ acknowledged, occurrence ≤ time)
    (cursor : ∀ before, instantOf platform row.next_run_at = some before → before ≤ time)
    (applied : ∀ occurrence, (there = .applied id occurrence ∨ .applied id occurrence ∈ places) → occurrence ∈ acknowledged) :
    KeepsAhead platform id acknowledged after (places.set i there) ∧ neverEarlier platform id state after := by
  have now : cursorOf platform id after = instantOf platform next := cursor_of_row platform id after _ left
  have before := cursor_of_row platform id state row found
  rcases past_instant platform next time past with ended | ⟨reached, shown, beyond⟩
  · have none_now : cursorOf platform id after = none := by
      rw [now, ended]
      rfl
    refine ⟨⟨?_, Or.inr ?_, ?_⟩, ?_⟩
    · intro occurrence _ later cursorNow
      rw [none_now] at cursorNow
      cases cursorNow
    · intro other same
      rw [left] at same
      cases same
      exact Or.inl ended
    · intro occurrence member
      exact applied occurrence (located_applied id places i place there located occurrence member)
    · intro earlier later _ cursorNow
      rw [none_now] at cursorNow
      cases cursorNow
  · rw [shown] at now
    refine ⟨⟨?_, Or.inr ?_, ?_⟩, ?_⟩
    · intro occurrence member later cursorNow
      rw [now] at cursorNow
      cases cursorNow
      exact lt_of_le_of_lt (bound occurrence member) beyond
    · intro other same
      rw [left] at same
      cases same
      exact Or.inr (Option.isSome_iff_exists.mpr ⟨reached, shown⟩)
    · intro occurrence member
      exact applied occurrence (located_applied id places i place there located occurrence member)
    · intro earlier later cursorBefore cursorNow
      rw [now] at cursorNow
      cases cursorNow
      rw [before] at cursorBefore
      exact le_of_lt (lt_of_le_of_lt (cursor earlier cursorBefore) beyond)

theorem swap_row (state : RunState) (lastRunAt : String) (next : Option String) (revision : Int) (token : String)
    (counted : 0 < swapped state id revision token) :
    ∃ row, state.estate.cp.schedules.find? id = some row ∧ row.next_run_at = some token ∧
      (RunOp.exec platform (.base (.advanceSchedule lastRunAt next id revision token)) state).2.estate.cp.schedules.find? id =
        some (row.advance lastRunAt next) := by
  have selected := state.estate.cp.schedules.count_selected id fun row => row.revision == revision && row.next_run_at == some token
  have left : (RunOp.exec platform (.base (.advanceSchedule lastRunAt next id revision token)) state).2.estate.cp.schedules.find? id =
      _ := swapped_find state.estate.cp lastRunAt token id id next revision
  rw [swapped, show state.estate.cp.schedules.rows.countP (ScheduleRow.matches id revision token) = _ from selected] at counted
  cases found : state.estate.cp.schedules.find? id with
  | none =>
      rw [found] at counted
      exact absurd counted (by simp)
  | some row =>
      rw [found, Option.toList_some, List.countP_pos_iff] at counted
      obtain ⟨other, member, hit⟩ := counted
      cases List.mem_singleton.mp member
      obtain ⟨same, token_here⟩ := Bool.and_eq_true_iff.mp hit
      have key := state.estate.cp.schedules.find_key id row found
      refine ⟨row, rfl, by simpa using token_here, ?_⟩
      rw [left, found, Option.map_some, if_pos]
      rw [ScheduleRow.matches, key]
      simpa using ⟨by simpa using same, by simpa using token_here⟩

theorem swap_missed (state : RunState) (lastRunAt : String) (next : Option String) (schedule : String) (revision : Int)
    (token : String) (missed : schedule ≠ id ∨ ¬ 0 < swapped state schedule revision token) :
    (RunOp.exec platform (.base (.advanceSchedule lastRunAt next schedule revision token)) state).2.estate.cp.schedules.find? id =
      state.estate.cp.schedules.find? id := by
  rcases missed with different | none_counted
  · exact swapped_frame state.estate.cp lastRunAt token schedule id next revision different
  · refine (swapped_find state.estate.cp lastRunAt token schedule id next revision).trans ?_
    cases found : state.estate.cp.schedules.find? id with
    | none => rfl
    | some row =>
        have unmatched : row.matches schedule revision token = false := by
          by_contra hit
          exact none_counted (List.countP_pos_iff.mpr
            ⟨row, state.estate.cp.schedules.find_mem id row found, by simpa using hit⟩)
        rw [Option.map_some, unmatched]
        rfl

-- An acknowledgement of a slot that is already one, or that the cursor has passed.
theorem more_ahead (acknowledged : List Int) (state : RunState) (places : List CursorPlace) (occurrence : Int)
    (ready : KeepsAhead platform id acknowledged state places)
    (settled : occurrence ∈ acknowledged ∨
      ∃ row, state.estate.cp.schedules.find? id = some row ∧ passed platform (toSchedule row) occurrence = true) :
    KeepsAhead platform id (occurrence :: acknowledged) state places := by
  refine ⟨?_, ?_, fun other member => List.mem_cons_of_mem _ (ready.applied other member)⟩
  · intro other member time cursor
    rcases List.mem_cons.mp member with rfl | older
    · rcases settled with before | ⟨row, found, behind⟩
      · exact ready.behind other before time cursor
      · obtain ⟨shown, here, later⟩ := passed_cursor platform row other behind
        rw [cursor_of_row platform id state row found, here] at cursor
        cases cursor
        exact later
    · exact ready.behind other older time cursor
  · refine Or.inr ?_
    rcases settled with before | ⟨row, found, behind⟩
    · exact ready.readable.resolve_left (List.ne_nil_of_mem before)
    · intro other same
      rw [found] at same
      cases same
      obtain ⟨shown, here, _⟩ := passed_cursor platform row occurrence behind
      exact Or.inr (Option.isSome_iff_exists.mpr ⟨shown, here⟩)

theorem token_bound (acknowledged : List Int) (state : RunState) (places : List CursorPlace)
    (ready : KeepsAhead platform id acknowledged state places) (row : ScheduleRow) (token : String) (time : Int)
    (found : state.estate.cp.schedules.find? id = some row) (stored : row.next_run_at = some token)
    (here : ∀ shown, instantOf platform (some token) = some shown → shown = time) :
    ∀ occurrence ∈ acknowledged, occurrence ≤ time := by
  intro occurrence member
  rcases ready.readable.resolve_left (List.ne_nil_of_mem member) row found with ended | shown
  · rw [stored] at ended
    cases ended
  · obtain ⟨cursor, shown⟩ := Option.isSome_iff_exists.mp shown
    have behind := ready.behind occurrence member cursor ((cursor_of_row platform id state row found).trans shown)
    rw [stored] at shown
    rw [← here cursor shown]
    exact le_of_lt behind

section kinds

variable (acknowledged : List Int) (state : RunState) (places : List CursorPlace) (i : Nat) (call : CursorCall)
  (place there : CursorPlace) (ready : KeepsAhead platform id acknowledged state places) (located : places[i]? = some place)

include ready located

theorem quiet_ahead (op : RunOp) (same : (RunOp.exec platform op state).2.estate.cp.schedules = state.estate.cp.schedules)
    (kept : ∀ schedule occurrence, there = .applied schedule occurrence → place = .applied schedule occurrence)
    (settled : ∀ occurrence, there = .accepted occurrence → place = .applied call.schedule occurrence ∨
      ∃ row, state.estate.cp.schedules.find? call.schedule = some row ∧ passed platform (toSchedule row) occurrence = true)
    (mark : Option Int) (marked : ∀ occurrence, mark = some occurrence → call.schedule = id ∧ there = .accepted occurrence) :
    KeepsAhead platform id (mark.toList ++ acknowledged) (RunOp.exec platform op state).2 (places.set i there) ∧
      neverEarlier platform id state (RunOp.exec platform op state).2 := by
  have before : KeepsAhead platform id (mark.toList ++ acknowledged) state places := by
    cases mark with
    | none => exact ready
    | some occurrence =>
        obtain ⟨mine, accepted⟩ := marked occurrence rfl
        refine more_ahead platform id acknowledged state places occurrence ready ?_
        rw [mine] at settled
        rcases settled occurrence accepted with here | behind
        · exact Or.inl (ready.applied occurrence (List.mem_of_getElem? (here ▸ located)))
        · exact Or.inr behind
  refine same_ahead platform id _ state _ places i place there before located (by rw [same]) ?_
  intro occurrence reached
  exact before.applied occurrence (List.mem_of_getElem? (kept id occurrence reached ▸ located))

theorem ack_swap_ahead (lastRunAt : String) (next : Option String) (revision : Int) (token : String) (occurrence : Int)
    (swap : AckSwap platform call occurrence next call.schedule token)
    (moved : if 0 < swapped state call.schedule revision token then there = .applied call.schedule occurrence
      else ∀ other, (∀ schedule, there ≠ .applied schedule other) ∧ there ≠ .accepted other) :
    KeepsAhead platform id
        ((if call.schedule = id ∧ 0 < swapped state call.schedule revision token then some occurrence else none).toList ++ acknowledged)
        (RunOp.exec platform (.base (.advanceSchedule lastRunAt next call.schedule revision token)) state).2 (places.set i there) ∧
      neverEarlier platform id state
        (RunOp.exec platform (.base (.advanceSchedule lastRunAt next call.schedule revision token)) state).2 := by
  by_cases counted : 0 < swapped state call.schedule revision token
  · rw [if_pos counted] at moved
    by_cases mine : call.schedule = id
    · rw [if_pos ⟨mine, counted⟩]
      subst mine
      obtain ⟨row, found, stored, left⟩ := swap_row platform call.schedule state lastRunAt next revision token counted
      have bound := token_bound platform call.schedule acknowledged state places ready row token occurrence found stored
        swap.swaps.here
      refine moved_ahead platform call.schedule _ state _ places i place there located row lastRunAt next occurrence found left
        swap.swaps.past ?_ ?_ ?_
      · intro other member
        rcases List.mem_cons.mp member with rfl | older
        · exact le_refl _
        · exact bound other older
      · intro before shown
        rw [stored] at shown
        exact le_of_eq (swap.swaps.here before shown)
      · intro other reached
        rcases reached with here | before
        · rw [moved] at here
          cases here
          exact List.mem_cons_self
        · exact List.mem_cons_of_mem _ (ready.applied other before)
    · rw [if_neg fun both => mine both.1]
      refine same_ahead platform id acknowledged state _ places i place there ready located
        (swap_missed platform id state lastRunAt next _ revision token (Or.inl mine)) ?_
      intro other reached
      rw [moved] at reached
      cases reached
      exact absurd rfl mine
  · rw [if_neg counted] at moved
    rw [if_neg fun both => counted both.2]
    refine same_ahead platform id acknowledged state _ places i place there ready located
      (swap_missed platform id state lastRunAt next _ revision token (Or.inr counted)) ?_
    intro other reached
    exact absurd reached ((moved other).1 id)

theorem run_swap_ahead (lastRunAt : String) (next : Option String) (schedule : String) (revision : Int) (token : String)
    (swap : RunSwap platform call next token) (moved : there = .mirroring) :
    KeepsAhead platform id acknowledged
        (RunOp.exec platform (.base (.advanceSchedule lastRunAt next schedule revision token)) state).2 (places.set i there) ∧
      neverEarlier platform id state
        (RunOp.exec platform (.base (.advanceSchedule lastRunAt next schedule revision token)) state).2 := by
  subst moved
  by_cases hit : schedule = id ∧ 0 < swapped state schedule revision token
  · obtain ⟨rfl, counted⟩ := hit
    obtain ⟨origin, past, here⟩ := swap.2
    obtain ⟨row, found, stored, left⟩ := swap_row platform schedule state lastRunAt next revision token counted
    refine moved_ahead platform schedule _ state _ places i place .mirroring located row lastRunAt next origin found left past
      (token_bound platform schedule acknowledged state places ready row token origin found stored here) ?_ ?_
    · intro before shown
      rw [stored] at shown
      exact le_of_eq (here before shown)
    · intro other reached
      exact ready.applied other (reached.resolve_left fun same => nomatch same)
  · refine same_ahead platform id acknowledged state _ places i place .mirroring ready located
      (swap_missed platform id state lastRunAt next _ revision token (not_and_or.mp hit)) ?_
    intro other reached
    cases reached

theorem book_ahead (lastRunAt : String) (next : Option String) (schedule : String) (revision : Int)
    (booking : RunBooking call next schedule) (moved : there = .mirroring)
    (fresh : ∀ key now syncedAt, call = .runNow id key now syncedAt → schedule = id →
      cursorOf platform id state = none ∧ ∀ occurrence ∈ acknowledged, occurrence ≤ now) :
    KeepsAhead platform id acknowledged (RunOp.exec platform (.bookRun lastRunAt next schedule revision) state).2 (places.set i there) ∧
      neverEarlier platform id state (RunOp.exec platform (.bookRun lastRunAt next schedule revision) state).2 := by
  subst moved
  have left := state.estate.cp.schedules.find_update (fun row => decide (row.id = schedule) && row.revision == revision)
    (ScheduleRow.advance lastRunAt next) (fun _ => rfl) id
  cases found : state.estate.cp.schedules.find? id with
  | none =>
      rw [found, Option.map_none] at left
      exact same_ahead platform id acknowledged state _ places i place .mirroring ready located (left.trans found.symm)
        fun _ reached => nomatch reached
  | some row =>
      rw [found, Option.map_some] at left
      have key := state.estate.cp.schedules.find_key id row found
      by_cases hit : (decide (row.id = schedule) && row.revision == revision) = true
      · rw [if_pos hit] at left
        have mine : schedule = id := (of_decide_eq_true (Bool.and_eq_true_iff.mp hit).1).symm.trans key
        obtain ⟨asked, now, syncedAt, called, past⟩ := booking
        rw [mine] at called
        obtain ⟨unset, bound⟩ := fresh asked now syncedAt called mine
        refine moved_ahead platform id _ state _ places i place .mirroring located row lastRunAt next now found left past bound ?_ ?_
        · intro before shown
          rw [cursor_of_row platform id state row found, shown] at unset
          cases unset
        · intro other reached
          exact ready.applied other (reached.resolve_left fun same => nomatch same)
      · rw [if_neg hit] at left
        exact same_ahead platform id acknowledged state _ places i place .mirroring ready located (left.trans found.symm)
          fun _ reached => nomatch reached

end kinds

theorem accepted_reply (rest : RunService (Option ScheduleOccurrenceAckResult)) (replied : acceptedReply rest = true) :
    ∃ reply, rest = .ret (some reply) ∧ reply.accepted = true := by
  unfold acceptedReply at replied
  split at replied
  · exact ⟨_, rfl, replied⟩
  · cases replied

theorem accepts_silent (op : RunOp) (result : Except AppError op.Result) (rest : RunService (Option ScheduleOccurrenceAckResult))
    (silent : ∀ lastRunAt next schedule revision token, op ≠ .base (.advanceSchedule lastRunAt next schedule revision token))
    (accepted : accepts op result rest = true) : ∃ reply, rest = .ret (some reply) ∧ reply.accepted = true := by
  rw [accepts, Bool.or_eq_true] at accepted
  rcases accepted with counted | replied
  · unfold countsSwap at counted
    split at counted
    · exact absurd rfl (silent _ _ _ _ _)
    · cases counted
  · exact accepted_reply rest replied

-- What the step of one call adds to the acknowledged occurrences keeps them behind the cursor it leaves.
theorem ahead_step (acknowledged : List Int) (state : RunState) (places : List CursorPlace) (i : Nat) (call : CursorCall)
    (place there : CursorPlace) (op : RunOp) (rest : RunService (Option ScheduleOccurrenceAckResult))
    (ready : KeepsAhead platform id acknowledged state places) (located : places[i]? = some place)
    (moved : cursorNext platform call place op state = some there)
    (ends : ∀ reply, rest = .ret (some reply) → reply.accepted = true →
      ∃ occurrence, there = .accepted occurrence ∧ call.occurrence platform = some occurrence)
    (fresh : ∀ key now syncedAt lastRunAt next revision, call = .runNow id key now syncedAt →
      op = .bookRun lastRunAt next id revision →
        cursorOf platform id state = none ∧ ∀ occurrence ∈ acknowledged, occurrence ≤ now) :
    KeepsAhead platform id
        ((if call.schedule = id ∧ accepts op (RunOp.exec platform op state).1 rest then call.occurrence platform else none).toList
          ++ acknowledged)
        (RunOp.exec platform op state).2 (places.set i there) ∧
      neverEarlier platform id state (RunOp.exec platform op state).2 := by
  cases cursor_next_cases platform call place there op state moved with
  | quiet _ same silent kept settled =>
      refine quiet_ahead platform id acknowledged state places i call place there ready located op same kept settled _ ?_
      intro occurrence mark
      split at mark
      · rename_i counts
        obtain ⟨reply, returned, accepted⟩ := accepts_silent op _ rest silent counts.2
        obtain ⟨other, here, named⟩ := ends reply returned accepted
        rw [mark] at named
        cases named
        exact ⟨counts.1, here⟩
      · cases mark
  | ackSwap lastRunAt next revision token occurrence swap reached =>
      have counts : accepts (.base (.advanceSchedule lastRunAt next call.schedule revision token))
          (RunOp.exec platform (.base (.advanceSchedule lastRunAt next call.schedule revision token)) state).1 rest = true ↔
            0 < swapped state call.schedule revision token := by
        rw [count_exec, accepts, Bool.or_eq_true, countsSwap, decide_eq_true_eq]
        refine ⟨?_, Or.inl⟩
        rintro (counted | replied)
        · exact counted
        · by_contra missed
          rw [if_neg missed] at reached
          obtain ⟨reply, returned, accepted⟩ := accepted_reply rest replied
          obtain ⟨other, here, _⟩ := ends reply returned accepted
          exact (reached other).2 here
      simp only [counts, swap.named]
      exact ack_swap_ahead platform id acknowledged state places i call place there ready located lastRunAt next revision token
        occurrence swap reached
  | runSwap lastRunAt next schedule revision token swap reached =>
      rw [swap.1, ite_self]
      exact run_swap_ahead platform id acknowledged state places i call place there ready located lastRunAt next schedule revision
        token swap reached
  | book lastRunAt next schedule revision booking reached =>
      have unnamed : call.occurrence platform = none := by
        obtain ⟨key, now, syncedAt, called, _⟩ := booking
        rw [called]
        rfl
      rw [unnamed, ite_self]
      refine book_ahead platform id acknowledged state places i call place there ready located lastRunAt next schedule revision
        booking reached ?_
      intro key now syncedAt called same
      subst same
      exact fresh key now syncedAt lastRunAt next revision called rfl

-- The calls keep to their places, and the cursor to the acknowledged occurrences.
def KeepsHistory (history : CursorHistory) : Prop :=
  ∃ places, Aligned (RunOp.exec platform) (cursorNext platform) (cursorEnds platform) history.pool.threads places ∧
    KeepsAhead platform id history.acknowledged history.pool.state places

theorem history_start (history : CursorHistory) (call : CursorCall) (kept : KeepsHistory platform id history) :
    KeepsHistory platform id (history.next platform id (.start call)) := by
  obtain ⟨places, aligned, ready⟩ := kept
  have begun := aligned_append _ _ _ _ _ aligned ⟨call, call.body platform⟩ CursorPlace.reading (cursor_call_follows platform call)
  refine ⟨places ++ [CursorPlace.reading], begun, ready.behind, ready.readable, ?_⟩
  intro occurrence member
  rcases List.mem_append.mp member with older | new
  · exact ready.applied occurrence older
  · cases List.mem_singleton.mp new

theorem history_step (history : CursorHistory) (event : PoolEvent CursorCall) (kept : KeepsHistory platform id history)
    (fresh : booksFresh platform id history event) :
    KeepsHistory platform id (history.next platform id event) ∧
      neverEarlier platform id history.pool.state (history.next platform id event).pool.state := by
  cases event with
  | start call =>
      refine ⟨history_start platform id history call kept, ?_⟩
      intro time later before after
      exact le_of_eq (Option.some.inj (before.symm.trans after))
  | step i =>
      obtain ⟨places, aligned, ready⟩ := kept
      by_cases pending : ∃ call op rest, history.pool.threads[i]? = some ⟨call, .call op rest⟩
      · obtain ⟨call, op, rest, found⟩ := pending
        obtain ⟨place, located, follows⟩ := aligned_place _ _ _ _ _ aligned i _ found
        obtain ⟨there, moved, later⟩ := follows history.pool.state
        obtain ⟨ahead, forward⟩ := ahead_step platform id history.acknowledged history.pool.state places i call place there op
          (rest (RunOp.exec platform op history.pool.state).1) ready located moved
          (by
            intro reply returned accepted
            rw [returned] at later
            exact later reply rfl accepted)
          (by
            intro key now syncedAt lastRunAt next revision called booked
            subst called booked
            exact fresh i key now syncedAt lastRunAt next revision rest rfl found)
        have taken := advance_taken (RunOp.exec platform) history.pool i call op rest found
        have reached : history.next platform id (.step i) =
            ⟨⟨(RunOp.exec platform op history.pool.state).2,
              history.pool.threads.set i ⟨call, rest (RunOp.exec platform op history.pool.state).1⟩⟩,
              (if call.schedule = id ∧ accepts op (RunOp.exec platform op history.pool.state).1
                  (rest (RunOp.exec platform op history.pool.state).1) then call.occurrence platform else none).toList ++
                history.acknowledged⟩ := by
          rw [CursorHistory.next, acknowledges]
          simp only [found, Pool.perform, taken]
        rw [reached]
        exact ⟨⟨places.set i there, aligned_set _ _ _ _ _ aligned i ⟨call, _⟩ there later, ahead⟩, forward⟩
      · have idle : ∀ call op rest, history.pool.threads[i]? ≠ some ⟨call, .call op rest⟩ := by
          intro call op rest found
          exact pending ⟨call, op, rest, found⟩
        have reached : history.next platform id (.step i) = history := by
          rw [CursorHistory.next, Pool.perform, advance_lost _ _ _ idle, acknowledges]
          split
          · rename_i call op rest found
            exact absurd found (idle call op rest)
          · rfl
        rw [reached]
        refine ⟨⟨places, aligned, ready⟩, ?_⟩
        intro time later before after
        exact le_of_eq (Option.some.inj (before.symm.trans after))

theorem run_keeps_history (start : RunState) (events : List (PoolEvent CursorCall))
    (along : Along (CursorHistory.next platform id) (booksFresh platform id) ⟨⟨start, []⟩, []⟩ events) :
    KeepsHistory platform id (cursorRun platform id start events) := by
  refine along_keeps (CursorHistory.next platform id) (booksFresh platform id) (KeepsHistory platform id)
    (fun history event kept fresh => (history_step platform id history event kept fresh).1) _ events ?_ along
  refine ⟨[], ⟨rfl, ?_⟩, ?_, Or.inl rfl, ?_⟩
  · intro i thread place found
    cases found
  · intro occurrence member
    cases member
  · intro occurrence member
    cases member

end steps

-- While no runNow books from an empty cursor over one set since, the cursor never goes back, and it never
-- comes to an acknowledged occurrence.
theorem cursor_forward (platform : Platform) (id : String) (start : RunState) (events : List (PoolEvent CursorCall))
    (along : Along (CursorHistory.next platform id) (booksFresh platform id) ⟨⟨start, []⟩, []⟩ events) :
    (∀ occurrence ∈ (cursorRun platform id start events).acknowledged,
      cursorOf platform id (cursorRun platform id start events).pool.state ≠ some occurrence) ∧
    ∀ before event after, events = before ++ event :: after →
      neverEarlier platform id (cursorRun platform id start before).pool.state
        (cursorRun platform id start (before ++ [event])).pool.state := by
  refine ⟨?_, ?_⟩
  · intro occurrence member cursor
    obtain ⟨places, _, ready⟩ := run_keeps_history platform id start events along
    exact lt_irrefl occurrence (ready.behind occurrence member occurrence cursor)
  · intro before event after split
    rw [split] at along
    obtain ⟨earlier, fresh⟩ := along_split _ _ _ before event after along
    have kept := run_keeps_history platform id start before earlier
    have reached : cursorRun platform id start (before ++ [event]) =
        (cursorRun platform id start before).next platform id event := run_from_concat _ _ before event
    rw [reached]
    exact (history_step platform id _ event kept fresh).2

-- Every minute of a leap day.
def leapMinutes : Platform :=
  { utcMinutes with
    parseCron := fun expression => if expression = "* * 29 2 *" then some ⟨none, none, some [29], some [2], none⟩ else none }

-- No leap day lay within the scan's horizon when this schedule was created.
def leapRow : ScheduleRow := { mirrored (minutely 1 (some ⟨.queue, .run_once, 1⟩)) with cron := "* * 29 2 *", next_run_at := none }

def leapStart : RunState where
  estate := { emptyEstate [] with cp := controlPlaneWith leapRow }
  creations _ := .ok false
  created := 0

def leapAck : ScheduleOccurrenceAck :=
  ⟨"backend", "schedule", 1, "2028-02-29T00:00:00.000Z", some "2028-02-29T00:01:00.000Z", none, some 1⟩

-- Two runNow calls read the empty cursor just before the leap day; the second books its first minute, and
-- an ack of that minute moves on to the next.
def leapRuns : List (PoolEvent CursorCall) :=
  [.start (.runNow "schedule" none 1835395199900 1835395199900), .start (.runNow "schedule" none 1835395199900 1835395199900),
    .step 0, .step 1, .step 0, .step 1, .step 1, .start (.ack leapAck 1835395200100 1835395200100), .step 2, .step 2]

def booksFreshNow (platform : Platform) (id : String) (history : CursorHistory) (event : PoolEvent CursorCall) : Bool :=
  match event with
  | .start _ => true
  | .step i =>
      match history.pool.threads[i]? with
      | some ⟨.runNow _ _ now _, .call (.bookRun _ _ _ _) _⟩ =>
          (cursorOf platform id history.pool.state).isNone && history.acknowledged.all fun occurrence => decide (occurrence ≤ now)
      | _ => true

theorem books_fresh_now (platform : Platform) (id : String) (history : CursorHistory) (event : PoolEvent CursorCall)
    (fresh : booksFreshNow platform id history event = true) : booksFresh platform id history event := by
  intro i key now syncedAt lastRunAt next revision rest stepped found
  subst stepped
  simp only [booksFreshNow, found, Bool.and_eq_true, Option.isNone_iff_eq_none, List.all_eq_true, decide_eq_true_eq] at fresh
  exact fresh

theorem cursor_forward_leap :
    let history := cursorRun leapMinutes "schedule" leapStart leapRuns
    history.acknowledged = [1835395200000] ∧ cursorOf leapMinutes "schedule" history.pool.state = some 1835395260000 ∧
      (∀ occurrence ∈ history.acknowledged, cursorOf leapMinutes "schedule" history.pool.state ≠ some occurrence) ∧
      ∀ before event after, leapRuns = before ++ event :: after →
        neverEarlier leapMinutes "schedule" (cursorRun leapMinutes "schedule" leapStart before).pool.state
          (cursorRun leapMinutes "schedule" leapStart (before ++ [event])).pool.state := by
  intro history
  refine ⟨by decide +kernel, by decide +kernel, ?_⟩
  refine cursor_forward leapMinutes "schedule" leapStart leapRuns ?_
  exact along_mono _ _ _ (books_fresh_now leapMinutes "schedule") _ _ (by decide +kernel)

-- The first runNow comes to its UPDATE last: the cursor is back at the acknowledged minute.
theorem run_now_rewinds :
    let before := cursorRun leapMinutes "schedule" leapStart leapRuns
    let after := cursorRun leapMinutes "schedule" leapStart (leapRuns ++ [.step 0])
    ¬ neverEarlier leapMinutes "schedule" before.pool.state after.pool.state ∧
      ∃ occurrence ∈ after.acknowledged, cursorOf leapMinutes "schedule" after.pool.state = some occurrence := by
  intro before after
  have reached : cursorOf leapMinutes "schedule" before.pool.state = some 1835395260000 := by decide +kernel
  have rewound : cursorOf leapMinutes "schedule" after.pool.state = some 1835395200000 := by decide +kernel
  have acknowledged : after.acknowledged = [1835395200000] := by decide +kernel
  refine ⟨?_, 1835395200000, by rw [acknowledged]; exact List.mem_singleton_self _, rewound⟩
  intro forward
  exact absurd (forward 1835395260000 1835395200000 reached rewound) (by decide)

end Vacps.ControlPlane
