import Vacps.Library.Runs
import Vacps.Library.Slices
import Vacps.Native.Budget

/- vacps-native/src/terminal/terminal.cpp: the output a terminal keeps and what its reads answer. Timers, signals
   to the process and the waiters are left out. -/
set_option autoImplicit false

namespace Vacps.Native

open Library

inductive TerminalStatus where
  | Created
  | Starting
  | Running
  | Exited
  | Signaled
  | TimedOut
deriving DecidableEq, Repr

structure ExitResult where
  status : TerminalStatus
  exit_code : Option Int
  signal : Option Int
  timed_out : Bool
deriving DecidableEq, Repr

structure Chunk where
  offset : Nat
  data : List UInt8
deriving DecidableEq, Repr

structure TerminalState where
  status : TerminalStatus
  process_exited : Bool
  pty_eof : Bool
  finished : Bool
  timed_out : Bool
  closed : Bool
  exit_code : Int
  exit_signal : Int
  max_buffer_bytes : Nat
  buffered_bytes : Nat
  produced_bytes : Nat
  chunks : List Chunk

structure ReadOptions where
  offset : Nat
  max_bytes : Nat

structure ReadResult where
  exit : ExitResult
  data : List UInt8
  next_offset : Nat
  available_from : Nat
  dropped_bytes : Nat
  dropped : Bool
  eof : Bool
deriving DecidableEq, Repr

namespace TerminalState

def exit_result (state : TerminalState) : ExitResult where
  status := state.status
  exit_code := if state.process_exited && state.exit_signal == 0 then some state.exit_code else none
  signal := if state.process_exited && state.exit_signal != 0 then some state.exit_signal else none
  timed_out := state.timed_out

def available_from (state : TerminalState) : Nat :=
  match state.chunks with
  | [] => state.produced_bytes
  | front :: _ => front.offset

def try_finish (state : TerminalState) : TerminalState :=
  if state.finished || !state.process_exited || !state.pty_eof then state else { state with finished := true }

def on_process_exit (state : TerminalState) (code signal : Int) : TerminalState :=
  { state with
    process_exited := true
    exit_code := code
    exit_signal := signal
    status := if state.timed_out then .TimedOut else if signal ≠ 0 then .Signaled else .Exited }.try_finish

-- The chunks, buffered_bytes and the budget after it.
def evictChunks : Nat → List Chunk → Nat → ProcessBudget → List Chunk × Nat × ProcessBudget
  | _, [], buffered_bytes, budget => ([], buffered_bytes, budget)
  | bytes, front :: rest, buffered_bytes, budget =>
      if bytes = 0 then (front :: rest, buffered_bytes, budget)
      else
        let take := min bytes front.data.length
        if take = front.data.length then evictChunks (bytes - take) rest (buffered_bytes - take) (budget.sub_buffered take)
        -- All that was asked for has come out of this chunk.
        else (⟨front.offset + take, front.data.drop take⟩ :: rest, buffered_bytes - take, budget.sub_buffered take)

def evict (state : TerminalState) (budget : ProcessBudget) (bytes : Nat) : TerminalState × ProcessBudget :=
  let (chunks, buffered_bytes, budget) := evictChunks bytes state.chunks state.buffered_bytes budget
  ({ state with chunks := chunks, buffered_bytes := buffered_bytes }, budget)

def append (state : TerminalState) (budget : ProcessBudget) (data : List UInt8) : TerminalState × ProcessBudget :=
  let chunk_end := state.produced_bytes + data.length
  let data := if state.max_buffer_bytes < data.length then data.drop (data.length - state.max_buffer_bytes) else data
  let size := data.length
  let chunk_offset := chunk_end - size
  let state := { state with produced_bytes := chunk_end }
  let (state, budget) :=
    if state.max_buffer_bytes < state.buffered_bytes + size then
      state.evict budget (state.buffered_bytes + size - state.max_buffer_bytes)
    else (state, budget)
  let take := min size budget.global_buffer_room
  if 0 < take then
    let skipped := size - take
    ({ state with
        chunks := state.chunks ++ [⟨chunk_offset + skipped, data.drop skipped⟩]
        buffered_bytes := state.buffered_bytes + take }, budget.add_buffered take)
  else (state, budget)

structure Collecting where
  cursor : Nat
  data : List UInt8
  dropped_bytes : Nat
  dropped : Bool
  reached_limit : Bool

-- What is not to be had is passed over.
def Collecting.skipTo (collecting : Collecting) (offset : Nat) : Collecting :=
  if collecting.cursor < offset then
    { collecting with
      cursor := offset
      dropped := true
      dropped_bytes := collecting.dropped_bytes + (offset - collecting.cursor) }
  else collecting

-- The loop over the chunks, with its breaks.
def collectChunks (max_bytes : Nat) : List Chunk → Collecting → Collecting
  | [], collecting => collecting
  | chunk :: rest, collecting =>
      if chunk.offset + chunk.data.length ≤ collecting.cursor then collectChunks max_bytes rest collecting
      else if collecting.cursor < chunk.offset ∧ collecting.data ≠ [] then collecting
      else
        let collecting := collecting.skipTo chunk.offset
        let begin_ := collecting.cursor - chunk.offset
        let room := max_bytes - collecting.data.length
        let take := min room (chunk.data.length - begin_)
        let collecting :=
          { collecting with data := collecting.data ++ (chunk.data.drop begin_).take take, cursor := collecting.cursor + take }
        if collecting.data.length = max_bytes then { collecting with reached_limit := true }
        else collectChunks max_bytes rest collecting

def collecting (state : TerminalState) (options : ReadOptions) : Collecting :=
  let start := Collecting.skipTo ⟨options.offset, [], 0, false, false⟩ state.available_from
  let collected := collectChunks options.max_bytes state.chunks start
  if !collected.reached_limit && collected.data.isEmpty then collected.skipTo state.produced_bytes else collected

def collect (state : TerminalState) (options : ReadOptions) : ReadResult :=
  let collected := state.collecting options
  { exit := state.exit_result
    data := collected.data
    next_offset := collected.cursor
    available_from := state.available_from
    dropped_bytes := collected.dropped_bytes
    dropped := collected.dropped
    eof := state.finished && decide (state.produced_bytes ≤ collected.cursor) }

def cancel_master (state : TerminalState) : TerminalState := { state with pty_eof := true }.try_finish

def finalize_close (state : TerminalState) (budget : ProcessBudget) : TerminalState × ProcessBudget :=
  ({ state.cancel_master with chunks := [], buffered_bytes := 0, closed := true }, budget.sub_buffered state.buffered_bytes)

end TerminalState

section storing

-- What is kept is what was written there.
def Stored (stream : List UInt8) (chunk : Chunk) : Prop :=
  chunk.offset + chunk.data.length ≤ stream.length ∧ chunk.data = slice stream chunk.offset chunk.data.length

def sizes (chunks : List Chunk) : Nat := (chunks.map fun chunk => chunk.data.length).sum

@[simp] theorem sizes_nil : sizes [] = 0 := rfl

@[simp] theorem sizes_cons (chunk : Chunk) (rest : List Chunk) : sizes (chunk :: rest) = chunk.data.length + sizes rest := by
  rw [sizes, List.map_cons, List.sum_cons]
  rfl

@[simp] theorem sizes_concat (chunks : List Chunk) (chunk : Chunk) : sizes (chunks ++ [chunk]) = sizes chunks + chunk.data.length := by
  rw [sizes, List.map_append, List.sum_append]
  rfl

theorem sub_buffered_eq (budget : ProcessBudget) (n : Nat) : (budget.sub_buffered n).buffered = budget.buffered - n := by
  unfold ProcessBudget.sub_buffered
  split
  · omega
  · dsimp only
    split <;> omega

theorem add_buffered_eq (budget : ProcessBudget) (n : Nat) (fits : budget.buffered + n < sizeBound) :
    (budget.add_buffered n).buffered = budget.buffered + n := by
  unfold ProcessBudget.add_buffered
  split
  · omega
  · exact Nat.mod_eq_of_lt fits

theorem stored_grown (stream more : List UInt8) (chunk : Chunk) (stored : Stored stream chunk) : Stored (stream ++ more) chunk := by
  refine ⟨by rw [List.length_append]; exact Nat.le_add_right_of_le stored.1, ?_⟩
  rw [slice_grown stream more _ _ stored.1]
  exact stored.2

theorem stored_drop (stream : List UInt8) (chunk : Chunk) (stored : Stored stream chunk) (take : Nat) (part : take ≤ chunk.data.length) :
    Stored stream ⟨chunk.offset + take, chunk.data.drop take⟩ := by
  have bound := stored.1
  refine ⟨by dsimp only; rw [List.length_drop]; omega, ?_⟩
  have same := slice_drop stream chunk.offset chunk.data.length take
  rw [← stored.2] at same
  rw [List.length_drop]
  exact same

theorem evict_chunks (stream : List UInt8) (bytes : Nat) (chunks : List Chunk) (buffered_bytes : Nat) (budget : ProcessBudget)
    (stored : ∀ chunk ∈ chunks, Stored stream chunk) :
    ∃ left gone after, TerminalState.evictChunks bytes chunks buffered_bytes budget = (left, buffered_bytes - gone, after) ∧
      gone = min bytes (sizes chunks) ∧ sizes left + gone = sizes chunks ∧ (∀ chunk ∈ left, Stored stream chunk) ∧
      after.buffered = budget.buffered - gone ∧ after.max_total_buffer_bytes = budget.max_total_buffer_bytes := by
  induction chunks generalizing bytes buffered_bytes budget with
  | nil => exact ⟨[], 0, budget, rfl, by simp, rfl, stored, rfl, rfl⟩
  | cons front rest ih =>
      rw [TerminalState.evictChunks]
      by_cases done : bytes = 0
      · rw [if_pos done]
        exact ⟨front :: rest, 0, budget, rfl, by omega, rfl, stored, rfl, rfl⟩
      · rw [if_neg done]
        dsimp only
        by_cases whole : min bytes front.data.length = front.data.length
        · obtain ⟨left, gone, after, same, count, sum, kept, charged, max_⟩ := ih (bytes - min bytes front.data.length)
            (buffered_bytes - min bytes front.data.length) (budget.sub_buffered (min bytes front.data.length))
            (fun chunk member => stored chunk (List.mem_cons_of_mem _ member))
          refine ⟨left, front.data.length + gone, after, ?_, ?_, ?_, kept, ?_, ?_⟩
          · rw [if_pos whole, same, whole, Nat.sub_sub]
          · rw [sizes_cons]
            omega
          · rw [sizes_cons]
            omega
          · rw [charged, sub_buffered_eq, whole, Nat.sub_sub]
          · rw [max_, sub_buffered_max]
        · rw [if_neg whole]
          refine ⟨_, min bytes front.data.length, _, rfl, ?_, ?_, ?_, sub_buffered_eq _ _, sub_buffered_max _ _⟩
          · rw [sizes_cons]
            omega
          · rw [sizes_cons, sizes_cons, List.length_drop]
            omega
          · intro chunk member
            rcases List.mem_cons.mp member with rfl | inside
            · exact stored_drop stream front (stored front List.mem_cons_self) _ (Nat.min_le_right _ _)
            · exact stored chunk (List.mem_cons_of_mem _ inside)

-- What a terminal keeps, counts and has charged, of a stream and next to what others have charged.
structure Keeps (stream : List UInt8) (others : Nat) (state : TerminalState) (budget : ProcessBudget) : Prop where
  stored : ∀ chunk ∈ state.chunks, Stored stream chunk
  produced : state.produced_bytes = stream.length
  counted : state.buffered_bytes = sizes state.chunks
  bounded : state.buffered_bytes ≤ state.max_buffer_bytes
  charged : budget.buffered = others + state.buffered_bytes
  total : budget.buffered ≤ budget.max_total_buffer_bytes
  words : budget.max_total_buffer_bytes < sizeBound

theorem evict_keeps (stream : List UInt8) (others : Nat) (state : TerminalState) (budget : ProcessBudget) (bytes : Nat)
    (keeps : Keeps stream others state budget) :
    Keeps stream others (state.evict budget bytes).1 (state.evict budget bytes).2 ∧
      (state.evict budget bytes).1.buffered_bytes = state.buffered_bytes - min bytes state.buffered_bytes ∧
      (state.evict budget bytes).1.max_buffer_bytes = state.max_buffer_bytes := by
  obtain ⟨left, gone, after, same, count, sum, kept, charged, max_⟩ :=
    evict_chunks stream bytes state.chunks state.buffered_bytes budget keeps.stored
  have counted := keeps.counted
  have bounded := keeps.bounded
  have before := keeps.charged
  have total := keeps.total
  unfold TerminalState.evict
  rw [same]
  refine ⟨⟨kept, keeps.produced, ?_, ?_, ?_, ?_, ?_⟩, ?_, rfl⟩
  · change state.buffered_bytes - gone = sizes left
    omega
  · change state.buffered_bytes - gone ≤ state.max_buffer_bytes
    omega
  · change after.buffered = others + (state.buffered_bytes - gone)
    omega
  · change after.buffered ≤ after.max_total_buffer_bytes
    omega
  · change after.max_total_buffer_bytes < sizeBound
    exact max_ ▸ keeps.words
  · change state.buffered_bytes - gone = _
    omega

theorem push_keeps (stream : List UInt8) (others : Nat) (state : TerminalState) (budget : ProcessBudget) (chunk : Chunk)
    (keeps : Keeps stream others state budget) (stored : Stored stream chunk)
    (fits : state.buffered_bytes + chunk.data.length ≤ state.max_buffer_bytes) (room : chunk.data.length ≤ budget.global_buffer_room) :
    Keeps stream others
      { state with chunks := state.chunks ++ [chunk], buffered_bytes := state.buffered_bytes + chunk.data.length }
      (budget.add_buffered chunk.data.length) := by
  have charged := keeps.charged
  have words := keeps.words
  have total : budget.buffered + chunk.data.length ≤ budget.max_total_buffer_bytes := by
    have before := keeps.total
    unfold ProcessBudget.global_buffer_room at room
    split at room <;> omega
  have after := add_buffered_eq budget chunk.data.length (by omega)
  refine ⟨?_, keeps.produced, ?_, fits, ?_, ?_, ?_⟩
  · intro other member
    rcases List.mem_append.mp member with old | new
    · exact keeps.stored other old
    · exact List.mem_singleton.mp new ▸ stored
  · change state.buffered_bytes + _ = sizes (state.chunks ++ [chunk])
    rw [sizes_concat, keeps.counted]
  · rw [after]
    change _ = others + (state.buffered_bytes + chunk.data.length)
    omega
  · rw [after, add_buffered_max]
    exact total
  · rw [add_buffered_max]
    exact words

theorem append_keeps (stream : List UInt8) (others : Nat) (state : TerminalState) (budget : ProcessBudget) (data : List UInt8)
    (keeps : Keeps stream others state budget) :
    Keeps (stream ++ data) others (state.append budget data).1 (state.append budget data).2 := by
  -- The end of the data that fits, and where it stands in the stream.
  obtain ⟨cut, part, fits, same⟩ : ∃ cut, cut ≤ data.length ∧ data.length - cut ≤ state.max_buffer_bytes ∧
      (if state.max_buffer_bytes < data.length then data.drop (data.length - state.max_buffer_bytes) else data) = data.drop cut := by
    by_cases long : state.max_buffer_bytes < data.length
    · exact ⟨data.length - state.max_buffer_bytes, by omega, by omega, if_pos long⟩
    · exact ⟨0, Nat.zero_le _, by omega, by rw [if_neg long, List.drop_zero]⟩
  have grown : Keeps (stream ++ data) others { state with produced_bytes := state.produced_bytes + data.length } budget :=
    ⟨fun chunk member => stored_grown stream data chunk (keeps.stored chunk member),
      by rw [List.length_append, ← keeps.produced], keeps.counted, keeps.bounded, keeps.charged, keeps.total, keeps.words⟩
  have bounded := keeps.bounded
  unfold TerminalState.append
  simp only [same, List.length_drop]
  generalize evicted : (if state.max_buffer_bytes < state.buffered_bytes + (data.length - cut) then
    TerminalState.evict { state with produced_bytes := state.produced_bytes + data.length } budget
      (state.buffered_bytes + (data.length - cut) - state.max_buffer_bytes)
    else ({ state with produced_bytes := state.produced_bytes + data.length }, budget)) = after
  obtain ⟨state', budget'⟩ := after
  obtain ⟨keeps', room, max_⟩ : Keeps (stream ++ data) others state' budget' ∧
      state'.buffered_bytes + (data.length - cut) ≤ state'.max_buffer_bytes ∧ state'.max_buffer_bytes = state.max_buffer_bytes := by
    split at evicted
    · obtain ⟨kept, left, max_⟩ := evict_keeps (stream ++ data) others _ budget
        (state.buffered_bytes + (data.length - cut) - state.max_buffer_bytes) grown
      rw [evicted] at kept left max_
      dsimp only at left max_
      exact ⟨kept, by omega, max_⟩
    · cases evicted
      exact ⟨grown, by dsimp only; omega, rfl⟩
  dsimp only
  by_cases some_ : 0 < min (data.length - cut) budget'.global_buffer_room
  · rw [if_pos some_]
    generalize room_ : min (data.length - cut) budget'.global_buffer_room = take at some_
    have length : ((data.drop cut).drop (data.length - cut - take)).length = take := by
      rw [List.length_drop, List.length_drop]
      omega
    have pushed := push_keeps (stream ++ data) others state' budget'
      ⟨state.produced_bytes + data.length - (data.length - cut) + (data.length - cut - take), (data.drop cut).drop (data.length - cut - take)⟩
      keeps' ?_ (by dsimp only; omega) (by dsimp only; omega)
    · rw [length] at pushed
      exact pushed
    · have produced := keeps.produced
      refine ⟨by dsimp only; rw [length, List.length_append]; omega, ?_⟩
      dsimp only
      have at_ := slice_end stream data (cut + (data.length - cut - take))
      rw [length, List.drop_drop, ← at_]
      congr 1 <;> omega
  · rw [if_neg some_]
    exact keeps'

end storing

section collecting

open TerminalState

-- What has been collected of a stream from an offset on is one stretch of it, and the rest up to it is counted.
structure Collected (stream : List UInt8) (offset : Nat) (collecting : Collecting) : Prop where
  inside : collecting.cursor ≤ stream.length
  stretch : collecting.data = slice stream (collecting.cursor - collecting.data.length) collecting.data.length
  count : collecting.cursor = offset + collecting.dropped_bytes + collecting.data.length
  marked : collecting.dropped = true ↔ 0 < collecting.dropped_bytes

theorem skip_collected (stream : List UInt8) (offset : Nat) (collecting : Collecting) (target : Nat)
    (collected : Collected stream offset collecting) (empty : collecting.cursor < target → collecting.data = [])
    (inside : target ≤ stream.length) : Collected stream offset (collecting.skipTo target) := by
  unfold Collecting.skipTo
  split
  · rename_i before
    have nothing := empty before
    have count := collected.count
    rw [nothing, List.length_nil] at count
    refine ⟨inside, ?_, ?_, ?_⟩
    · dsimp only
      rw [nothing]
      exact (slice_zero _ _).symm
    · dsimp only
      rw [nothing, List.length_nil]
      omega
    · dsimp only
      exact iff_of_true rfl (by omega)
  · exact collected

@[simp] theorem skip_data (collecting : Collecting) (target : Nat) : (collecting.skipTo target).data = collecting.data := by
  unfold Collecting.skipTo
  split <;> rfl

theorem skip_cursor (collecting : Collecting) (target : Nat) : (collecting.skipTo target).cursor = max collecting.cursor target := by
  unfold Collecting.skipTo
  split
  · dsimp only
    omega
  · omega

theorem take_collected (stream : List UInt8) (offset : Nat) (collecting : Collecting) (chunk : Chunk) (take : Nat)
    (collected : Collected stream offset collecting) (stored : Stored stream chunk) (after : chunk.offset ≤ collecting.cursor)
    (part : collecting.cursor - chunk.offset + take ≤ chunk.data.length) :
    Collected stream offset
      { collecting with
        data := collecting.data ++ (chunk.data.drop (collecting.cursor - chunk.offset)).take take
        cursor := collecting.cursor + take } := by
  have bound := stored.1
  have count := collected.count
  have more : (chunk.data.drop (collecting.cursor - chunk.offset)).take take = slice stream collecting.cursor take := by
    have inner := slice_slice stream chunk.offset chunk.data.length (collecting.cursor - chunk.offset) take part
    rw [← stored.2, Nat.add_sub_cancel' after] at inner
    exact inner
  have length : (slice stream collecting.cursor take).length = take := slice_length stream _ _ (by omega)
  refine ⟨by dsimp only; omega, ?_, ?_, collected.marked⟩
  · dsimp only
    have start : collecting.cursor + take - (collecting.data.length + take) = collecting.cursor - collecting.data.length := by omega
    have joined := slice_append stream (collecting.cursor - collecting.data.length) collecting.data.length take
    rw [Nat.sub_add_cancel (by omega)] at joined
    rw [more, List.length_append, length, start, ← joined, ← collected.stretch]
  · dsimp only
    rw [more, List.length_append, length]
    omega

theorem collect_chunks (stream : List UInt8) (offset max_bytes : Nat) (chunks : List Chunk) (collecting : Collecting)
    (stored : ∀ chunk ∈ chunks, Stored stream chunk) (collected : Collected stream offset collecting) :
    Collected stream offset (collectChunks max_bytes chunks collecting) := by
  induction chunks generalizing collecting with
  | nil => exact collected
  | cons chunk rest ih =>
      have here := stored chunk List.mem_cons_self
      have later := fun other member => stored other (List.mem_cons_of_mem chunk member)
      have bound := here.1
      rw [collectChunks]
      by_cases behind : chunk.offset + chunk.data.length ≤ collecting.cursor
      · rw [if_pos behind]
        exact ih collecting later collected
      · rw [if_neg behind]
        by_cases gap : collecting.cursor < chunk.offset ∧ collecting.data ≠ []
        · rw [if_pos gap]
          exact collected
        · rw [if_neg gap]
          dsimp only
          have skipped := skip_collected stream offset collecting chunk.offset collected
            (fun before => by_contra fun some_ => gap ⟨before, some_⟩) (by omega)
          have cursor := skip_cursor collecting chunk.offset
          have taken := take_collected stream offset (collecting.skipTo chunk.offset) chunk
            (min (max_bytes - (collecting.skipTo chunk.offset).data.length)
              (chunk.data.length - ((collecting.skipTo chunk.offset).cursor - chunk.offset))) skipped here (by omega) (by omega)
          split
          · exact ⟨taken.inside, taken.stretch, taken.count, taken.marked⟩
          · exact ih _ later taken

theorem collect_faithful (stream : List UInt8) (others : Nat) (state : TerminalState) (budget : ProcessBudget) (options : ReadOptions)
    (keeps : Keeps stream others state budget) (inside : options.offset ≤ stream.length) :
    (state.collect options).next_offset = options.offset + (state.collect options).dropped_bytes + (state.collect options).data.length ∧
      (state.collect options).next_offset ≤ stream.length ∧
      (state.collect options).data =
        slice stream ((state.collect options).next_offset - (state.collect options).data.length) (state.collect options).data.length ∧
      ((state.collect options).dropped = true ↔ 0 < (state.collect options).dropped_bytes) ∧
      ((state.collect options).eof = true ↔ state.finished = true ∧ (state.collect options).next_offset = stream.length) := by
  have from_ : state.available_from ≤ stream.length := by
    unfold TerminalState.available_from
    split
    · exact Nat.le_of_eq keeps.produced
    · rename_i front rest same
      have front_ := (keeps.stored front (same ▸ List.mem_cons_self)).1
      omega
  have start : Collected stream options.offset ⟨options.offset, [], 0, false, false⟩ :=
    ⟨inside, (slice_zero _ _).symm, rfl, by simp⟩
  have begun := skip_collected stream options.offset _ state.available_from start (fun _ => rfl) from_
  have looped := collect_chunks stream options.offset options.max_bytes state.chunks _ keeps.stored begun
  have done : Collected stream options.offset (state.collecting options) := by
    unfold TerminalState.collecting
    dsimp only
    split
    · rename_i nothing
      rw [Bool.and_eq_true, List.isEmpty_iff] at nothing
      exact skip_collected stream options.offset _ state.produced_bytes looped (fun _ => nothing.2) (Nat.le_of_eq keeps.produced)
    · exact looped
  unfold TerminalState.collect
  dsimp only
  refine ⟨done.count, done.inside, done.stretch, done.marked, ?_⟩
  have inside_ := done.inside
  rw [Bool.and_eq_true, decide_eq_true_iff, keeps.produced]
  exact and_congr_right fun _ => ⟨fun reached => Nat.le_antisymm inside_ reached, fun same => Nat.le_of_eq same.symm⟩

-- The chunks follow on each other without a hole.
def Gapless : Nat → List Chunk → Nat → Prop
  | start, [], stop => start = stop
  | start, chunk :: rest, stop => chunk.offset = start ∧ Gapless (start + chunk.data.length) rest stop

-- Everything from an offset on is still there.
def Retained (state : TerminalState) (offset : Nat) : Prop :=
  ∃ start, start ≤ offset ∧ Gapless start state.chunks state.produced_bytes

theorem gapless_le (start stop : Nat) (chunks : List Chunk) (gapless : Gapless start chunks stop) : start ≤ stop := by
  induction chunks generalizing start with
  | nil => exact Nat.le_of_eq gapless
  | cons chunk rest ih => exact Nat.le_trans (Nat.le_add_right _ _) (ih _ gapless.2)

theorem skip_none (collecting : Collecting) (target : Nat) (reached : target ≤ collecting.cursor) :
    collecting.skipTo target = collecting := if_neg (Nat.not_lt_of_le reached)

theorem collect_gapless (max_bytes start stop : Nat) (chunks : List Chunk) (collecting : Collecting) (gapless : Gapless start chunks stop)
    (after : start ≤ collecting.cursor) (inside : collecting.cursor ≤ stop) (room : collecting.data.length ≤ max_bytes) :
    (collectChunks max_bytes chunks collecting).cursor = min (collecting.cursor + (max_bytes - collecting.data.length)) stop ∧
      (collectChunks max_bytes chunks collecting).dropped_bytes = collecting.dropped_bytes := by
  induction chunks generalizing start collecting with
  | nil =>
      have same : start = stop := gapless
      exact ⟨by rw [collectChunks]; omega, rfl⟩
  | cons chunk rest ih =>
      obtain ⟨at_, follows⟩ := gapless
      have bound := gapless_le _ _ rest follows
      rw [collectChunks]
      by_cases behind : chunk.offset + chunk.data.length ≤ collecting.cursor
      · rw [if_pos behind]
        exact ih _ collecting follows (by omega) inside room
      · rw [if_neg behind, if_neg (fun gap => absurd gap.1 (by omega)), skip_none collecting chunk.offset (by omega)]
        dsimp only
        generalize take_ : min (max_bytes - collecting.data.length) (chunk.data.length - (collecting.cursor - chunk.offset)) = take
        have length : ((chunk.data.drop (collecting.cursor - chunk.offset)).take take).length = take := by
          rw [List.length_take, List.length_drop]
          omega
        split
        · rename_i full
          rw [List.length_append, length] at full
          exact ⟨by dsimp only; omega, rfl⟩
        · rename_i open_
          rw [List.length_append, length] at open_
          obtain ⟨cursor, dropped⟩ := ih (start + chunk.data.length)
            ⟨collecting.cursor + take, collecting.data ++ (chunk.data.drop (collecting.cursor - chunk.offset)).take take,
              collecting.dropped_bytes, collecting.dropped, collecting.reached_limit⟩ follows (by dsimp only; omega)
            (by dsimp only; omega) (by dsimp only; rw [List.length_append, length]; omega)
          dsimp only at cursor dropped
          rw [List.length_append, length] at cursor
          exact ⟨by rw [cursor]; omega, dropped⟩

-- A read of what is retained has all of it up to its limit.
theorem collect_retained (stream : List UInt8) (others : Nat) (state : TerminalState) (budget : ProcessBudget) (options : ReadOptions)
    (keeps : Keeps stream others state budget) (inside : options.offset ≤ stream.length) (retained : Retained state options.offset)
    (positive : 0 < options.max_bytes) :
    (state.collect options).data = slice stream options.offset (min options.max_bytes (stream.length - options.offset)) ∧
      (state.collect options).next_offset = options.offset + min options.max_bytes (stream.length - options.offset) ∧
      (state.collect options).dropped = false ∧ (state.collect options).dropped_bytes = 0 := by
  obtain ⟨start, before, gapless⟩ := retained
  obtain ⟨count, _, data, marked, _⟩ := collect_faithful stream others state budget options keeps inside
  have from_ : state.available_from ≤ options.offset := by
    unfold TerminalState.available_from
    split
    · rename_i none_
      rw [none_] at gapless
      exact Nat.le_trans (Nat.le_of_eq gapless.symm) before
    · rename_i front rest some_
      rw [some_] at gapless
      exact Nat.le_trans (Nat.le_of_eq gapless.1) before
  have produced := keeps.produced
  obtain ⟨cursor, dropped⟩ := collect_gapless options.max_bytes start state.produced_bytes state.chunks
    ⟨options.offset, [], 0, false, false⟩ gapless before (by dsimp only; omega) (Nat.zero_le _)
  dsimp only at cursor dropped
  rw [List.length_nil, Nat.sub_zero] at cursor
  have reached : (state.collect options).next_offset = min (options.offset + options.max_bytes) state.produced_bytes ∧
      (state.collect options).dropped_bytes = 0 := by
    have looped := collect_chunks stream options.offset options.max_bytes state.chunks ⟨options.offset, [], 0, false, false⟩
      keeps.stored ⟨inside, (slice_zero _ _).symm, rfl, by simp⟩
    unfold TerminalState.collect TerminalState.collecting
    dsimp only
    rw [skip_none ⟨options.offset, [], 0, false, false⟩ state.available_from from_]
    split
    · rename_i nothing
      rw [Bool.and_eq_true, List.isEmpty_iff] at nothing
      have counted := looped.count
      rw [nothing.2, List.length_nil, dropped] at counted
      rw [skip_none _ state.produced_bytes (by omega)]
      exact ⟨cursor, dropped⟩
    · exact ⟨cursor, dropped⟩
  have stretch : (state.collect options).data.length = min options.max_bytes (stream.length - options.offset) := by omega
  refine ⟨?_, by omega, ?_, reached.2⟩
  · rw [data, stretch]
    congr 1
    omega
  · rw [← Bool.not_eq_true, marked, reached.2]
    exact Nat.lt_irrefl 0

end collecting

section runs

-- One read: what the terminal had written, its state, whether the loop that reads the device had ended, and the answer.
structure ReadRecord where
  options : ReadOptions
  stream : List UInt8
  state : TerminalState
  drained : Bool
  result : ReadResult

-- The terminal and the budget with what others have charged to it; all it has written; whether the loop has ended;
-- where the next read starts, and the reads.
structure TerminalRun where
  state : TerminalState
  budget : ProcessBudget
  others : Nat
  stream : List UInt8
  drained : Bool
  cursor : Nat
  reads : List ReadRecord

inductive TerminalEvent where
  | output (data : List UInt8)
  | deviceEnd
  | exit (code signal : Int)
  | timeout
  | close
  -- A reader that has not read yet starts at any byte written so far.
  | seek (offset : Nat)
  | read (max_bytes : Nat)
  -- Other owners charge what room there is, and give back what they have charged.
  | charge (n : Nat)
  | release (n : Nat)

def TerminalRun.next (run : TerminalRun) : TerminalEvent → TerminalRun
  | .output data =>
      if run.drained then run
      else
        let (state, budget) := run.state.append run.budget data
        { run with state := state, budget := budget, stream := run.stream ++ data }
  | .deviceEnd => { run with state := { run.state with pty_eof := true }.try_finish, drained := true }
  | .exit code signal => { run with state := run.state.on_process_exit code signal }
  | .timeout =>
      if run.state.finished || run.state.process_exited then run
      else { run with state := { run.state with timed_out := true }.cancel_master }
  | .close =>
      let (state, budget) := run.state.finalize_close run.budget
      { run with state := state, budget := budget }
  | .seek offset => if run.reads.isEmpty && decide (offset ≤ run.state.produced_bytes) then { run with cursor := offset } else run
  | .read max_bytes =>
      let result := run.state.collect ⟨run.cursor, max_bytes⟩
      { run with
        cursor := result.next_offset
        reads := run.reads ++ [⟨⟨run.cursor, max_bytes⟩, run.stream, run.state, run.drained, result⟩] }
  | .charge n =>
      let n := min n run.budget.global_buffer_room
      { run with budget := run.budget.add_buffered n, others := run.others + n }
  | .release n =>
      let n := min n run.others
      { run with budget := run.budget.sub_buffered n, others := run.others - n }

def startedTerminal (max_buffer_bytes : Nat) (max_total_buffer_bytes : UInt64) : TerminalRun where
  state :=
    { status := .Running
      process_exited := false
      pty_eof := false
      finished := false
      timed_out := false
      closed := false
      exit_code := 0
      exit_signal := 0
      max_buffer_bytes := max_buffer_bytes
      buffered_bytes := 0
      produced_bytes := 0
      chunks := [] }
  budget := ⟨max_total_buffer_bytes.toNat, 0⟩
  others := 0
  stream := []
  drained := false
  cursor := 0
  reads := []

-- A read answers with what was written there, and with the end when there is nothing more to come.
structure FaithfulRead (stream : List UInt8) (drained : Bool) (read : ReadRecord) : Prop where
  before : read.stream <+: stream
  data : read.result.data = slice stream (read.result.next_offset - read.result.data.length) read.result.data.length
  inside : read.result.next_offset ≤ read.stream.length
  count : read.result.next_offset = read.options.offset + read.result.dropped_bytes + read.result.data.length
  eof : read.result.eof = true → read.state.finished = true ∧ read.state.process_exited = true ∧ read.state.pty_eof = true ∧
    read.result.next_offset = read.stream.length
  final : read.drained = true → drained = true ∧ read.stream = stream

structure RunKeeps (max_buffer_bytes : Nat) (run : TerminalRun) : Prop where
  keeps : Keeps run.stream run.others run.state run.budget
  max_ : run.state.max_buffer_bytes = max_buffer_bytes
  cursor : run.cursor ≤ run.stream.length
  ended : run.state.finished = true → run.state.process_exited = true ∧ run.state.pty_eof = true
  reads : ∀ read ∈ run.reads, FaithfulRead run.stream run.drained read
  before : ∀ read ∈ run.reads, read.result.next_offset ≤ run.cursor
  once : run.reads.Pairwise fun earlier later => earlier.result.next_offset + later.result.data.length ≤ later.result.next_offset

-- Only these fields are about the buffer.
theorem keeps_frame (stream : List UInt8) (others : Nat) (state state' : TerminalState) (budget : ProcessBudget)
    (keeps : Keeps stream others state budget) (chunks : state'.chunks = state.chunks)
    (produced : state'.produced_bytes = state.produced_bytes) (buffered : state'.buffered_bytes = state.buffered_bytes)
    (max_ : state'.max_buffer_bytes = state.max_buffer_bytes) : Keeps stream others state' budget := by
  refine ⟨?_, produced.trans keeps.produced, ?_, ?_, ?_, keeps.total, keeps.words⟩
  · rw [chunks]
    exact keeps.stored
  · rw [buffered, chunks]
    exact keeps.counted
  · rw [buffered, max_]
    exact keeps.bounded
  · rw [buffered]
    exact keeps.charged

theorem append_frame (state : TerminalState) (budget : ProcessBudget) (data : List UInt8) :
    ∃ chunks buffered_bytes produced_bytes, (state.append budget data).1 =
      { state with chunks := chunks, buffered_bytes := buffered_bytes, produced_bytes := produced_bytes } := by
  unfold TerminalState.append TerminalState.evict
  dsimp only
  split <;> split <;> split <;> exact ⟨_, _, _, rfl⟩

theorem finish_frame (state : TerminalState) : state.try_finish = { state with finished := state.try_finish.finished } := by
  unfold TerminalState.try_finish
  split <;> rfl

theorem finish_ended (state : TerminalState)
    (ended : state.finished = true → state.process_exited = true ∧ state.pty_eof = true) (finished : state.try_finish.finished = true) :
    state.process_exited = true ∧ state.pty_eof = true := by
  unfold TerminalState.try_finish at finished
  split at finished
  · exact ended finished
  · rename_i open_
    simp only [Bool.or_eq_true, Bool.not_eq_true', not_or, Bool.not_eq_false] at open_
    exact ⟨open_.1.2, open_.2⟩

-- A step that only finishes the terminal.
theorem finish_keeps (max_buffer_bytes : Nat) (run : TerminalRun) (state : TerminalState) (drained : Bool)
    (kept : RunKeeps max_buffer_bytes run) (chunks : state.chunks = run.state.chunks)
    (produced : state.produced_bytes = run.state.produced_bytes) (buffered : state.buffered_bytes = run.state.buffered_bytes)
    (max_ : state.max_buffer_bytes = run.state.max_buffer_bytes)
    (ended : state.finished = true → state.process_exited = true ∧ state.pty_eof = true) (later : run.drained = true → drained = true) :
    RunKeeps max_buffer_bytes { run with state := state.try_finish, drained := drained } := by
  have frame := finish_frame state
  have inner := keeps_frame run.stream run.others run.state state.try_finish run.budget kept.keeps
    (by rw [frame]; exact chunks) (by rw [frame]; exact produced) (by rw [frame]; exact buffered) (by rw [frame]; exact max_)
  refine ⟨inner, ?_, kept.cursor, ?_, ?_, kept.before, kept.once⟩
  · dsimp only
    rw [frame]
    exact max_.trans kept.max_
  · intro finished
    have both := finish_ended state ended finished
    dsimp only
    rw [frame]
    exact both
  · intro read member
    have faithful := kept.reads read member
    exact ⟨faithful.before, faithful.data, faithful.inside, faithful.count, faithful.eof,
      fun drained_ => ⟨later (faithful.final drained_).1, (faithful.final drained_).2⟩⟩

theorem output_keeps (max_buffer_bytes : Nat) (run : TerminalRun) (data : List UInt8) (kept : RunKeeps max_buffer_bytes run) :
    RunKeeps max_buffer_bytes (run.next (.output data)) := by
  unfold TerminalRun.next
  dsimp only
  by_cases drained : run.drained = true
  · rw [if_pos drained]
    exact kept
  · rw [if_neg drained]
    obtain ⟨chunks, buffered_bytes, produced_bytes, frame⟩ := append_frame run.state run.budget data
    have inner := append_keeps run.stream run.others run.state run.budget data kept.keeps
    generalize run.state.append run.budget data = after at frame inner
    obtain ⟨state, budget⟩ := after
    dsimp only at frame inner ⊢
    have bound := kept.cursor
    refine ⟨inner, ?_, ?_, ?_, ?_, kept.before, kept.once⟩
    · rw [frame]
      exact kept.max_
    · rw [List.length_append]
      exact Nat.le_add_right_of_le bound
    · rw [frame]
      exact kept.ended
    · intro read member
      have faithful := kept.reads read member
      have length := faithful.before.length_le
      have inside := faithful.inside
      have count := faithful.count
      refine ⟨faithful.before.trans (List.prefix_append _ _), ?_, faithful.inside, faithful.count, faithful.eof, ?_⟩
      · rw [slice_grown run.stream data _ _ (by omega)]
        exact faithful.data
      · intro drained_
        exact absurd (faithful.final drained_).1 drained

theorem read_keeps (max_buffer_bytes : Nat) (run : TerminalRun) (max_bytes : Nat) (kept : RunKeeps max_buffer_bytes run) :
    RunKeeps max_buffer_bytes (run.next (.read max_bytes)) := by
  obtain ⟨count, inside, data, _, eof⟩ := collect_faithful run.stream run.others run.state run.budget ⟨run.cursor, max_bytes⟩ kept.keeps kept.cursor
  dsimp only at count
  refine ⟨kept.keeps, kept.max_, inside, kept.ended, ?_, ?_, ?_⟩
  · intro read member
    rcases List.mem_append.mp member with old | new
    · exact kept.reads read old
    · rw [List.mem_singleton.mp new]
      refine ⟨List.prefix_rfl, data, inside, count, ?_, fun drained => ⟨drained, rfl⟩⟩
      intro reported
      obtain ⟨finished, reached⟩ := eof.mp reported
      exact ⟨finished, (kept.ended finished).1, (kept.ended finished).2, reached⟩
  · intro read member
    change read.result.next_offset ≤ (run.state.collect ⟨run.cursor, max_bytes⟩).next_offset
    rcases List.mem_append.mp member with old | new
    · have earlier := kept.before read old
      omega
    · rw [List.mem_singleton.mp new]
  · refine List.pairwise_append.mpr ⟨kept.once, List.pairwise_singleton _ _, ?_⟩
    intro earlier member later last
    rw [List.mem_singleton.mp last]
    have before := kept.before earlier member
    dsimp only
    omega

theorem close_keeps (max_buffer_bytes : Nat) (run : TerminalRun) (kept : RunKeeps max_buffer_bytes run) :
    RunKeeps max_buffer_bytes (run.next .close) ∧ (run.next .close).budget.buffered = run.others := by
  have finished := finish_keeps max_buffer_bytes run { run.state with pty_eof := true } run.drained kept rfl rfl rfl rfl
    (fun finished => ⟨(kept.ended finished).1, rfl⟩) id
  have charged := kept.keeps.charged
  have total := kept.keeps.total
  have left : (run.budget.sub_buffered run.state.buffered_bytes).buffered = run.others := by
    rw [sub_buffered_eq]
    omega
  have max_ := sub_buffered_max run.budget run.state.buffered_bytes
  refine ⟨⟨⟨by simp [TerminalRun.next, TerminalState.finalize_close], finished.keeps.produced, rfl, Nat.zero_le _, left, ?_, ?_⟩,
    finished.max_, finished.cursor, finished.ended, finished.reads, finished.before, finished.once⟩, left⟩
  · change (run.budget.sub_buffered _).buffered ≤ (run.budget.sub_buffered _).max_total_buffer_bytes
    rw [left, max_]
    omega
  · change (run.budget.sub_buffered _).max_total_buffer_bytes < sizeBound
    rw [max_]
    exact kept.keeps.words

theorem charge_keeps (budget : ProcessBudget) (n : Nat) (total : budget.buffered ≤ budget.max_total_buffer_bytes)
    (words : budget.max_total_buffer_bytes < sizeBound) :
    (budget.add_buffered (min n budget.global_buffer_room)).buffered = budget.buffered + min n budget.global_buffer_room ∧
      (budget.add_buffered (min n budget.global_buffer_room)).buffered ≤
        (budget.add_buffered (min n budget.global_buffer_room)).max_total_buffer_bytes ∧
      (budget.add_buffered (min n budget.global_buffer_room)).max_total_buffer_bytes < sizeBound := by
  have room : budget.buffered + min n budget.global_buffer_room ≤ budget.max_total_buffer_bytes := by
    unfold ProcessBudget.global_buffer_room
    split <;> omega
  have after := add_buffered_eq budget (min n budget.global_buffer_room) (by omega)
  rw [after, add_buffered_max]
  exact ⟨rfl, room, words⟩

theorem next_keeps (max_buffer_bytes : Nat) (run : TerminalRun) (event : TerminalEvent) (kept : RunKeeps max_buffer_bytes run) :
    RunKeeps max_buffer_bytes (run.next event) := by
  cases event with
  | output data => exact output_keeps max_buffer_bytes run data kept
  | deviceEnd =>
      exact finish_keeps max_buffer_bytes run { run.state with pty_eof := true } true kept rfl rfl rfl rfl
        (fun finished => ⟨(kept.ended finished).1, rfl⟩) (fun _ => rfl)
  | exit code signal => exact finish_keeps max_buffer_bytes run _ run.drained kept rfl rfl rfl rfl (fun finished => ⟨rfl, (kept.ended finished).2⟩) id
  | timeout =>
      unfold TerminalRun.next
      dsimp only
      split
      · exact kept
      · exact finish_keeps max_buffer_bytes run { run.state with timed_out := true, pty_eof := true } run.drained kept rfl rfl rfl rfl
          (fun finished => ⟨(kept.ended finished).1, rfl⟩) id
  | close => exact (close_keeps max_buffer_bytes run kept).1
  | seek offset =>
      unfold TerminalRun.next
      dsimp only
      split
      · rename_i fresh
        rw [Bool.and_eq_true, List.isEmpty_iff, decide_eq_true_iff] at fresh
        refine ⟨kept.keeps, kept.max_, kept.keeps.produced ▸ fresh.2, kept.ended, kept.reads, ?_, kept.once⟩
        dsimp only
        rw [fresh.1]
        simp
      · exact kept
  | read max_bytes => exact read_keeps max_buffer_bytes run max_bytes kept
  | charge n =>
      obtain ⟨charged, total, words⟩ := charge_keeps run.budget n kept.keeps.total kept.keeps.words
      have before := kept.keeps.charged
      refine ⟨⟨kept.keeps.stored, kept.keeps.produced, kept.keeps.counted, kept.keeps.bounded, ?_, total, words⟩,
        kept.max_, kept.cursor, kept.ended, kept.reads, kept.before, kept.once⟩
      change (run.budget.add_buffered (min n run.budget.global_buffer_room)).buffered =
        run.others + min n run.budget.global_buffer_room + run.state.buffered_bytes
      omega
  | release n =>
      have before := kept.keeps.charged
      have total := kept.keeps.total
      have left := sub_buffered_eq run.budget (min n run.others)
      have max_ := sub_buffered_max run.budget (min n run.others)
      refine ⟨⟨kept.keeps.stored, kept.keeps.produced, kept.keeps.counted, kept.keeps.bounded, ?_, ?_, ?_⟩,
        kept.max_, kept.cursor, kept.ended, kept.reads, kept.before, kept.once⟩
      · change (run.budget.sub_buffered (min n run.others)).buffered = run.others - min n run.others + run.state.buffered_bytes
        omega
      · change (run.budget.sub_buffered (min n run.others)).buffered ≤ (run.budget.sub_buffered (min n run.others)).max_total_buffer_bytes
        omega
      · change (run.budget.sub_buffered (min n run.others)).max_total_buffer_bytes < sizeBound
        rw [max_]
        exact kept.keeps.words

theorem started_keeps (max_buffer_bytes : Nat) (max_total_buffer_bytes : UInt64) :
    RunKeeps max_buffer_bytes (startedTerminal max_buffer_bytes max_total_buffer_bytes) :=
  ⟨⟨by simp [startedTerminal], rfl, rfl, Nat.zero_le _, rfl, Nat.zero_le _, max_total_buffer_bytes.toNat_lt⟩, rfl, Nat.le_refl 0,
    by simp [startedTerminal], by simp [startedTerminal], by simp [startedTerminal], List.Pairwise.nil⟩

-- Over any run of output, exits, time limits, closing, reads that go on where the last one ended and others' use of
-- the budget.
theorem terminal_reads (max_buffer_bytes : Nat) (max_total_buffer_bytes : UInt64) (events : List TerminalEvent) :
    let run := runFrom TerminalRun.next (startedTerminal max_buffer_bytes max_total_buffer_bytes) events
    (∀ read ∈ run.reads, FaithfulRead run.stream run.drained read) ∧
      run.reads.Pairwise (fun earlier later => earlier.result.next_offset + later.result.data.length ≤ later.result.next_offset) ∧
      run.state.buffered_bytes = sizes run.state.chunks ∧ run.state.buffered_bytes ≤ max_buffer_bytes ∧
      run.budget.buffered = run.others + run.state.buffered_bytes ∧ (run.next .close).budget.buffered = run.others := by
  have kept := run_holds TerminalRun.next (RunKeeps max_buffer_bytes) (next_keeps max_buffer_bytes) _ events
    (started_keeps max_buffer_bytes max_total_buffer_bytes)
  intro run
  exact ⟨kept.reads, kept.once, kept.keeps.counted, kept.max_ ▸ kept.keeps.bounded, kept.keeps.charged, (close_keeps max_buffer_bytes _ kept).2⟩

-- The first two bytes are dropped for room, the fourth for want of budget.
example :
    (runFrom TerminalRun.next (startedTerminal 4 6)
      [.output [1, 2, 3], .charge 3, .output [4, 5, 6], .read 8, .read 8]).reads.map
        (fun read => (read.result.data, read.result.dropped_bytes)) = [([3], 2), ([5, 6], 1)] := by decide +kernel

end runs

end Vacps.Native
