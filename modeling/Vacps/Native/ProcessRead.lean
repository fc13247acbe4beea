import Vacps.Native.ProcessCapture

/- vacps-native/src/process/process.cpp: Process::read, which pages through the chunks of both streams with one cursor.
   A read may only be called before close has begun, so closing is left out. -/
set_option autoImplicit false

namespace Vacps.Native.Process

open Library

inductive ProcessStatus where
  | Created
  | Starting
  | Running
  | Exited
  | Signaled
  | TimedOut
  | Cancelled
  | Closing
  | Closed
deriving DecidableEq, Repr

structure OutputCursor where
  sequence : Nat
  byte_offset : Nat
deriving DecidableEq, Repr

structure ReadOptions where
  cursor : OutputCursor
  max_bytes : Nat
  wait : Int

structure OutputChunk where
  sequence : Nat
  stream : ProcessStream
  data : List UInt8
  observed_at_ms : Int
  offset_start : Nat
  offset_end : Nat
deriving DecidableEq, Repr

structure ExitResult where
  status : ProcessStatus
  exit_code : Option Int
  signal : Option Int
  timed_out : Bool
deriving DecidableEq, Repr

structure ReadResult where
  exit : ExitResult
  chunks : List OutputChunk
  next_cursor : OutputCursor
  eof : Bool
  returned_bytes : Nat
deriving DecidableEq, Repr

structure State where
  output : ProcessState
  finished : Bool
  process_exited : Bool
  timed_out : Bool
  cancelled : Bool
  out_eof : Bool
  err_eof : Bool
  status : ProcessStatus
  exit_code : Int
  exit_signal : Int

def exit_result (state : State) : ExitResult where
  status := state.status
  exit_code := if state.status = .Exited then some state.exit_code else none
  signal := if state.exit_signal ≠ 0 then some state.exit_signal else none
  timed_out := state.timed_out

def try_finish (state : State) : State :=
  if state.finished then state
  else if !state.process_exited || !state.out_eof || !state.err_eof then state
  else
    { state with
      finished := true
      status :=
        if state.timed_out then .TimedOut
        else if state.cancelled then .Cancelled
        else if state.exit_signal ≠ 0 then .Signaled
        else .Exited }

def on_process_exit (state : State) (code signal : Int) : State :=
  if state.process_exited then state
  else try_finish { state with process_exited := true, exit_code := code, exit_signal := signal }

-- The first byte of a chunk that lies at or behind the cursor.
def chunkStart (cursor : OutputCursor) (chunk : ChunkRef) : Nat :=
  if chunk.sequence = cursor.sequence then cursor.byte_offset else 0

def has_unread (output : ProcessState) (cursor : OutputCursor) : Bool :=
  output.chunks.any fun chunk =>
    !decide (chunk.sequence < cursor.sequence) && decide (chunkStart cursor chunk < chunk.size)

structure Collected where
  chunks : List OutputChunk
  returned_bytes : Nat
  next_cursor : OutputCursor

def collectChunk (output : ProcessState) (max_bytes : Nat) (chunk : ChunkRef) (result : Collected) : Collected :=
  let start := chunkStart result.next_cursor chunk
  let take := min (chunk.size - start) (max_bytes - result.returned_bytes)
  { chunks := result.chunks ++
      [{ sequence := chunk.sequence
         stream := chunk.stream
         data := ((output.captures chunk.stream).acc.drop (chunk.stream_offset + start)).take take
         observed_at_ms := chunk.observed_at_ms
         offset_start := start
         offset_end := start + take }]
    returned_bytes := result.returned_bytes + take
    next_cursor := if start + take < chunk.size then ⟨chunk.sequence, start + take⟩ else ⟨chunk.sequence + 1, 0⟩ }

def collectChunks (output : ProcessState) (max_bytes : Nat) : List ChunkRef → Collected → Collected
  | [], result => result
  | chunk :: rest, result =>
      if chunk.sequence < result.next_cursor.sequence then collectChunks output max_bytes rest result
      else if chunk.size ≤ chunkStart result.next_cursor chunk then
        collectChunks output max_bytes rest { result with next_cursor := ⟨chunk.sequence + 1, 0⟩ }
      else if max_bytes ≤ result.returned_bytes then result
      else
        let result := collectChunk output max_bytes chunk result
        if max_bytes ≤ result.returned_bytes then result else collectChunks output max_bytes rest result

def collect (state : State) (options : ReadOptions) : ReadResult :=
  let result := collectChunks state.output options.max_bytes state.output.chunks ⟨[], 0, options.cursor⟩
  { exit := exit_result state
    chunks := result.chunks
    next_cursor := result.next_cursor
    eof := state.finished && !has_unread state.output result.next_cursor
    returned_bytes := result.returned_bytes }

-- A read's answer, with what was captured when it was made.
structure Answer where
  max_bytes : Nat
  result : ReadResult
  finished : Bool
  captured : ProcessStream → List UInt8

def answerOf (state : State) (options : ReadOptions) : Answer :=
  ⟨options.max_bytes, collect state options, state.finished, fun stream => (state.output.captures stream).acc⟩

-- One reader, which follows next_cursor from the first cursor on. waiting holds the read that waits for its timer.
structure ReadRun where
  process : State
  cursor : OutputCursor
  waiting : Option ReadOptions
  answers : List Answer

-- Output and the budget's other users, the ends of the pipes and of the process, its timeout, and the reader's two steps.
inductive ReadEvent where
  | output (event : CaptureEvent)
  | drained (stream : ProcessStream)
  | exited (code signal : Int)
  | timeout
  | read (max_bytes : Nat) (wait : Int)
  | resume

def drainEnded (state : State) : ProcessStream → Bool
  | .stdout => state.out_eof
  | .stderr => state.err_eof

def arrived (state : State) : CaptureEvent → State
  | .chunk stream data observed_at_ms =>
      if drainEnded state stream then state
      else { state with output := append_capture state.output stream data observed_at_ms }
  | .charge n => { state with output := { state.output with budget := state.output.budget.map fun budget => budget.add_buffered n } }
  | .release n => { state with output := { state.output with budget := state.output.budget.map fun budget => budget.sub_buffered n } }

def pipeEnded (state : State) : ProcessStream → State
  | .stdout => try_finish { state with out_eof := true }
  | .stderr => try_finish { state with err_eof := true }

def timedOut (state : State) : State :=
  if state.finished || state.process_exited then state else { state with timed_out := true }

def answered (run : ReadRun) (options : ReadOptions) : ReadRun :=
  let answer := answerOf run.process options
  { run with cursor := answer.result.next_cursor, waiting := none, answers := run.answers ++ [answer] }

def ReadRun.next (run : ReadRun) : ReadEvent → ReadRun
  | .output event => { run with process := arrived run.process event }
  | .drained stream => { run with process := pipeEnded run.process stream }
  | .exited code signal => { run with process := on_process_exit run.process code signal }
  | .timeout => { run with process := timedOut run.process }
  | .read max_bytes wait =>
      match run.waiting with
      | some _ => run
      | none =>
          let options : ReadOptions := ⟨run.cursor, max_bytes, wait⟩
          let result := collect run.process options
          if !result.chunks.isEmpty || result.eof || wait == 0 then answered run options else { run with waiting := some options }
  | .resume =>
      match run.waiting with
      | some options => answered run options
      | none => run

def started (budget : ProcessBudget) (max_out max_err : Nat) : ReadRun where
  process :=
    { output := (fresh (some budget) max_out max_err).state
      finished := false
      process_exited := false
      timed_out := false
      cancelled := false
      out_eof := false
      err_eof := false
      status := .Running
      exit_code := 0
      exit_signal := 0 }
  cursor := ⟨1, 0⟩
  waiting := none
  answers := []

section collecting

variable (output : ProcessState)

-- Bytes with the stream they are of.
def tagged (stream : ProcessStream) (bytes : List UInt8) : List (ProcessStream × UInt8) := bytes.map fun byte => (stream, byte)

def page (chunks : List OutputChunk) : List (ProcessStream × UInt8) := chunks.flatMap fun chunk => tagged chunk.stream chunk.data

def sliceOf (chunk : ChunkRef) : List (ProcessStream × UInt8) :=
  tagged chunk.stream (((output.captures chunk.stream).acc.drop chunk.stream_offset).take chunk.size)

-- What of a chunk the cursor has not passed.
def leftOf (cursor : OutputCursor) (chunk : ChunkRef) : List (ProcessStream × UInt8) :=
  if chunk.sequence < cursor.sequence then [] else (sliceOf output chunk).drop (chunkStart cursor chunk)

def unread (cursor : OutputCursor) : List (ProcessStream × UInt8) := output.chunks.flatMap (leftOf output cursor)

def Inside (chunk : ChunkRef) : Prop := chunk.stream_offset + chunk.size ≤ (output.captures chunk.stream).acc.length

-- Every chunk numbered higher is still unread.
def Behind (cursor : OutputCursor) (sequence : Nat) : Prop := cursor.sequence ≤ sequence ∨ cursor = ⟨sequence + 1, 0⟩

theorem slice_length (chunk : ChunkRef) (inside : Inside output chunk) : (sliceOf output chunk).length = chunk.size := by
  unfold Inside at inside
  rw [sliceOf, tagged, List.length_map, List.length_take, List.length_drop]
  omega

theorem left_passed (cursor : OutputCursor) (chunk : ChunkRef) (passed : chunk.sequence < cursor.sequence) :
    leftOf output cursor chunk = [] := if_pos passed

theorem left_behind (cursor : OutputCursor) (sequence : Nat) (behind : Behind cursor sequence) (chunks : List ChunkRef)
    (later : ∀ chunk ∈ chunks, sequence < chunk.sequence) :
    chunks.flatMap (leftOf output cursor) = chunks.flatMap (sliceOf output) := by
  refine List.flatMap_congr fun chunk member => ?_
  have after := later chunk member
  have start : ¬chunk.sequence < cursor.sequence ∧ chunkStart cursor chunk = 0 := by
    rcases behind with before | rfl
    · exact ⟨by omega, if_neg (by omega)⟩
    · exact ⟨Nat.not_lt.mpr after, ite_self 0⟩
  rw [leftOf, if_neg start.1, start.2, List.drop_zero]

theorem slice_part (chunk : ChunkRef) (start space : Nat) :
    ((sliceOf output chunk).drop start).take space =
      tagged chunk.stream (((output.captures chunk.stream).acc.drop (chunk.stream_offset + start)).take (min (chunk.size - start) space)) := by
  rw [sliceOf, tagged, tagged, ← List.map_drop, ← List.map_take, List.drop_take, List.take_take, List.drop_drop, Nat.min_comm space]

-- One turn of the loop takes of a chunk what there is room for.
theorem collect_chunk (max_bytes : Nat) (chunk : ChunkRef) (result : Collected) (inside : Inside output chunk)
    (here : ¬chunk.sequence < result.next_cursor.sequence) (some_ : chunkStart result.next_cursor chunk < chunk.size) :
    let after := collectChunk output max_bytes chunk result
    let room := max_bytes - result.returned_bytes
    let left := leftOf output result.next_cursor chunk
    page after.chunks = page result.chunks ++ left.take room ∧
      after.returned_bytes = result.returned_bytes + (left.take room).length ∧
      leftOf output after.next_cursor chunk = left.drop room ∧ Behind after.next_cursor chunk.sequence ∧
      chunk.sequence ≤ after.next_cursor.sequence ∧ (left.length ≤ room → after.next_cursor = ⟨chunk.sequence + 1, 0⟩) := by
  have size := slice_length output chunk inside
  have left : leftOf output result.next_cursor chunk = (sliceOf output chunk).drop (chunkStart result.next_cursor chunk) := if_neg here
  dsimp only
  rw [left]
  unfold collectChunk
  generalize chunkStart result.next_cursor chunk = start at some_ left ⊢
  generalize max_bytes - result.returned_bytes = space
  dsimp only
  refine ⟨?_, ?_, ?_⟩
  · rw [slice_part, page, page, List.flatMap_append, List.flatMap_singleton]
  · rw [List.length_take, List.length_drop, size, Nat.min_comm]
  · by_cases part : start + min (chunk.size - start) space < chunk.size
    · rw [if_pos part, leftOf, if_neg (Nat.lt_irrefl _), chunkStart, if_pos rfl, List.drop_drop]
      rw [List.length_drop, size]
      exact ⟨by rw [show min (chunk.size - start) space = space by omega], .inl (Nat.le_refl _), Nat.le_refl _, by omega⟩
    · rw [if_neg part, left_passed output _ chunk (Nat.lt_succ_self _), List.drop_drop]
      exact ⟨(List.drop_eq_nil_of_le (by omega)).symm, .inr rfl, Nat.le_succ _, fun _ => rfl⟩

-- What the loop has done over some chunks.
structure Taken (max_bytes : Nat) (chunks : List ChunkRef) (result final : Collected) : Prop where
  page : page final.chunks =
    page result.chunks ++ (chunks.flatMap (leftOf output result.next_cursor)).take (max_bytes - result.returned_bytes)
  counted : final.returned_bytes =
    result.returned_bytes + ((chunks.flatMap (leftOf output result.next_cursor)).take (max_bytes - result.returned_bytes)).length
  rest : chunks.flatMap (leftOf output final.next_cursor) =
    (chunks.flatMap (leftOf output result.next_cursor)).drop (max_bytes - result.returned_bytes)
  onwards : result.next_cursor.sequence ≤ final.next_cursor.sequence
  behind : final.next_cursor = result.next_cursor ∨ ∃ chunk ∈ chunks, Behind final.next_cursor chunk.sequence

section turns

variable (max_bytes : Nat) (chunk : ChunkRef) (rest : List ChunkRef) (result final : Collected)

theorem taken_passed (passed : chunk.sequence < result.next_cursor.sequence) (later : Taken output max_bytes rest result final) :
    Taken output max_bytes (chunk :: rest) result final := by
  have gone := left_passed output result.next_cursor chunk passed
  have still := left_passed output _ chunk (Nat.lt_of_lt_of_le passed later.onwards)
  refine ⟨?_, ?_, ?_, later.onwards, ?_⟩
  · rw [List.flatMap_cons, gone, List.nil_append, later.page]
  · rw [List.flatMap_cons, gone, List.nil_append, later.counted]
  · rw [List.flatMap_cons, still, List.flatMap_cons, gone, List.nil_append, List.nil_append, later.rest]
  · exact later.behind.imp_right fun found => found.imp fun next both => ⟨List.mem_cons_of_mem _ both.1, both.2⟩

variable (inside : Inside output chunk) (ordered : ∀ next ∈ rest, chunk.sequence < next.sequence)
  (here : ¬chunk.sequence < result.next_cursor.sequence)

include inside ordered here

theorem taken_empty (empty : chunk.size ≤ chunkStart result.next_cursor chunk)
    (later : Taken output max_bytes rest { result with next_cursor := ⟨chunk.sequence + 1, 0⟩ } final) :
    Taken output max_bytes (chunk :: rest) result final := by
  have size := slice_length output chunk inside
  have fresh := left_behind output result.next_cursor chunk.sequence (.inl (Nat.not_lt.mp here)) rest ordered
  have same := left_behind output ⟨chunk.sequence + 1, 0⟩ chunk.sequence (.inr rfl) rest ordered
  have gone : leftOf output result.next_cursor chunk = [] := by
    rw [leftOf, if_neg here]
    exact List.drop_eq_nil_of_le (by omega)
  have onwards : chunk.sequence + 1 ≤ final.next_cursor.sequence := later.onwards
  have still := left_passed output final.next_cursor chunk onwards
  refine ⟨?_, ?_, ?_, by omega, ?_⟩
  · rw [List.flatMap_cons, gone, List.nil_append, later.page, same, fresh]
  · rw [List.flatMap_cons, gone, List.nil_append, later.counted, same, fresh]
  · rw [List.flatMap_cons, still, List.flatMap_cons, gone, List.nil_append, List.nil_append, later.rest, same, fresh]
  · rcases later.behind with stayed | ⟨next, member, behind⟩
    · exact .inr ⟨chunk, List.mem_cons_self, .inr stayed⟩
    · exact .inr ⟨next, List.mem_cons_of_mem _ member, behind⟩

-- The page is full after this chunk.
theorem taken_full (some_ : chunkStart result.next_cursor chunk < chunk.size) (room : result.returned_bytes < max_bytes)
    (full : max_bytes ≤ (collectChunk output max_bytes chunk result).returned_bytes) :
    Taken output max_bytes (chunk :: rest) result (collectChunk output max_bytes chunk result) := by
  have fresh := left_behind output result.next_cursor chunk.sequence (.inl (Nat.not_lt.mp here)) rest ordered
  obtain ⟨paged, counted, left, behind, onwards, _⟩ := collect_chunk output max_bytes chunk result inside here some_
  have others := left_behind output _ _ behind rest ordered
  have cut : max_bytes - result.returned_bytes ≤ (leftOf output result.next_cursor chunk).length := by
    rw [List.length_take] at counted
    omega
  refine ⟨?_, ?_, ?_, by omega, .inr ⟨chunk, List.mem_cons_self, behind⟩⟩
  · rw [List.flatMap_cons, List.take_append_of_le_length cut, paged]
  · rw [List.flatMap_cons, List.take_append_of_le_length cut, counted]
  · rw [List.flatMap_cons, List.flatMap_cons, List.drop_append_of_le_length cut, left, others, fresh]

-- There is room left for the chunks after this one.
theorem taken_more (some_ : chunkStart result.next_cursor chunk < chunk.size)
    (room : (collectChunk output max_bytes chunk result).returned_bytes < max_bytes)
    (later : Taken output max_bytes rest (collectChunk output max_bytes chunk result) final) :
    Taken output max_bytes (chunk :: rest) result final := by
  have fresh := left_behind output result.next_cursor chunk.sequence (.inl (Nat.not_lt.mp here)) rest ordered
  obtain ⟨paged, counted, _, behind, onwards, whole⟩ := collect_chunk output max_bytes chunk result inside here some_
  have others := left_behind output _ _ behind rest ordered
  generalize collectChunk output max_bytes chunk result = after at *
  rw [List.length_take] at counted
  have all : (leftOf output result.next_cursor chunk).length ≤ max_bytes - result.returned_bytes := by omega
  have space : max_bytes - after.returned_bytes =
      max_bytes - result.returned_bytes - (leftOf output result.next_cursor chunk).length := by omega
  have next : chunk.sequence + 1 ≤ final.next_cursor.sequence := by
    have onwards := later.onwards
    rwa [whole all] at onwards
  have still := left_passed output final.next_cursor chunk next
  refine ⟨?_, ?_, ?_, by omega, ?_⟩
  · rw [List.flatMap_cons, List.take_append, later.page, paged, others, fresh, space, List.append_assoc]
  · rw [List.flatMap_cons, List.take_append, List.length_append, List.length_take, later.counted, space, counted, others, fresh]
    omega
  · rw [List.flatMap_cons, still, List.nil_append, List.flatMap_cons, List.drop_append, List.drop_eq_nil_of_le all,
      List.nil_append, later.rest, others, fresh, space]
  · rcases later.behind with stayed | ⟨next, member, behind⟩
    · exact .inr ⟨chunk, List.mem_cons_self, .inr (stayed.trans (whole all))⟩
    · exact .inr ⟨next, List.mem_cons_of_mem _ member, behind⟩

end turns

theorem collect_chunks (max_bytes : Nat) (chunks : List ChunkRef) (inside : ∀ chunk ∈ chunks, Inside output chunk)
    (ordered : chunks.Pairwise fun one next => one.sequence < next.sequence) (result : Collected) :
    Taken output max_bytes chunks result (collectChunks output max_bytes chunks result) := by
  induction chunks generalizing result with
  | nil => exact ⟨by simp [collectChunks], by simp [collectChunks], by simp, Nat.le_refl _, .inl rfl⟩
  | cons chunk rest ih =>
      rw [List.forall_mem_cons] at inside
      rw [List.pairwise_cons] at ordered
      have later := ih inside.2 ordered.2
      rw [collectChunks]
      by_cases passed : chunk.sequence < result.next_cursor.sequence
      · rw [if_pos passed]
        exact taken_passed output max_bytes chunk rest result _ passed (later result)
      · rw [if_neg passed]
        by_cases empty : chunk.size ≤ chunkStart result.next_cursor chunk
        · rw [if_pos empty]
          exact taken_empty output max_bytes chunk rest result _ inside.1 ordered.1 passed empty (later _)
        · rw [if_neg empty]
          by_cases full : max_bytes ≤ result.returned_bytes
          · rw [if_pos full]
            have none_ : max_bytes - result.returned_bytes = 0 := Nat.sub_eq_zero_of_le full
            exact ⟨by simp [none_], by simp [none_], by simp [none_], Nat.le_refl _, .inl rfl⟩
          · rw [if_neg full]
            dsimp only
            by_cases done : max_bytes ≤ (collectChunk output max_bytes chunk result).returned_bytes
            · rw [if_pos done]
              exact taken_full output max_bytes chunk rest result inside.1 ordered.1 passed (Nat.not_le.mp empty) (Nat.not_le.mp full) done
            · rw [if_neg done]
              exact taken_more output max_bytes chunk rest result _ inside.1 ordered.1 passed (Nat.not_le.mp empty)
                (Nat.not_le.mp done) (later _)

theorem left_nil (cursor : OutputCursor) (chunk : ChunkRef) (inside : Inside output chunk) :
    leftOf output cursor chunk = [] ↔ chunk.sequence < cursor.sequence ∨ chunk.size ≤ chunkStart cursor chunk := by
  have size := slice_length output chunk inside
  by_cases passed : chunk.sequence < cursor.sequence
  · simp [left_passed output cursor chunk passed, passed]
  · rw [leftOf, if_neg passed, List.drop_eq_nil_iff, size]
    simp [passed]

theorem has_unread_iff (cursor : OutputCursor) (inside : ∀ chunk ∈ output.chunks, Inside output chunk) :
    has_unread output cursor = false ↔ unread output cursor = [] := by
  have each : unread output cursor = [] ↔ ∀ chunk ∈ output.chunks, chunk.sequence < cursor.sequence ∨ chunk.size ≤ chunkStart cursor chunk := by
    rw [unread, List.flatMap_eq_nil_iff]
    exact forall₂_congr fun chunk member => left_nil output cursor chunk (inside chunk member)
  rw [each, has_unread, List.any_eq_false]
  refine forall₂_congr fun chunk member => ?_
  simp only [Bool.and_eq_true, Bool.not_eq_true', decide_eq_false_iff_not, decide_eq_true_eq]
  omega

end collecting

section layout

variable (output : ProcessState)

def captured : List (ProcessStream × UInt8) := output.chunks.flatMap (sliceOf output)

def bytesOf (stream : ProcessStream) (bytes : List (ProcessStream × UInt8)) : List UInt8 :=
  (bytes.filter fun byte => byte.1 = stream).map Prod.snd

-- The chunks are numbered in order and lie in the two streams one behind the other.
structure Laid : Prop where
  inside : ∀ chunk ∈ output.chunks, Inside output chunk
  ordered : output.chunks.Pairwise fun one next => one.sequence < next.sequence
  numbered : ∀ chunk ∈ output.chunks, chunk.sequence < output.next_sequence
  written : ∀ stream, bytesOf stream (captured output) = (output.captures stream).acc

-- No chunk still to come lies behind the cursor.
def Fits (cursor : OutputCursor) : Prop := cursor.sequence < output.next_sequence ∨ cursor = ⟨output.next_sequence, 0⟩

theorem bytes_of_append (stream : ProcessStream) (front back : List (ProcessStream × UInt8)) :
    bytesOf stream (front ++ back) = bytesOf stream front ++ bytesOf stream back := by
  rw [bytesOf, List.filter_append, List.map_append]
  rfl

theorem bytes_of_tagged (stream other : ProcessStream) (bytes : List UInt8) :
    bytesOf stream (tagged other bytes) = if other = stream then bytes else [] := by
  rw [bytesOf, tagged, List.filter_map, List.map_map]
  by_cases same : other = stream
  · simp [same, Function.comp_def]
  · simp [same, Function.comp_def]

-- Every byte is of one of the two streams.
theorem bytes_of_nil (bytes : List (ProcessStream × UInt8)) (none_ : ∀ stream, bytesOf stream bytes = []) : bytes = [] := by
  cases bytes with
  | nil => rfl
  | cons byte rest =>
      have here := none_ byte.1
      rw [bytesOf, List.filter_cons_of_pos (by simp)] at here
      cases here

theorem slice_grown (grown : ProcessState) (chunk : ChunkRef) (more : List UInt8) (inside : Inside output chunk)
    (grows : (grown.captures chunk.stream).acc = (output.captures chunk.stream).acc ++ more) :
    sliceOf grown chunk = sliceOf output chunk ∧ Inside grown chunk := by
  unfold Inside at inside ⊢
  rw [sliceOf, sliceOf, grows, List.drop_append_of_le_length (by omega),
    List.take_append_of_le_length (by rw [List.length_drop]; omega), List.length_append]
  exact ⟨rfl, by omega⟩

theorem append_capture_acc (stream other : ProcessStream) (data : List UInt8) (observed_at_ms : Int) :
    ((append_capture output stream data observed_at_ms).captures other).acc = (output.captures other).acc ++
      if other = stream then data.take (captureRoom (output.captures stream) output.budget data.length) else [] := by
  by_cases same : other = stream
  · rw [same, append_capture_here, if_pos rfl]
  · rw [append_capture_other output stream other data observed_at_ms same, if_neg same, List.append_nil]

-- What is captured is one chunk more, or nothing.
theorem append_capture_chunks (stream : ProcessStream) (data : List UInt8) (observed_at_ms : Int) :
    let room := captureRoom (output.captures stream) output.budget data.length
    let grown := append_capture output stream data observed_at_ms
    (room = 0 ∧ grown.chunks = output.chunks ∧ grown.next_sequence = output.next_sequence) ∨
      grown.chunks = output.chunks ++ [⟨output.next_sequence, stream, (output.captures stream).acc.length, min data.length room, observed_at_ms⟩] ∧
        grown.next_sequence = output.next_sequence + 1 := by
  unfold append_capture
  dsimp only
  split
  · exact .inr ⟨rfl, rfl⟩
  · rename_i none_left
    exact .inl ⟨by omega, rfl, rfl⟩

-- More output: what is captured, and what is unread at a cursor, gets the same bytes more at its end.
structure Grown (grown : ProcessState) : Prop where
  laid : Laid grown
  more : ∃ more, captured grown = captured output ++ more ∧
    ∀ cursor, Fits output cursor → unread grown cursor = unread output cursor ++ more ∧ Fits grown cursor

theorem append_capture_grown (laid : Laid output) (stream : ProcessStream) (data : List UInt8) (observed_at_ms : Int) :
    Grown output (append_capture output stream data observed_at_ms) := by
  have accs := fun other => append_capture_acc output stream other data observed_at_ms
  have shape := append_capture_chunks output stream data observed_at_ms
  dsimp only at shape
  generalize captureRoom (output.captures stream) output.budget data.length = room at accs shape
  generalize append_capture output stream data observed_at_ms = grown at accs shape ⊢
  have kept : ∀ chunk ∈ output.chunks, sliceOf grown chunk = sliceOf output chunk ∧ Inside grown chunk := by
    intro chunk member
    exact slice_grown output grown chunk _ (laid.inside chunk member) (accs chunk.stream)
  have slices : output.chunks.flatMap (sliceOf grown) = captured output :=
    List.flatMap_congr fun chunk member => (kept chunk member).1
  have lefts : ∀ cursor, output.chunks.flatMap (leftOf grown cursor) = unread output cursor := by
    intro cursor
    refine List.flatMap_congr fun chunk member => ?_
    rw [leftOf, leftOf, (kept chunk member).1]
  rcases shape with ⟨none_, chunks, next⟩ | ⟨chunks, next⟩
  · rw [none_] at accs
    refine ⟨⟨?_, ?_, ?_, ?_⟩, [], ?_, ?_⟩
    · rw [chunks]
      exact fun chunk member => (kept chunk member).2
    · rw [chunks]
      exact laid.ordered
    · rw [chunks, next]
      exact laid.numbered
    · intro other
      rw [captured, chunks, slices, laid.written, accs, List.take_zero, ite_self, List.append_nil]
    · rw [captured, chunks, slices, List.append_nil]
    · intro cursor fits
      rw [unread, chunks, lefts, List.append_nil, Fits, next]
      exact ⟨rfl, fits⟩
  · have new : sliceOf grown ⟨output.next_sequence, stream, (output.captures stream).acc.length, min data.length room, observed_at_ms⟩ =
        tagged stream (data.take room) := by
      rw [sliceOf]
      dsimp only
      rw [accs, if_pos rfl, List.drop_left, List.take_take, show min (min data.length room) room = min room data.length by omega,
        ← List.take_eq_take_min]
    refine ⟨⟨?_, ?_, ?_, ?_⟩, tagged stream (data.take room), ?_, ?_⟩
    · rw [chunks, List.forall_mem_append, List.forall_mem_singleton, Inside, accs, if_pos rfl, List.length_append, List.length_take]
      exact ⟨fun chunk member => (kept chunk member).2, by dsimp only; omega⟩
    · rw [chunks, List.pairwise_append]
      refine ⟨laid.ordered, List.pairwise_singleton _ _, fun chunk member last_ only => ?_⟩
      rw [List.mem_singleton.mp only]
      exact laid.numbered chunk member
    · rw [chunks, next, List.forall_mem_append, List.forall_mem_singleton]
      exact ⟨fun chunk member => Nat.lt_succ_of_lt (laid.numbered chunk member), Nat.lt_succ_self _⟩
    · intro other
      rw [captured, chunks, List.flatMap_append, slices, List.flatMap_singleton, new, bytes_of_append, laid.written, bytes_of_tagged, accs]
      simp only [eq_comm]
    · rw [captured, chunks, List.flatMap_append, slices, List.flatMap_singleton, new]
    · intro cursor fits
      have unpassed : ¬output.next_sequence < cursor.sequence ∧ (output.next_sequence = cursor.sequence → cursor.byte_offset = 0) := by
        rcases fits with before | rfl
        · exact ⟨by omega, by omega⟩
        · exact ⟨Nat.lt_irrefl _, fun _ => rfl⟩
      rw [unread, chunks, List.flatMap_append, lefts, List.flatMap_singleton, leftOf, if_neg unpassed.1, new, chunkStart]
      refine ⟨?_, .inl (by rw [next]; omega)⟩
      split
      · rename_i here
        rw [unpassed.2 here, List.drop_zero]
      · rw [List.drop_zero]

-- One collection: it pages through what is unread at its cursor.
theorem collect_pages (laid : Laid output) (max_bytes : Nat) (cursor : OutputCursor) (fits : Fits output cursor) :
    let result := collectChunks output max_bytes output.chunks ⟨[], 0, cursor⟩
    page result.chunks = (unread output cursor).take max_bytes ∧ result.returned_bytes = (page result.chunks).length ∧
      unread output result.next_cursor = (unread output cursor).drop max_bytes ∧ Fits output result.next_cursor := by
  have taken := collect_chunks output max_bytes output.chunks laid.inside laid.ordered ⟨[], 0, cursor⟩
  intro result
  have paged : page result.chunks = (unread output cursor).take max_bytes := by
    have whole := taken.page
    rwa [page, page, List.flatMap_nil, List.nil_append, Nat.sub_zero] at whole
  refine ⟨paged, ?_, ?_, ?_⟩
  · have counted := taken.counted
    rwa [Nat.sub_zero, Nat.zero_add, show List.flatMap _ _ = unread output cursor from rfl, ← paged] at counted
  · have rest := taken.rest
    rwa [Nat.sub_zero] at rest
  · rcases taken.behind with stayed | ⟨chunk, member, behind⟩
    · rw [show result.next_cursor = cursor from stayed]
      exact fits
    · have before := laid.numbered chunk member
      rcases behind with upTo | next
      · exact .inl (Nat.lt_of_le_of_lt upTo before)
      · rw [Fits, show result.next_cursor = ⟨chunk.sequence + 1, 0⟩ from next]
        rcases Nat.lt_or_eq_of_le before with less | last
        · exact .inl less
        · exact .inr (by rw [← last])

end layout

section reads

def pages (answers : List Answer) : List (ProcessStream × UInt8) := answers.flatMap fun answer => page answer.result.chunks

-- The bytes of a stream that the answers returned, one behind the other.
def received (answers : List Answer) (stream : ProcessStream) : List UInt8 := bytesOf stream (pages answers)

-- One read's answer, after the earlier ones.
structure Exact (before : List Answer) (answer : Answer) : Prop where
  counted : answer.result.returned_bytes = (page answer.result.chunks).length
  fits : answer.result.returned_bytes ≤ answer.max_bytes
  progress : 0 < answer.max_bytes → (∃ stream, received before stream ≠ answer.captured stream) → 0 < answer.result.returned_bytes
  eof : answer.result.eof = true ↔
    answer.finished = true ∧ ∀ stream, received (before ++ [answer]) stream = answer.captured stream

structure Paged (run : ReadRun) : Prop where
  laid : Laid run.process.output
  fits : Fits run.process.output run.cursor
  waits : ∀ options, run.waiting = some options → options.cursor = run.cursor
  whole : pages run.answers ++ unread run.process.output run.cursor = captured run.process.output
  told : ∀ before answer after, run.answers = before ++ answer :: after → Exact before answer

theorem pages_concat (answers : List Answer) (answer : Answer) :
    pages (answers ++ [answer]) = pages answers ++ page answer.result.chunks := by
  rw [pages, List.flatMap_append, List.flatMap_singleton, pages]

theorem grown_paged (run : ReadRun) (paged : Paged run) (process : State) (grown : Grown run.process.output process.output) :
    Paged { run with process := process } := by
  obtain ⟨more, all, each⟩ := grown.more
  obtain ⟨left, fits⟩ := each run.cursor paged.fits
  refine ⟨grown.laid, fits, paged.waits, ?_, paged.told⟩
  dsimp only
  rw [all, left, ← List.append_assoc, paged.whole]

-- What the answers hold of a stream and what is unread of it are the stream.
theorem streams_whole (output : ProcessState) (laid : Laid output) (cursor : OutputCursor) (answers : List Answer)
    (whole : pages answers ++ unread output cursor = captured output) (stream : ProcessStream) :
    received answers stream ++ bytesOf stream (unread output cursor) = (output.captures stream).acc := by
  rw [received, ← bytes_of_append, whole, laid.written]

theorem unread_nil (output : ProcessState) (laid : Laid output) (cursor : OutputCursor) (answers : List Answer)
    (whole : pages answers ++ unread output cursor = captured output) :
    unread output cursor = [] ↔ ∀ stream, received answers stream = (output.captures stream).acc := by
  have streams := streams_whole output laid cursor answers whole
  constructor
  · intro none_ stream
    rw [← streams stream, none_]
    exact (List.append_nil _).symm
  · intro all
    refine bytes_of_nil _ fun stream => ?_
    have same := streams stream
    rw [← all stream] at same
    exact List.append_right_eq_self.mp same

theorem told_concat (answers : List Answer) (new : Answer)
    (told : ∀ before answer after, answers = before ++ answer :: after → Exact before answer) (exact_ : Exact answers new) :
    ∀ before answer after, answers ++ [new] = before ++ answer :: after → Exact before answer := by
  intro before answer after same
  rcases List.eq_nil_or_concat after with rfl | ⟨others, last, rfl⟩
  · obtain ⟨rfl, one⟩ := List.append_inj' same rfl
    rwa [← (List.cons.inj one).1]
  · rw [List.concat_eq_append, ← List.cons_append, ← List.append_assoc] at same
    exact told before answer others (List.append_inj' same rfl).1

theorem collect_exact (state : State) (laid : Laid state.output) (options : ReadOptions) (fits : Fits state.output options.cursor)
    (answers : List Answer) (whole : pages answers ++ unread state.output options.cursor = captured state.output) :
    Exact answers (answerOf state options) ∧
      pages (answers ++ [answerOf state options]) ++ unread state.output (collect state options).next_cursor = captured state.output ∧
      Fits state.output (collect state options).next_cursor := by
  obtain ⟨taken, counted, rest, later⟩ := collect_pages state.output laid options.max_bytes options.cursor fits
  have next : pages (answers ++ [answerOf state options]) ++ unread state.output (collect state options).next_cursor =
      captured state.output := by
    rw [pages_concat, ← whole, ← List.take_append_drop options.max_bytes (unread state.output options.cursor), ← taken, ← rest,
      List.append_assoc]
    rfl
  have size : (collect state options).returned_bytes = ((unread state.output options.cursor).take options.max_bytes).length := by
    rw [← taken]
    exact counted
  rw [List.length_take] at size
  refine ⟨⟨counted, ?_, ?_, ?_⟩, next, later⟩
  · rw [answerOf, size]
    exact Nat.min_le_left _ _
  · rintro positive ⟨stream, lacks⟩
    have some_ : unread state.output options.cursor ≠ [] :=
      fun none_ => lacks ((unread_nil state.output laid options.cursor answers whole).mp none_ stream)
    have length := List.length_pos_of_ne_nil some_
    rw [answerOf, size]
    exact Nat.lt_min.mpr ⟨positive, length⟩
  · have same := unread_nil state.output laid _ _ next
    rw [← has_unread_iff state.output _ laid.inside] at same
    rw [show (answerOf state options).result.eof = (state.finished && !has_unread state.output (collect state options).next_cursor) from rfl,
      Bool.and_eq_true, Bool.not_eq_true', same]
    rfl

theorem answered_paged (run : ReadRun) (paged : Paged run) (options : ReadOptions) (here : options.cursor = run.cursor) :
    Paged (answered run options) := by
  obtain ⟨exact_, whole, fits⟩ := collect_exact run.process paged.laid options (by rw [here]; exact paged.fits) run.answers
    (by rw [here]; exact paged.whole)
  exact ⟨paged.laid, fits, by simp [answered], whole, told_concat run.answers _ paged.told exact_⟩

theorem unchanged_grown (output grown : ProcessState) (laid : Laid output) (captures : grown.captures = output.captures)
    (chunks : grown.chunks = output.chunks) (next : grown.next_sequence = output.next_sequence) : Grown output grown := by
  cases output
  cases grown
  dsimp only at captures chunks next
  subst captures chunks next
  refine ⟨⟨laid.inside, laid.ordered, laid.numbered, laid.written⟩, [], (List.append_nil _).symm, fun cursor fits => ?_⟩
  exact ⟨(List.append_nil _).symm, fits⟩

@[simp] theorem try_finish_output (state : State) : (try_finish state).output = state.output := by
  rw [try_finish]
  split
  · rfl
  · split <;> rfl

theorem arrived_grown (state : State) (laid : Laid state.output) (event : CaptureEvent) : Grown state.output (arrived state event).output := by
  cases event with
  | chunk stream data observed_at_ms =>
      rw [arrived]
      split
      · exact unchanged_grown _ _ laid rfl rfl rfl
      · exact append_capture_grown state.output laid stream data observed_at_ms
  | charge n => exact unchanged_grown _ _ laid rfl rfl rfl
  | release n => exact unchanged_grown _ _ laid rfl rfl rfl

-- The ends of the pipes and of the process leave the output alone.
theorem still_paged (run : ReadRun) (paged : Paged run) (process : State) (same : process.output = run.process.output) :
    Paged { run with process := process } := by
  refine grown_paged run paged process (unchanged_grown _ _ paged.laid ?_ ?_ ?_)
  all_goals rw [same]

theorem next_paged (run : ReadRun) (event : ReadEvent) (paged : Paged run) : Paged (run.next event) := by
  cases event with
  | output event => exact grown_paged run paged _ (arrived_grown run.process paged.laid event)
  | drained stream => exact still_paged run paged _ (by cases stream <;> exact try_finish_output _)
  | exited code signal =>
      refine still_paged run paged _ ?_
      rw [on_process_exit]
      split
      · rfl
      · exact try_finish_output _
  | timeout =>
      refine still_paged run paged _ ?_
      rw [timedOut]
      split <;> rfl
  | read max_bytes wait =>
      rw [ReadRun.next]
      cases waiting : run.waiting with
      | some options => exact paged
      | none =>
          dsimp only
          split
          · exact answered_paged run paged _ rfl
          · exact ⟨paged.laid, paged.fits, fun options same => by rw [← Option.some.inj same], paged.whole, paged.told⟩
  | resume =>
      rw [ReadRun.next]
      cases waiting : run.waiting with
      | some options => exact answered_paged run paged options (paged.waits options waiting)
      | none => exact paged

theorem started_paged (budget : ProcessBudget) (max_out max_err : Nat) : Paged (started budget max_out max_err) where
  laid := ⟨by simp [started, fresh], by simp [started, fresh], by simp [started, fresh], fun _ => rfl⟩
  fits := .inr rfl
  waits := by simp [started]
  whole := rfl
  told := by simp [started]

theorem run_paged (budget : ProcessBudget) (max_out max_err : Nat) (events : List ReadEvent) :
    Paged (runFrom ReadRun.next (started budget max_out max_err) events) :=
  run_holds ReadRun.next Paged next_paged _ events (started_paged budget max_out max_err)

end reads

section draining

theorem bytes_of_length (bytes : List (ProcessStream × UInt8)) :
    bytes.length = (bytesOf .stdout bytes).length + (bytesOf .stderr bytes).length := by
  induction bytes with
  | nil => rfl
  | cons byte rest ih =>
      obtain ⟨stream, byte⟩ := byte
      cases stream <;> simp [bytesOf] at ih ⊢ <;> omega

theorem answered_unread (run : ReadRun) (paged : Paged run) (options : ReadOptions) (here : options.cursor = run.cursor) :
    unread (answered run options).process.output (answered run options).cursor =
      (unread run.process.output run.cursor).drop options.max_bytes := by
  rw [← here]
  exact (collect_pages run.process.output paged.laid options.max_bytes options.cursor (by rw [here]; exact paged.fits)).2.2.1

theorem resumed_unread (run : ReadRun) (paged : Paged run) :
    (run.next .resume).waiting = none ∧ (run.next .resume).process = run.process ∧
      (unread (run.next .resume).process.output (run.next .resume).cursor).length ≤ (unread run.process.output run.cursor).length := by
  rw [ReadRun.next]
  cases waiting : run.waiting with
  | some options =>
      dsimp only
      rw [answered_unread run paged options (paged.waits options waiting), List.length_drop]
      exact ⟨rfl, rfl, Nat.sub_le _ _⟩
  | none => exact ⟨waiting, rfl, Nat.le_refl _⟩

-- As many reads as there are unread bytes leave none.
theorem reads_drain (run : ReadRun) (paged : Paged run) (idle : run.waiting = none) (sizes : List Nat)
    (positive : ∀ size ∈ sizes, 0 < size) (enough : (unread run.process.output run.cursor).length ≤ sizes.length) :
    let after := runFrom ReadRun.next run (sizes.map fun size => .read size 0)
    after.process = run.process ∧ unread after.process.output after.cursor = [] := by
  induction sizes generalizing run with
  | nil => exact ⟨rfl, List.length_eq_zero_iff.mp (Nat.le_zero.mp enough)⟩
  | cons size rest ih =>
      rw [List.forall_mem_cons] at positive
      have now : run.next (.read size 0) = answered run ⟨run.cursor, size, 0⟩ := by simp [ReadRun.next, idle]
      have left := answered_unread run paged ⟨run.cursor, size, 0⟩ rfl
      have fewer : (unread (answered run ⟨run.cursor, size, 0⟩).process.output (answered run ⟨run.cursor, size, 0⟩).cursor).length ≤
          rest.length := by
        rw [left, List.length_drop]
        rw [List.length_cons] at enough
        have one := positive.1
        dsimp only
        omega
      rw [List.map_cons, runFrom, List.foldl_cons, now]
      exact ih _ (answered_paged run paged _ rfl) rfl positive.2 fewer

end draining

-- Following next_cursor, the answers return each stream's bytes once and in order, never more than asked for, some
-- whenever some are unread, and eof just when the process has finished and none are. Enough reads return all of them.
theorem read_exact (budget : ProcessBudget) (max_out max_err : Nat) (events : List ReadEvent) :
    let run := runFrom ReadRun.next (started budget max_out max_err) events
    let acc := fun stream => (run.process.output.captures stream).acc
    (∀ stream, received run.answers stream <+: acc stream) ∧
      (∀ before answer after, run.answers = before ++ answer :: after → Exact before answer) ∧
      ∀ sizes : List Nat, (∀ size ∈ sizes, 0 < size) →
        (acc .stdout).length + (acc .stderr).length ≤
          (received run.answers .stdout).length + (received run.answers .stderr).length + sizes.length →
        ∀ stream, received (runFrom ReadRun.next run (.resume :: sizes.map fun size => .read size 0)).answers stream = acc stream := by
  intro run acc
  have paged : Paged run := run_paged budget max_out max_err events
  have whole := streams_whole _ paged.laid _ _ paged.whole
  refine ⟨fun stream => ⟨_, whole stream⟩, paged.told, fun sizes positive enough => ?_⟩
  obtain ⟨idle, same, fewer⟩ := resumed_unread run paged
  have resumed := next_paged run .resume paged
  have count := bytes_of_length (unread run.process.output run.cursor)
  have lengths : ∀ stream, (received run.answers stream).length + (bytesOf stream (unread run.process.output run.cursor)).length =
      (acc stream).length := by
    intro stream
    rw [← List.length_append, whole]
  have out := lengths .stdout
  have err := lengths .stderr
  obtain ⟨process, none_⟩ := reads_drain (run.next .resume) resumed idle sizes positive (by omega)
  have after : Paged (runFrom ReadRun.next (run.next .resume) (sizes.map fun size => .read size 0)) :=
    run_holds ReadRun.next Paged next_paged _ _ resumed
  intro stream
  have all := (unread_nil _ after.laid _ _ after.whole).mp none_ stream
  rw [process, same] at all
  exact all

-- A page ends inside the first chunk, and output of the other stream arrives before the next.
def twoStreams : List ReadEvent :=
  [.output (.chunk .stdout [97, 98, 99] 0), .read 2 0, .output (.chunk .stderr [100] 1), .read 1 5]

theorem read_exact_streams (stream : ProcessStream) :
    received (runFrom ReadRun.next (runFrom ReadRun.next (started ⟨16, 0⟩ 8 8) twoStreams) [.resume, .read 1 0]).answers stream =
      if stream = .stdout then [97, 98, 99] else [100] := by
  obtain ⟨_, _, drained⟩ := read_exact ⟨16, 0⟩ 8 8 twoStreams
  refine (drained [1] (by simp) (by decide +kernel) stream).trans ?_
  cases stream <;> decide +kernel

end Vacps.Native.Process
