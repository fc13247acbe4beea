import Vacps.Agent.TerminalReads
import Vacps.Native.SimdutfReference

/- One call of readUtf8, whose reads may each find that output was dropped: what of its way forward it counts as dropped and
   what it gives as content. -/
set_option autoImplicit false

namespace Vacps.Native

open TerminalState

-- How far a read has come is what it found dropped and what it took, whatever the state of the buffer.
structure Counts (offset : Nat) (collecting : Collecting) : Prop where
  count : collecting.cursor = offset + collecting.dropped_bytes + collecting.data.length
  unmarked : collecting.dropped = false → collecting.dropped_bytes = 0

theorem skip_counts (offset : Nat) (collecting : Collecting) (target : Nat) (counts : Counts offset collecting) :
    Counts offset (collecting.skipTo target) := by
  have count := counts.count
  unfold Collecting.skipTo
  split
  · exact ⟨by dsimp only; omega, fun unmarked => absurd unmarked (by simp)⟩
  · exact counts

theorem collect_chunks_counts (offset max_bytes : Nat) (chunks : List Chunk) (collecting : Collecting)
    (counts : Counts offset collecting) : Counts offset (collectChunks max_bytes chunks collecting) := by
  induction chunks generalizing collecting with
  | nil => exact counts
  | cons chunk rest ih =>
      rw [collectChunks]
      by_cases behind : chunk.offset + chunk.data.length ≤ collecting.cursor
      · rw [if_pos behind]
        exact ih collecting counts
      · rw [if_neg behind]
        by_cases gap : collecting.cursor < chunk.offset ∧ collecting.data ≠ []
        · rw [if_pos gap]
          exact counts
        · rw [if_neg gap]
          dsimp only
          have skipped := skip_counts offset collecting chunk.offset counts
          have count := skipped.count
          have part : ((chunk.data.drop ((collecting.skipTo chunk.offset).cursor - chunk.offset)).take
              (min (max_bytes - (collecting.skipTo chunk.offset).data.length)
                (chunk.data.length - ((collecting.skipTo chunk.offset).cursor - chunk.offset)))).length =
              min (max_bytes - (collecting.skipTo chunk.offset).data.length)
                (chunk.data.length - ((collecting.skipTo chunk.offset).cursor - chunk.offset)) := by
            rw [List.length_take, List.length_drop]
            omega
          split
          · exact ⟨by dsimp only; rw [List.length_append, part]; omega, skipped.unmarked⟩
          · exact ih _ ⟨by dsimp only; rw [List.length_append, part]; omega, skipped.unmarked⟩

theorem collect_counts (state : TerminalState) (options : ReadOptions) :
    (state.collect options).next_offset = options.offset + (state.collect options).dropped_bytes + (state.collect options).data.length ∧
      ((state.collect options).dropped = false → (state.collect options).dropped_bytes = 0) := by
  have start : Counts options.offset (Collecting.skipTo ⟨options.offset, [], 0, false, false⟩ state.available_from) :=
    skip_counts _ _ _ ⟨rfl, fun _ => rfl⟩
  have collected := collect_chunks_counts options.offset options.max_bytes state.chunks _ start
  have last : Counts options.offset (state.collecting options) := by
    unfold TerminalState.collecting
    dsimp only
    split
    · exact skip_counts _ _ _ collected
    · exact collected
  exact ⟨last.count, last.unmarked⟩

end Vacps.Native

namespace Vacps.TerminalSessions

open Library Vacps.Native

section call

variable (simdutf : Simdutf)

-- The terminal, a call that has not returned, what its reads have been answered, and its result.
structure CallRun where
  terminal : TerminalRun
  call : Utf8Call
  reads : List ReadResult
  result : Option Utf8ReadResult

inductive CallEvent where
  | terminal (event : TerminalEvent)
  | read (remainingWait : Nat) (mayReadAgain : Bool)

def CallRun.next (run : CallRun) : CallEvent → CallRun
  | .terminal event => { run with terminal := run.terminal.next event }
  | .read remainingWait mayReadAgain =>
      if run.result.isSome then run
      else
        let answer := run.terminal.state.collect ⟨run.call.rawOffset, run.call.requestedBytes⟩
        match run.call.turn simdutf answer remainingWait mayReadAgain with
        | .inl result => { run with reads := run.reads ++ [answer], result := some result }
        | .inr call => { run with reads := run.reads ++ [answer], call := call }

def callRun (terminal : TerminalRun) (offset maxBytes : Nat) : CallRun := ⟨terminal, readUtf8 offset maxBytes, [], none⟩

end call

section answers

def anyDropped (reads : List ReadResult) : Bool := reads.any ReadResult.dropped

-- The answers before the last that reports a drop, and those from it on.
def beforeDrop : List ReadResult → List ReadResult
  | [] => []
  | read :: rest => if anyDropped rest then read :: beforeDrop rest else []

def sinceDrop : List ReadResult → List ReadResult
  | [] => []
  | read :: rest => if anyDropped rest then sinceDrop rest else read :: rest

def given (reads : List ReadResult) : List UInt8 := reads.flatMap ReadResult.data

@[simp] theorem given_concat (reads : List ReadResult) (read : ReadResult) : given (reads ++ [read]) = given reads ++ read.data := by
  simp [given]

theorem any_dropped_concat (reads : List ReadResult) (read : ReadResult) : anyDropped (reads ++ [read]) = (anyDropped reads || read.dropped) := by
  simp [anyDropped]

theorem before_concat (reads : List ReadResult) (read : ReadResult) :
    beforeDrop (reads ++ [read]) = if read.dropped then reads else beforeDrop reads := by
  induction reads with
  | nil => simp [beforeDrop, anyDropped]
  | cons first rest ih =>
      rw [List.cons_append, beforeDrop, ih]
      cases dropped : read.dropped with
      | true => simp [anyDropped, dropped]
      | false => simp [beforeDrop, anyDropped, dropped]

theorem since_concat (reads : List ReadResult) (read : ReadResult) :
    sinceDrop (reads ++ [read]) = if read.dropped then [read] else sinceDrop reads ++ [read] := by
  induction reads with
  | nil => simp [sinceDrop, anyDropped]
  | cons first rest ih =>
      rw [List.cons_append, sinceDrop, ih]
      cases dropped : read.dropped with
      | true => simp [anyDropped, dropped]
      | false =>
          rw [any_dropped_concat, dropped, Bool.or_false, if_neg Bool.false_ne_true, if_neg Bool.false_ne_true, sinceDrop]
          split <;> rfl

theorem before_since (reads : List ReadResult) : (given (beforeDrop reads)).length + (given (sinceDrop reads)).length = (given reads).length := by
  induction reads with
  | nil => rfl
  | cons read rest ih =>
      rw [beforeDrop, sinceDrop]
      split
      · simp only [given, List.flatMap_cons, List.length_append] at ih ⊢
        omega
      · simp [given]

end answers

section accounting

variable (simdutf : Simdutf) (offset maxBytes : Nat)

-- What a call that has been given so much counts as the continuation of a character that was dropped, and how far it is complete.
def leadingOf (reads : List ReadResult) : Nat := if anyDropped reads then leadingContinuationBytes (given (sinceDrop reads)) else 0

def completeOf (reads : List ReadResult) : Nat :=
  if reads.getLast?.any ReadResult.eof then (given (sinceDrop reads)).length
  else utf8PrefixEnd (given (sinceDrop reads)) (min (given (sinceDrop reads)).length maxBytes)

def decodedOf (reads : List ReadResult) : List UInt8 := ((given (sinceDrop reads)).take (completeOf maxBytes reads)).drop (leadingOf reads)

-- A call after these answers.
structure CallCounts (reads : List ReadResult) (call : Utf8Call) : Prop where
  limit : call.maxBytes = maxBytes
  bytes : call.bytes = given (sinceDrop reads)
  dropped : call.dropped = anyDropped reads
  start : call.rawOffset = call.contentStart + call.bytes.length
  count : call.rawOffset = offset + call.droppedBytes + call.bytes.length + (given (beforeDrop reads)).length

theorem received_counts (reads : List ReadResult) (call : Utf8Call) (counts : CallCounts offset maxBytes reads call) (state : TerminalState) :
    CallCounts offset maxBytes (reads ++ [state.collect ⟨call.rawOffset, call.requestedBytes⟩])
      (call.received (state.collect ⟨call.rawOffset, call.requestedBytes⟩)) := by
  obtain ⟨next, unmarked⟩ := collect_counts state ⟨call.rawOffset, call.requestedBytes⟩
  generalize state.collect ⟨call.rawOffset, call.requestedBytes⟩ = answer at next unmarked
  dsimp only at next
  have start := counts.start
  have count := counts.count
  have whole := before_since reads
  rw [counts.bytes] at start count
  refine ⟨counts.limit, ?_, ?_, ?_, ?_⟩
  · rw [Utf8Call.received, since_concat, counts.bytes]
    cases answer.dropped with
    | true => simp [given]
    | false => simp
  · rw [Utf8Call.received, any_dropped_concat, counts.dropped]
  · simp only [Utf8Call.received, counts.bytes]
    cases dropped : answer.dropped with
    | true => simp; omega
    | false =>
        have none_ := unmarked dropped
        cases empty : (given (sinceDrop reads)).isEmpty with
        | true =>
            rw [List.isEmpty_iff] at empty
            simp [empty]
            omega
        | false => simp; omega
  · simp only [Utf8Call.received, counts.bytes, before_concat]
    cases dropped : answer.dropped with
    | true => simp; omega
    | false =>
        have none_ := unmarked dropped
        simp
        omega

-- What a call has come to when it returns.
structure Returned (reads : List ReadResult) (result : Utf8ReadResult) : Prop where
  content : result.content = utf8Decode simdutf (decodedOf maxBytes reads)
  cursor : result.nextCursor + leadingOf reads =
    offset + result.droppedBytes + completeOf maxBytes reads + (given (beforeDrop reads)).length

theorem turn_counts (reads : List ReadResult) (call : Utf8Call) (counts : CallCounts offset maxBytes reads call) (state : TerminalState)
    (remainingWait : Nat) (mayReadAgain : Bool) :
    let answer := state.collect ⟨call.rawOffset, call.requestedBytes⟩
    (∀ result, call.turn simdutf answer remainingWait mayReadAgain = .inl result →
        Returned simdutf offset maxBytes (reads ++ [answer]) result) ∧
      ∀ later, call.turn simdutf answer remainingWait mayReadAgain = .inr later → CallCounts offset maxBytes (reads ++ [answer]) later := by
  intro answer
  have received : CallCounts offset maxBytes (reads ++ [answer]) (call.received answer) := received_counts offset maxBytes reads call counts state
  have leading : (if (call.received answer).dropped then leadingContinuationBytes (call.received answer).bytes else 0) =
      leadingOf (reads ++ [answer]) := by
    rw [leadingOf, received.dropped, received.bytes]
  have complete : (call.received answer).completeEnd answer.eof = completeOf maxBytes (reads ++ [answer]) := by
    rw [completeOf, Utf8Call.completeEnd, received.bytes, received.limit, List.getLast?_concat, Option.any_some]
  have start := received.start
  have count := received.count
  rw [Utf8Call.turn]
  simp only [leading, complete]
  split
  · refine ⟨fun result returned => ?_, fun later waits => by simp at waits⟩
    rw [← Sum.inl.inj returned]
    refine ⟨?_, ?_⟩
    · rw [decodedOf, ← received.bytes]
    · dsimp only
      have counted : (if (call.received answer).dropped && decide (0 < leadingOf (reads ++ [answer])) then
          (call.received answer).droppedBytes + leadingOf (reads ++ [answer]) else (call.received answer).droppedBytes) =
          (call.received answer).droppedBytes + leadingOf (reads ++ [answer]) := by
        rw [received.dropped]
        cases dropped : anyDropped (reads ++ [answer]) with
        | false =>
            have none_ : leadingOf (reads ++ [answer]) = 0 := by rw [leadingOf, dropped, if_neg Bool.false_ne_true]
            rw [none_, Nat.add_zero, ite_self]
        | true =>
            by_cases some_ : 0 < leadingOf (reads ++ [answer])
            · rw [if_pos (by simpa using some_)]
            · rw [if_neg (by simpa using some_), Nat.eq_zero_of_not_pos some_, Nat.add_zero]
      rw [counted]
      omega
  · refine ⟨fun result returned => by simp at returned, fun later waits => ?_⟩
    rw [← Sum.inr.inj waits]
    exact received

def RunCounts (run : CallRun) : Prop :=
  (run.result = none → CallCounts offset maxBytes run.reads run.call) ∧
    ∀ result, run.result = some result → Returned simdutf offset maxBytes run.reads result

theorem next_counts (run : CallRun) (event : CallEvent) (counts : RunCounts simdutf offset maxBytes run) :
    RunCounts simdutf offset maxBytes (run.next simdutf event) := by
  cases event with
  | terminal event => exact counts
  | read remainingWait mayReadAgain =>
      rw [CallRun.next]
      split
      · exact counts
      · rename_i waiting
        have open_ : run.result = none := by simpa using waiting
        obtain ⟨returns, waits⟩ := turn_counts simdutf offset maxBytes run.reads run.call (counts.1 open_) run.terminal.state remainingWait
          mayReadAgain
        dsimp only at returns waits ⊢
        split
        · rename_i result returned
          refine ⟨fun none_ => by simp at none_, fun other same => ?_⟩
          rw [← Option.some.inj same]
          exact returns result returned
        · rename_i later waited
          refine ⟨fun _ => waits later waited, fun other same => ?_⟩
          dsimp only at same
          rw [open_] at same
          cases same

theorem start_counts (terminal : TerminalRun) : RunCounts simdutf offset maxBytes (callRun terminal offset maxBytes) :=
  ⟨fun _ => ⟨rfl, rfl, rfl, rfl, rfl⟩, fun _ same => by cases same⟩

end accounting

section concrete

-- A terminal that keeps four bytes, and a call for all it has written.
def callOf (events : List CallEvent) : CallRun := runFrom (CallRun.next reference) (callRun (startedTerminal 4 1000) 0 16) events

-- Two bytes of six are gone when the call reads.
def lateEvents : List CallEvent := [.terminal (.output [0x41, 0x42, 0x43, 0x44, 0x45, 0x46]), .read 100 true]

-- The call has read the first byte of a character when what it waits for drives out more than it has read.
def cutEvents : List CallEvent :=
  [.terminal (.output [0xE2]), .read 100 true, .terminal (.output [0x41, 0x42, 0x43, 0x44, 0x45]), .read 100 true]

end concrete

-- A call that has returned has counted its way just when the bytes it was given before the last drop, and threw away there, are as
-- many as the continuation bytes it skipped past the end of what it decoded.
theorem drop_accounting_iff (simdutf : Simdutf) (terminal : TerminalRun) (offset maxBytes : Nat) (events : List CallEvent) :
    let run := runFrom (CallRun.next simdutf) (callRun terminal offset maxBytes) events
    ∀ result, run.result = some result →
      result.content = utf8Decode simdutf (decodedOf maxBytes run.reads) ∧
        (result.nextCursor = offset + result.droppedBytes + (decodedOf maxBytes run.reads).length ↔
          (given (beforeDrop run.reads)).length = leadingOf run.reads - completeOf maxBytes run.reads) := by
  intro run result returned
  have counts : RunCounts simdutf offset maxBytes run := run_holds (CallRun.next simdutf) (RunCounts simdutf offset maxBytes)
    (next_counts simdutf offset maxBytes) _ events (start_counts simdutf offset maxBytes terminal)
  obtain ⟨content, cursor⟩ := counts.2 result returned
  refine ⟨content, ?_⟩
  have bound : completeOf maxBytes run.reads ≤ (given (sinceDrop run.reads)).length := by
    have prefix_ := prefix_end_le (given (sinceDrop run.reads)) (min (given (sinceDrop run.reads)).length maxBytes)
    rw [completeOf]
    split <;> omega
  rw [decodedOf, List.length_drop, List.length_take]
  omega

theorem drop_accounting_late : ∃ result, (callOf lateEvents).result = some result ∧ result.droppedBytes = 2 ∧
    result.nextCursor = 0 + result.droppedBytes + (decodedOf 16 (callOf lateEvents).reads).length := by
  have answered : (callOf lateEvents).result.any (fun result => decide (result.droppedBytes = 2)) = true := by decide
  rw [Option.any_eq_true] at answered
  obtain ⟨result, returned, dropped⟩ := answered
  refine ⟨result, returned, of_decide_eq_true dropped, ?_⟩
  exact (drop_accounting_iff reference (startedTerminal 4 1000) 0 16 lateEvents result returned).2.mpr (by decide)

-- The byte that was held is neither content nor counted as dropped.
theorem held_byte_uncounted : ∃ result, (callOf cutEvents).result = some result ∧ result.nextCursor = 6 ∧ result.droppedBytes = 1 ∧
    (decodedOf 16 (callOf cutEvents).reads).length = 4 ∧
    result.nextCursor ≠ 0 + result.droppedBytes + (decodedOf 16 (callOf cutEvents).reads).length := by
  have answered : (callOf cutEvents).result.any (fun result => decide (result.nextCursor = 6 ∧ result.droppedBytes = 1)) = true := by
    decide
  rw [Option.any_eq_true] at answered
  obtain ⟨result, returned, counts⟩ := answered
  have both := of_decide_eq_true counts
  have content : (decodedOf 16 (callOf cutEvents).reads).length = 4 := by decide
  exact ⟨result, returned, both.1, both.2, content, by omega⟩

end Vacps.TerminalSessions
