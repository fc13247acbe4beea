import Mathlib.Data.List.GetD
import Vacps.Native.SplitDecoding
import Vacps.Native.TerminalBuffer

/- readUtf8 of script/src/runtime/terminal-sessions.ts, with utf8PrefixEnd of script/src/util/utf8.ts, over the
   terminal's own reads. -/
set_option autoImplicit false

namespace Vacps.TerminalSessions

open Library Library.Utf8 Vacps.Native

section prefixEnd

def continues (byte : UInt8) : Bool := byte &&& 0xc0 == 0x80

-- while (lead > 0 && the byte at lead continues a character) lead--
def leadAt (bytes : List UInt8) : Nat → Nat
  | 0 => 0
  | lead + 1 => if continues (bytes.getD (lead + 1) 0) then leadAt bytes lead else lead + 1

def widthOf (first : UInt8) : Option Nat :=
  if first &&& 0x80 == 0 then some 1
  else if first &&& 0xe0 == 0xc0 then some 2
  else if first &&& 0xf0 == 0xe0 then some 3
  else if first &&& 0xf8 == 0xf0 then some 4
  else none

def utf8PrefixEnd (bytes : List UInt8) (limit : Nat) : Nat :=
  let stop := min limit bytes.length
  if stop = 0 then stop
  else
    let lead := leadAt bytes (stop - 1)
    match widthOf (bytes.getD lead 0) with
    | none => stop
    | some width => if lead + width ≤ stop then stop else lead

theorem continues_inner (byte : UInt8) : continues byte = isInner byte := by
  have all : ∀ value : Fin 256, continues (UInt8.ofNat value) = isInner (UInt8.ofNat value) := by decide +kernel
  have here := all ⟨byte.toNat, byte.toNat_lt⟩
  rw [UInt8.ofNat_toNat] at here
  exact here

theorem width_ranges (byte : UInt8) : widthOf byte =
    if byte.toNat < 0x80 then some 1
    else if byte.toNat < 0xC0 then none
    else if byte.toNat < 0xE0 then some 2
    else if byte.toNat < 0xF0 then some 3
    else if byte.toNat < 0xF8 then some 4
    else none := by
  have all : ∀ value : Fin 256, widthOf (UInt8.ofNat value) =
      if (UInt8.ofNat value).toNat < 0x80 then some 1
      else if (UInt8.ofNat value).toNat < 0xC0 then none
      else if (UInt8.ofNat value).toNat < 0xE0 then some 2
      else if (UInt8.ofNat value).toNat < 0xF0 then some 3
      else if (UInt8.ofNat value).toNat < 0xF8 then some 4
      else none := by decide +kernel
  have here := all ⟨byte.toNat, byte.toNat_lt⟩
  rw [UInt8.ofNat_toNat] at here
  exact here

-- A character is as long as its first byte says.
theorem width_word (head : UInt8) (rest : List UInt8) (form : Form (head :: rest)) : widthOf head = some (rest.length + 1) := by
  rw [width_ranges]
  cases form with
  | one head low => rw [if_pos low]; rfl
  | two head second range inner => rw [if_neg (by omega), if_neg (by omega), if_pos range.2]; rfl
  | three head second third range innerSecond innerThird =>
      rw [if_neg (by omega), if_neg (by omega), if_neg (by omega), if_pos range.2]
      rfl
  | four head second third fourth range innerSecond innerThird innerFourth =>
      rw [if_neg (by omega), if_neg (by omega), if_neg (by omega), if_neg (by omega), if_pos range.2]
      rfl

theorem width_four (byte : UInt8) (width : Nat) (found : widthOf byte = some width) : 0 < width ∧ width ≤ 4 := by
  rw [width_ranges] at found
  repeat' split at found
  all_goals cases found <;> omega

theorem lead_le (bytes : List UInt8) (from_ : Nat) : leadAt bytes from_ ≤ from_ := by
  induction from_ with
  | zero => exact Nat.le_refl 0
  | succ lead ih =>
      rw [leadAt]
      split
      · omega
      · exact Nat.le_refl _

-- The lead is no inner byte, unless it is the first of all.
theorem lead_outer (bytes : List UInt8) (from_ : Nat) : leadAt bytes from_ = 0 ∨ isInner (bytes.getD (leadAt bytes from_) 0) = false := by
  induction from_ with
  | zero => exact Or.inl rfl
  | succ lead ih =>
      rw [leadAt]
      split
      · exact ih
      · rename_i outer
        rw [continues_inner, Bool.not_eq_true] at outer
        exact Or.inr outer

-- Going back over inner bytes stops at the first that is none.
theorem lead_at (bytes : List UInt8) (start from_ : Nat) (outer : isInner (bytes.getD start 0) = false)
    (inner : ∀ index, start < index → index ≤ from_ → isInner (bytes.getD index 0) = true) (before : start ≤ from_) :
    leadAt bytes from_ = start := by
  induction from_ with
  | zero => rw [leadAt]; omega
  | succ lead ih =>
      rw [leadAt]
      by_cases here : start = lead + 1
      · rw [continues_inner, ← here, outer, if_neg Bool.false_ne_true]
      · rw [continues_inner, inner (lead + 1) (by omega) (Nat.le_refl _), if_pos rfl]
        exact ih (fun index after until_ => inner index after (by omega)) (by omega)

-- A character that goes on behind the bytes there are is seen at its first byte.
theorem lead_word (front tail behind : List UInt8) (char : Char) (some_ : tail ≠ []) (start : tail <+: utf8Code.word char) :
    leadAt (front ++ tail ++ behind) ((front ++ tail).length - 1) = front.length ∧
      widthOf ((front ++ tail ++ behind).getD front.length 0) = some (utf8Code.word char).length := by
  obtain ⟨head, rest, same, outer, inner⟩ := utf8Code.shape char
  have form : Form (utf8Code.word char) := word_form char
  rw [same] at start form
  obtain ⟨first, others, rfl⟩ := List.exists_cons_of_ne_nil some_
  obtain ⟨rfl, within⟩ := List.cons_prefix_cons.mp start
  have at_ : ∀ index, (front ++ first :: others ++ behind).getD (front.length + index) 0 = (first :: others ++ behind).getD index 0 := by
    intro index
    rw [List.append_assoc, List.getD_append_right _ _ _ _ (Nat.le_add_right _ _), Nat.add_sub_cancel_left]
  have lead := at_ 0
  rw [Nat.add_zero] at lead
  refine ⟨lead_at _ front.length _ ?_ ?_ ?_, ?_⟩
  · rw [lead]
    exact outer
  · intro index after until_
    obtain ⟨offset, rfl⟩ := Nat.exists_eq_add_of_lt after
    rw [List.length_append, List.length_cons] at until_
    rw [Nat.add_assoc, at_, List.cons_append, List.getD_cons_succ, List.getD_append _ _ _ _ (by omega)]
    have member : others.getD offset 0 ∈ others := by
      rw [List.getD_eq_getElem _ _ (by omega)]
      exact List.getElem_mem _
    exact inner _ (within.subset member)
  · rw [List.length_append, List.length_cons]
    omega
  · rw [lead, same]
    exact width_word first rest form

theorem prefix_end_le (bytes : List UInt8) (limit : Nat) : utf8PrefixEnd bytes limit ≤ min limit bytes.length := by
  unfold utf8PrefixEnd
  dsimp only
  have lead := lead_le bytes (min limit bytes.length - 1)
  split
  · exact Nat.le_refl _
  · split
    · exact Nat.le_refl _
    · split <;> omega

theorem prefix_end_cut (bytes back : List UInt8) (limit : Nat) :
    utf8Code.Cut (bytes.take (utf8PrefixEnd bytes limit)) (bytes.drop (utf8PrefixEnd bytes limit) ++ back) := by
  have nothing : ∀ more, utf8Code.Cut [] more := fun more tail letter some_ inside _ => absurd (List.suffix_nil.mp inside) some_
  -- Where no character starts that would go on behind it.
  have whole : ∀ stop, stop ≤ bytes.length → 0 < stop →
      (∀ width, widthOf (bytes.getD (leadAt bytes (stop - 1)) 0) = some width → leadAt bytes (stop - 1) + width ≤ stop) →
      utf8Code.Cut (bytes.take stop) (bytes.drop stop ++ back) := by
    intro stop inside positive fits tail char some_ within start
    by_cases short : (utf8Code.word char).length ≤ tail.length
    · exact List.prefix_of_prefix_length_le start (List.prefix_append _ _) short
    · exfalso
      have begins : tail <+: utf8Code.word char := List.prefix_of_prefix_length_le (List.prefix_append _ _) start (by omega)
      obtain ⟨front, same⟩ := within
      obtain ⟨lead, width⟩ := lead_word front tail (bytes.drop stop) char some_ begins
      have length : (front ++ tail).length = stop := by rw [same, List.length_take]; omega
      rw [length, same, List.take_append_drop] at lead
      rw [same, List.take_append_drop] at width
      have bound := fits (utf8Code.word char).length (by rw [lead]; exact width)
      rw [lead] at bound
      rw [List.length_append] at length
      omega
  unfold utf8PrefixEnd
  dsimp only
  by_cases none_ : min limit bytes.length = 0
  · rw [if_pos none_, none_, List.take_zero]
    exact nothing _
  · rw [if_neg none_]
    have lead := lead_le bytes (min limit bytes.length - 1)
    split
    · rename_i unknown
      exact whole _ (Nat.min_le_right _ _) (Nat.pos_of_ne_zero none_) (fun width found => by rw [unknown] at found; cases found)
    · rename_i width found
      split
      · rename_i fits
        refine whole _ (Nat.min_le_right _ _) (Nat.pos_of_ne_zero none_) (fun other same => ?_)
        rw [found] at same
        exact Option.some.inj same ▸ fits
      · rcases lead_outer bytes (min limit bytes.length - 1) with first | outer
        · rw [first, List.take_zero]
          exact nothing _
        · have inside : leadAt bytes (min limit bytes.length - 1) < bytes.length := by omega
          rw [List.drop_eq_getElem_cons inside, List.cons_append]
          rw [List.getD_eq_getElem _ _ inside] at outer
          exact utf8Code.cut_starts _ _ _ outer

-- The first character of the bytes is not held back.
theorem prefix_end_progress (bytes : List UInt8) (limit : Nat) (char : Char) (found : utf8Code.word char <+: bytes)
    (fits : (utf8Code.word char).length ≤ limit) : 0 < utf8PrefixEnd bytes limit := by
  have length := found.length_le
  have positive := List.length_pos_of_ne_nil (utf8Code.word_some char)
  obtain ⟨head, rest, same, outer, _⟩ := utf8Code.shape char
  have form : Form (utf8Code.word char) := word_form char
  have lead := lead_le bytes (min limit bytes.length - 1)
  unfold utf8PrefixEnd
  dsimp only
  rw [if_neg (by omega)]
  split
  · omega
  · rename_i width known
    split
    · omega
    · rename_i cut
      by_contra none_
      have first : leadAt bytes (min limit bytes.length - 1) = 0 := Nat.eq_zero_of_not_pos none_
      rw [first] at known cut
      obtain ⟨behind, rfl⟩ := found
      rw [same] at known form
      rw [List.cons_append, List.getD_cons_zero, width_word head rest form] at known
      have exact_ := Option.some.inj known
      have bytes_ : (utf8Code.word char ++ behind).length = (utf8Code.word char).length + behind.length := List.length_append
      rw [same, List.length_cons] at fits
      rw [same, List.length_cons] at bytes_
      rw [same] at cut
      omega

-- What is held back whole is shorter than a character can be.
theorem prefix_end_short (bytes : List UInt8) (limit : Nat) (none_ : utf8PrefixEnd bytes limit = 0) : min limit bytes.length < 4 := by
  have lead := lead_le bytes (min limit bytes.length - 1)
  unfold utf8PrefixEnd at none_
  dsimp only at none_
  split at none_
  · omega
  · split at none_
    · omega
    · rename_i width known
      obtain ⟨_, small⟩ := width_four _ width known
      split at none_ <;> omega

end prefixEnd

section readUtf8

-- The default decoder is not fatal and never fails.
def utf8Decode (simdutf : Simdutf) (bytes : List UInt8) : List UInt8 :=
  match (newDecoder .utf8 ⟨false, false⟩).oneShot simdutf bytes with
  | .ok text => text
  | .error _ => []

def leadingContinuationBytes (bytes : List UInt8) : Nat := (bytes.takeWhile continues).length

-- status, exitCode, signal and timedOut are the read's exit.
structure Utf8ReadResult where
  exit : ExitResult
  content : List UInt8
  contentStart : Nat
  nextCursor : Nat
  availableFrom : Nat
  dropped : Bool
  droppedBytes : Nat
  eof : Bool

-- A call between two reads.
structure Utf8Call where
  maxBytes : Nat
  rawOffset : Nat
  bytes : List UInt8
  contentStart : Nat
  dropped : Bool
  droppedBytes : Nat

def readUtf8 (offset maxBytes : Nat) : Utf8Call := ⟨maxBytes, offset, [], offset, false, 0⟩

def Utf8Call.requestedBytes (call : Utf8Call) : Nat := if call.bytes.isEmpty then call.maxBytes else 4

def Utf8Call.received (call : Utf8Call) (result : ReadResult) : Utf8Call where
  maxBytes := call.maxBytes
  rawOffset := result.next_offset
  bytes := (if result.dropped then [] else call.bytes) ++ result.data
  contentStart := if result.dropped || call.bytes.isEmpty then result.next_offset - result.data.length else call.contentStart
  dropped := call.dropped || result.dropped
  droppedBytes := if result.dropped then call.droppedBytes + result.dropped_bytes else call.droppedBytes

def Utf8Call.completeEnd (call : Utf8Call) (eof : Bool) : Nat :=
  if eof then call.bytes.length else utf8PrefixEnd call.bytes (min call.bytes.length call.maxBytes)

-- One turn of the loop, after its read.
def Utf8Call.turn (simdutf : Simdutf) (call : Utf8Call) (result : ReadResult) (remainingWait : Nat) (mayReadAgain : Bool) :
    Utf8ReadResult ⊕ Utf8Call :=
  let call := call.received result
  let leading := if call.dropped then leadingContinuationBytes call.bytes else 0
  let completeEnd := call.completeEnd result.eof
  if decide (leading < completeEnd) || result.eof || remainingWait == 0 || call.bytes.isEmpty || !mayReadAgain then
    let nextCursor := call.contentStart + completeEnd
    .inl
      { exit := result.exit
        content := utf8Decode simdutf ((call.bytes.take completeEnd).drop leading)
        contentStart := call.contentStart + leading
        nextCursor := nextCursor
        availableFrom := result.available_from + if call.dropped then leading else 0
        dropped := call.dropped
        droppedBytes := if call.dropped && decide (0 < leading) then call.droppedBytes + leading else call.droppedBytes
        eof := result.eof && decide (result.next_offset ≤ nextCursor) }
  else .inr call

-- A call that has returned: where it started, what the terminal had written by its last read, and the result.
structure CallRecord where
  offset : Nat
  stream : List UInt8
  result : Utf8ReadResult

-- The terminal; where the reader started and where its next call does; the call on its way, and those that returned.
structure ReadingRun where
  terminal : TerminalRun
  start : Nat
  cursor : Nat
  call : Option Utf8Call
  calls : List CallRecord

inductive ReadingEvent where
  | terminal (event : TerminalEvent)
  | seek (offset : Nat)
  | call (maxBytes : Nat)
  -- A read of the call on its way ends, with the time that was left before it and the answer of mayReadAgain.
  | read (remainingWait : Nat) (mayReadAgain : Bool)

def ReadingRun.next (simdutf : Simdutf) (run : ReadingRun) : ReadingEvent → ReadingRun
  | .terminal event => { run with terminal := run.terminal.next event }
  | .seek offset =>
      if run.calls.isEmpty && run.call.isNone && decide (offset ≤ run.terminal.state.produced_bytes) then
        { run with start := offset, cursor := offset }
      else run
  | .call maxBytes => if run.call.isNone && decide (4 ≤ maxBytes) then { run with call := some (readUtf8 run.cursor maxBytes) } else run
  | .read remainingWait mayReadAgain =>
      match run.call with
      | none => run
      | some call =>
          match call.turn simdutf (run.terminal.state.collect ⟨call.rawOffset, call.requestedBytes⟩) remainingWait mayReadAgain with
          | .inl result =>
              { run with call := none, cursor := result.nextCursor, calls := run.calls ++ [⟨run.cursor, run.terminal.stream, result⟩] }
          | .inr later => { run with call := some later }

def startedReading (max_buffer_bytes : Nat) (max_total_buffer_bytes : UInt64) : ReadingRun where
  terminal := startedTerminal max_buffer_bytes max_total_buffer_bytes
  start := 0
  cursor := 0
  call := none
  calls := []

-- Nothing is written after the device's end, and what a call has not read yet is all still there.
def Undropped (run : ReadingRun) : ReadingEvent → Prop
  | .terminal (.output _) => run.terminal.state.pty_eof = false
  | .read _ _ => ∀ call, run.call = some call → Retained run.terminal.state call.rawOffset
  | _ => True

-- No call but the first that covers anything starts at a byte order mark.
def Unmarked (run : ReadingRun) : ReadingEvent → Prop
  | .read _ _ => run.start < run.cursor → ¬[0xEF, 0xBB, 0xBF] <+: run.terminal.stream.drop run.cursor
  | _ => True

end readUtf8

section boundaries

-- No character of the stream starts before the offset and ends behind it, however the stream goes on.
def Boundary (stream : List UInt8) (ended : Bool) (start offset : Nat) : Prop :=
  start ≤ offset ∧ offset ≤ stream.length ∧
    ∀ more, (ended = true → more = []) → utf8Code.Cut (slice stream start (offset - start)) (stream.drop offset ++ more)

theorem boundary_grows (stream data : List UInt8) (ended ended' : Bool) (start offset : Nat)
    (boundary : Boundary stream ended start offset) (quiet : ended = true → data = []) (later : ended = true → ended' = true) :
    Boundary (stream ++ data) ended' start offset := by
  obtain ⟨before, inside, cut⟩ := boundary
  refine ⟨before, by rw [List.length_append]; omega, fun more end_ => ?_⟩
  rw [slice_grown stream data _ _ (by omega), List.drop_append_of_le_length inside, List.append_assoc]
  refine cut (data ++ more) fun stopped => ?_
  rw [quiet stopped, end_ (later stopped)]
  rfl

theorem boundary_start (stream : List UInt8) (ended : Bool) (start : Nat) (inside : start ≤ stream.length) :
    Boundary stream ended start start := by
  refine ⟨Nat.le_refl _, inside, fun more _ tail letter some_ within _ => ?_⟩
  rw [Nat.sub_self, slice_zero, List.suffix_nil] at within
  exact absurd within some_

-- A stretch that no character goes on behind.
theorem boundary_next (stream : List UInt8) (ended : Bool) (start offset count : Nat) (boundary : Boundary stream ended start offset)
    (inside : offset + count ≤ stream.length)
    (cut : ∀ more, (ended = true → more = []) → utf8Code.Cut (slice stream offset count) (stream.drop (offset + count) ++ more)) :
    Boundary stream ended start (offset + count) := by
  obtain ⟨before, _, cut_⟩ := boundary
  refine ⟨by omega, inside, fun more end_ => ?_⟩
  have joined := slice_append stream start (offset - start) count
  rw [Nat.add_sub_cancel' before] at joined
  rw [show offset + count - start = offset - start + count by omega, ← joined]
  refine utf8Code.cut_append _ _ _ ?_ (cut more end_)
  rw [← List.append_assoc, slice_behind]
  exact cut_ more end_

theorem boundary_scan (stream : List UInt8) (ended : Bool) (start offset count : Nat) (boundary : Boundary stream ended start offset) :
    utf8Code.Cut (slice stream start (offset - start)) (slice stream offset count) := by
  have cut := boundary.2.2 [] (fun _ => rfl)
  rw [List.append_nil] at cut
  have whole : slice stream offset count ++ (stream.drop offset).drop count = stream.drop offset := List.take_append_drop _ _
  refine utf8Code.cut_front _ _ ((stream.drop offset).drop count) ?_
  rw [whole]
  exact cut

end boundaries

section turns

variable (simdutf : Simdutf) (documented : Documented simdutf)

-- A call on its way has read a stretch of the stream that is too short to be told.
structure CallHolds (stream : List UInt8) (cursor : Nat) (call : Utf8Call) : Prop where
  four : 4 ≤ call.maxBytes
  clean : call.dropped = false
  at_ : call.contentStart = cursor
  reached : call.rawOffset = cursor + call.bytes.length
  inside : call.rawOffset ≤ stream.length
  bytes : call.bytes = slice stream cursor call.bytes.length
  short : call.bytes.length < 4

theorem call_grows (stream data : List UInt8) (cursor : Nat) (call : Utf8Call) (holds : CallHolds stream cursor call) :
    CallHolds (stream ++ data) cursor call := by
  have reached := holds.reached
  have inside := holds.inside
  refine ⟨holds.four, holds.clean, holds.at_, holds.reached, by rw [List.length_append]; omega, ?_, holds.short⟩
  rw [slice_grown stream data _ _ (by omega)]
  exact holds.bytes

-- What a call has after a read that dropped nothing.
theorem received_holds (stream : List UInt8) (others : Nat) (state : TerminalState) (budget : ProcessBudget)
    (keeps : Keeps stream others state budget) (cursor : Nat) (call : Utf8Call) (holds : CallHolds stream cursor call)
    (retained : Retained state call.rawOffset) :
    let result := state.collect ⟨call.rawOffset, call.requestedBytes⟩
    let received := call.received result
    received.maxBytes = call.maxBytes ∧ received.dropped = false ∧ received.contentStart = cursor ∧
      received.rawOffset = cursor + received.bytes.length ∧ received.rawOffset = result.next_offset ∧
      received.rawOffset ≤ stream.length ∧ received.bytes = slice stream cursor received.bytes.length ∧
      received.bytes.length = call.bytes.length + min call.requestedBytes (stream.length - call.rawOffset) := by
  intro result received
  have positive : 0 < call.requestedBytes := by
    have four := holds.four
    unfold Utf8Call.requestedBytes
    split <;> omega
  obtain ⟨data, next, dropped, _⟩ := collect_retained stream others state budget ⟨call.rawOffset, call.requestedBytes⟩ keeps
    holds.inside retained positive
  have inside := holds.inside
  have reached := holds.reached
  have length : result.data.length = min call.requestedBytes (stream.length - call.rawOffset) := by
    rw [data]
    exact slice_length stream _ _ (by dsimp only; omega)
  have bytes : received.bytes = call.bytes ++ result.data := by
    change (if result.dropped then [] else call.bytes) ++ result.data = _
    rw [dropped, if_neg Bool.false_ne_true]
  have count : received.bytes.length = call.bytes.length + min call.requestedBytes (stream.length - call.rawOffset) := by
    rw [bytes, List.length_append, length]
  have raw : received.rawOffset = call.rawOffset + min call.requestedBytes (stream.length - call.rawOffset) := next
  refine ⟨rfl, ?_, ?_, by omega, rfl, by omega, ?_, count⟩
  · change (call.dropped || result.dropped) = false
    rw [holds.clean, dropped]
    rfl
  · change (if result.dropped || call.bytes.isEmpty then result.next_offset - result.data.length else call.contentStart) = cursor
    rw [dropped, Bool.false_or]
    split
    · rename_i empty
      rw [List.isEmpty_iff] at empty
      rw [empty, List.length_nil] at reached
      rw [next, length]
      dsimp only
      omega
    · exact holds.at_
  · rw [count, bytes, ← slice_append, ← holds.bytes, ← reached]
    exact congrArg (call.bytes ++ ·) data

theorem complete_le (call : Utf8Call) (eof : Bool) : call.completeEnd eof ≤ call.bytes.length := by
  have bound := prefix_end_le call.bytes (min call.bytes.length call.maxBytes)
  unfold Utf8Call.completeEnd
  split <;> omega

theorem turn_returns (call : Utf8Call) (result : ReadResult) (remainingWait : Nat) (mayReadAgain : Bool) (answer : Utf8ReadResult)
    (clean : (call.received result).dropped = false)
    (returned : call.turn simdutf result remainingWait mayReadAgain = .inl answer) :
    answer.nextCursor = (call.received result).contentStart + (call.received result).completeEnd result.eof ∧
      answer.content = utf8Decode simdutf ((call.received result).bytes.take ((call.received result).completeEnd result.eof)) ∧
      (answer.eof = true → result.eof = true) := by
  simp only [Utf8Call.turn, clean, Bool.false_eq_true, if_false, List.drop_zero, Nat.add_zero] at returned
  split at returned
  · have same := Sum.inl.inj returned
    rw [← same]
    refine ⟨rfl, rfl, fun eof => ?_⟩
    rw [Bool.and_eq_true] at eof
    exact eof.1
  · cases returned

theorem turn_waits (call later : Utf8Call) (result : ReadResult) (remainingWait : Nat) (mayReadAgain : Bool)
    (clean : (call.received result).dropped = false)
    (waits : call.turn simdutf result remainingWait mayReadAgain = .inr later) :
    later = call.received result ∧ (call.received result).completeEnd false = 0 := by
  simp only [Utf8Call.turn, clean, Bool.false_eq_true, if_false, List.drop_zero, Nat.add_zero] at waits
  split at waits
  · cases waits
  · rename_i goes_on
    simp only [Bool.or_eq_true, decide_eq_true_iff, not_or] at goes_on
    obtain ⟨⟨⟨⟨nothing, open_⟩, _⟩, _⟩, _⟩ := goes_on
    rw [Bool.not_eq_true] at open_
    rw [open_] at nothing
    exact ⟨(Sum.inr.inj waits).symm, Nat.eq_zero_of_not_pos nothing⟩

theorem word_four (char : Char) : (utf8Code.word char).length ≤ 4 := by
  change (String.utf8EncodeChar char).length ≤ 4
  rw [String.length_utf8EncodeChar]
  exact Char.utf8Size_le_four char

-- What a call returns when nothing is dropped: a stretch that ends at a boundary, with some of it if there is a character.
theorem returned_stretch (stream : List UInt8) (ended : Bool) (cursor : Nat) (call : Utf8Call) (eof : Bool) (four : 4 ≤ call.maxBytes)
    (bytes : call.bytes = slice stream cursor call.bytes.length) (inside : cursor + call.bytes.length ≤ stream.length)
    (enough : call.bytes.length = stream.length - cursor ∨ 4 ≤ call.bytes.length)
    (stops : eof = true → cursor + call.bytes.length = stream.length ∧ ended = true) :
    (∀ more, (ended = true → more = []) →
        utf8Code.Cut (slice stream cursor (call.completeEnd eof)) (stream.drop (cursor + call.completeEnd eof) ++ more)) ∧
      ((∃ char, utf8Code.word char <+: stream.drop cursor) → 0 < call.completeEnd eof) := by
  have bound := complete_le call eof
  have front := slice_take stream cursor call.bytes.length _ bound
  rw [← bytes] at front
  have behind := slice_drop stream cursor call.bytes.length (call.completeEnd eof)
  rw [← bytes] at behind
  have rest : call.bytes.drop (call.completeEnd eof) ++ stream.drop (cursor + call.bytes.length) = stream.drop (cursor + call.completeEnd eof) := by
    have whole := slice_behind stream (cursor + call.completeEnd eof) (call.bytes.length - call.completeEnd eof)
    rw [Nat.add_assoc, Nat.add_sub_cancel' bound] at whole
    rw [behind, whole]
  refine ⟨fun more end_ => ?_, ?_⟩
  · cases eof with
    | true =>
        obtain ⟨all, ended_⟩ := stops rfl
        have last : stream.drop (cursor + call.completeEnd true) = [] := List.drop_eq_nil_of_le (by rw [Utf8Call.completeEnd, if_pos rfl]; omega)
        rw [end_ ended_, last, List.append_nil]
        intro tail letter _ _ start
        rw [List.append_nil] at start
        exact start
    | false =>
        rw [← front, ← rest, List.append_assoc]
        exact prefix_end_cut call.bytes _ _
  · rintro ⟨char, found⟩
    have positive := List.length_pos_of_ne_nil (utf8Code.word_some char)
    have small := word_four char
    have length := found.length_le
    rw [List.length_drop] at length
    cases eof with
    | true =>
        obtain ⟨all, _⟩ := stops rfl
        rw [Utf8Call.completeEnd, if_pos rfl]
        omega
    | false =>
        have here : call.bytes <+: stream.drop cursor := by
          rw [bytes, slice]
          exact List.take_prefix _ _
        have first : utf8Code.word char <+: call.bytes := List.prefix_of_prefix_length_le found here (by omega)
        rw [Utf8Call.completeEnd, if_neg Bool.false_ne_true]
        exact prefix_end_progress call.bytes _ char first (by omega)

end turns

section decoding

variable (simdutf : Simdutf) (documented : Documented simdutf)

include documented

theorem utf8_decode (bytes : List UInt8) :
    utf8Decode simdutf bytes = utf8Code.words (lettersOf (utf8Code.scan (bytes.drop (skipped .utf8 false bytes)))) := by
  rw [utf8Decode, decoded_once simdutf documented .utf8 ⟨false, false⟩ bytes, render, if_neg (by simp)]
  rfl

omit documented in
theorem skipped_mark (bytes : List UInt8) : skipped .utf8 false bytes = if [0xEF, 0xBB, 0xBF] <+: bytes then 3 else 0 := by
  rw [skipped]
  by_cases found : [0xEF, 0xBB, 0xBF] <+: bytes
  · rw [if_pos found, if_pos ⟨rfl, (bom_utf8 bytes).mpr found⟩]
    rfl
  · rw [if_neg found, if_neg (fun both => found ((bom_utf8 bytes).mp both.2))]

-- Two stretches with no character across, of which the second starts with no mark, are decoded apart as together.
theorem decode_append (front back : List UInt8) (some_ : front ≠ []) (cut : utf8Code.Cut front back)
    (unmarked : ¬[0xEF, 0xBB, 0xBF] <+: back) :
    utf8Decode simdutf (front ++ back) = utf8Decode simdutf front ++ utf8Decode simdutf back := by
  have mark : utf8Code.word (Char.ofNat 0xFEFF) = [0xEF, 0xBB, 0xBF] := by decide
  have grows : [0xEF, 0xBB, 0xBF] <+: front ++ back ↔ [0xEF, 0xBB, 0xBF] <+: front := by
    refine ⟨fun start => ?_, fun start => start.trans (List.prefix_append _ _)⟩
    rw [← mark] at start ⊢
    exact cut front (Char.ofNat 0xFEFF) some_ List.suffix_rfl start
  have same : skipped .utf8 false (front ++ back) = skipped .utf8 false front := by
    rw [skipped_mark, skipped_mark]
    simp only [grows]
  have bound : skipped .utf8 false front ≤ front.length := by
    rw [skipped_mark]
    split
    · rename_i start
      exact start.length_le
    · exact Nat.zero_le _
  have none_ : skipped .utf8 false back = 0 := by rw [skipped_mark, if_neg unmarked]
  rw [utf8_decode simdutf documented, utf8_decode simdutf documented, utf8_decode simdutf documented, same, none_, List.drop_zero,
    List.drop_append_of_le_length bound, utf8Code.scan_cut _ back (utf8Code.cut_suffix front _ back (List.drop_suffix _ _) cut), letters_append,
    Code.words_append]

theorem decode_nil : utf8Decode simdutf [] = [] := by
  rw [utf8_decode simdutf documented, List.drop_nil]
  rfl

end decoding

section runs

-- A call that has returned ends at a boundary of the stream, got ahead if there was a character for it, and reported
-- the end at the end only.
structure WholeCall (stream : List UInt8) (ended : Bool) (start : Nat) (record : CallRecord) : Prop where
  boundary : Boundary stream ended start record.result.nextCursor
  progress : (∃ char, utf8Code.word char <+: record.stream.drop record.offset) → record.offset < record.result.nextCursor
  eof : record.result.eof = true → record.result.nextCursor = stream.length ∧ ended = true

structure ReadsKeep (max_buffer_bytes : Nat) (run : ReadingRun) : Prop where
  native : RunKeeps max_buffer_bytes run.terminal
  cursor : Boundary run.terminal.stream run.terminal.state.pty_eof run.start run.cursor
  call : ∀ call, run.call = some call → CallHolds run.terminal.stream run.cursor call
  calls : ∀ record ∈ run.calls, WholeCall run.terminal.stream run.terminal.state.pty_eof run.start record

def ReadingRun.contents (run : ReadingRun) : List UInt8 := run.calls.flatMap fun record => record.result.content

def ReadingRun.covered (run : ReadingRun) : List UInt8 := slice run.terminal.stream run.start (run.cursor - run.start)

theorem terminal_grows (terminal : TerminalRun) (event : TerminalEvent)
    (quiet : ∀ data, event = .output data → terminal.state.pty_eof = false) :
    ∃ data, (terminal.next event).stream = terminal.stream ++ data ∧ (terminal.state.pty_eof = true → data = []) ∧
      (terminal.state.pty_eof = true → (terminal.next event).state.pty_eof = true) := by
  have same : ∀ state : TerminalState, state.try_finish.pty_eof = state.pty_eof := by
    intro state
    rw [finish_frame]
  cases event with
  | output data =>
      have open_ := quiet data rfl
      refine ⟨if terminal.drained then [] else data, ?_, fun ended => ?_, fun ended => ?_⟩
      · unfold TerminalRun.next
        dsimp only
        split <;> simp
      · rw [open_] at ended
        cases ended
      · rw [open_] at ended
        cases ended
  | deviceEnd => exact ⟨[], (List.append_nil _).symm, fun _ => rfl, fun _ => same _⟩
  | exit code signal => exact ⟨[], (List.append_nil _).symm, fun _ => rfl, fun ended => (same _).trans ended⟩
  | timeout =>
      refine ⟨[], ?_, fun _ => rfl, fun ended => ?_⟩
      · unfold TerminalRun.next
        dsimp only
        split <;> simp
      · unfold TerminalRun.next
        dsimp only
        split
        · exact ended
        · exact same _
  | close => exact ⟨[], (List.append_nil _).symm, fun _ => rfl, fun _ => same _⟩
  | seek offset =>
      refine ⟨[], ?_, fun _ => rfl, fun ended => ?_⟩
      · unfold TerminalRun.next
        dsimp only
        split <;> simp
      · unfold TerminalRun.next
        dsimp only
        split <;> exact ended
  | read max_bytes => exact ⟨[], (List.append_nil _).symm, fun _ => rfl, id⟩
  | charge n => exact ⟨[], (List.append_nil _).symm, fun _ => rfl, id⟩
  | release n => exact ⟨[], (List.append_nil _).symm, fun _ => rfl, id⟩

theorem native_keeps (max_buffer_bytes : Nat) (run : ReadingRun) (event : TerminalEvent) (kept : ReadsKeep max_buffer_bytes run)
    (quiet : ∀ data, event = .output data → run.terminal.state.pty_eof = false) :
    ReadsKeep max_buffer_bytes { run with terminal := run.terminal.next event } := by
  obtain ⟨data, same, silent, later⟩ := terminal_grows run.terminal event quiet
  refine ⟨next_keeps max_buffer_bytes run.terminal event kept.native, ?_, ?_, ?_⟩
  · dsimp only
    rw [same]
    exact boundary_grows _ data _ _ _ _ kept.cursor silent later
  · dsimp only
    rw [same]
    exact fun call some_ => call_grows _ data _ call (kept.call call some_)
  · dsimp only
    rw [same]
    intro record member
    have whole := kept.calls record member
    refine ⟨boundary_grows _ data _ _ _ _ whole.boundary silent later, whole.progress, fun eof => ?_⟩
    obtain ⟨reached, ended⟩ := whole.eof eof
    rw [silent ended, List.append_nil]
    exact ⟨reached, later ended⟩

theorem read_returns (simdutf : Simdutf) (max_buffer_bytes : Nat) (run : ReadingRun) (call : Utf8Call) (remainingWait : Nat)
    (mayReadAgain : Bool) (answer : Utf8ReadResult) (kept : ReadsKeep max_buffer_bytes run) (some_ : run.call = some call)
    (retained : Retained run.terminal.state call.rawOffset)
    (returned : call.turn simdutf (run.terminal.state.collect ⟨call.rawOffset, call.requestedBytes⟩) remainingWait mayReadAgain =
      .inl answer) :
    ∃ count, answer.nextCursor = run.cursor + count ∧ answer.content = utf8Decode simdutf (slice run.terminal.stream run.cursor count) ∧
      WholeCall run.terminal.stream run.terminal.state.pty_eof run.start ⟨run.cursor, run.terminal.stream, answer⟩ := by
  have holds := kept.call call some_
  obtain ⟨max_, clean, at_, reached, next, inside, bytes, length⟩ := received_holds run.terminal.stream run.terminal.others
    run.terminal.state run.terminal.budget kept.native.keeps run.cursor call holds retained
  obtain ⟨_, _, _, _, eof⟩ := collect_faithful run.terminal.stream run.terminal.others run.terminal.state run.terminal.budget
    ⟨call.rawOffset, call.requestedBytes⟩ kept.native.keeps holds.inside
  obtain ⟨cursor, content, reported⟩ := turn_returns simdutf call _ remainingWait mayReadAgain answer clean returned
  have four := holds.four
  have enough : (call.received (run.terminal.state.collect ⟨call.rawOffset, call.requestedBytes⟩)).bytes.length =
      run.terminal.stream.length - run.cursor ∨
      4 ≤ (call.received (run.terminal.state.collect ⟨call.rawOffset, call.requestedBytes⟩)).bytes.length := by
    have requested : 4 ≤ call.requestedBytes := by
      unfold Utf8Call.requestedBytes
      split <;> omega
    have raw := holds.reached
    omega
  generalize run.terminal.state.collect ⟨call.rawOffset, call.requestedBytes⟩ = result at *
  have stops : result.eof = true → run.cursor + (call.received result).bytes.length = run.terminal.stream.length ∧
      run.terminal.state.pty_eof = true := by
    intro end_
    obtain ⟨finished, all⟩ := eof.mp end_
    exact ⟨by omega, (kept.native.ended finished).2⟩
  obtain ⟨cut, progress⟩ := returned_stretch run.terminal.stream run.terminal.state.pty_eof run.cursor (call.received result) result.eof
    (by omega) bytes (by omega) enough stops
  have bound := complete_le (call.received result) result.eof
  rw [at_] at cursor
  refine ⟨(call.received result).completeEnd result.eof, cursor, ?_, ?_, ?_, ?_⟩
  · rw [content]
    congr 1
    have front := slice_take run.terminal.stream run.cursor (call.received result).bytes.length _ bound
    rw [← bytes] at front
    exact front
  · dsimp only
    rw [cursor]
    exact boundary_next _ _ _ _ _ kept.cursor (by omega) cut
  · intro found
    have ahead := progress found
    dsimp only
    omega
  · intro end_
    have result_ := reported end_
    obtain ⟨all, ended⟩ := stops result_
    dsimp only
    rw [cursor, result_, Utf8Call.completeEnd, if_pos rfl]
    exact ⟨all, ended⟩

theorem read_waits (simdutf : Simdutf) (max_buffer_bytes : Nat) (run : ReadingRun) (call later : Utf8Call) (remainingWait : Nat)
    (mayReadAgain : Bool) (kept : ReadsKeep max_buffer_bytes run) (some_ : run.call = some call)
    (retained : Retained run.terminal.state call.rawOffset)
    (waits : call.turn simdutf (run.terminal.state.collect ⟨call.rawOffset, call.requestedBytes⟩) remainingWait mayReadAgain =
      .inr later) : CallHolds run.terminal.stream run.cursor later := by
  have holds := kept.call call some_
  obtain ⟨max_, clean, at_, reached, next, inside, bytes, length⟩ := received_holds run.terminal.stream run.terminal.others
    run.terminal.state run.terminal.budget kept.native.keeps run.cursor call holds retained
  obtain ⟨rfl, nothing⟩ := turn_waits simdutf call later _ remainingWait mayReadAgain clean waits
  have four := holds.four
  rw [Utf8Call.completeEnd, if_neg Bool.false_ne_true] at nothing
  have short := prefix_end_short _ _ nothing
  exact ⟨by omega, clean, at_, reached, inside, bytes, by omega⟩

theorem reads_next (simdutf : Simdutf) (max_buffer_bytes : Nat) (run : ReadingRun) (event : ReadingEvent)
    (kept : ReadsKeep max_buffer_bytes run) (undropped : Undropped run event) : ReadsKeep max_buffer_bytes (run.next simdutf event) := by
  cases event with
  | terminal event =>
      refine native_keeps max_buffer_bytes run event kept ?_
      rintro data rfl
      exact undropped
  | seek offset =>
      simp only [ReadingRun.next]
      split
      · rename_i fresh
        rw [Bool.and_eq_true, Bool.and_eq_true, List.isEmpty_iff, Option.isNone_iff_eq_none, decide_eq_true_iff] at fresh
        obtain ⟨⟨none_, idle⟩, inside⟩ := fresh
        rw [kept.native.keeps.produced] at inside
        refine ⟨kept.native, boundary_start _ _ offset inside, ?_, ?_⟩
        · intro call some_
          rw [idle] at some_
          cases some_
        · intro record member
          rw [none_] at member
          cases member
      · exact kept
  | call maxBytes =>
      simp only [ReadingRun.next]
      split
      · rename_i fresh
        rw [Bool.and_eq_true, decide_eq_true_iff] at fresh
        refine ⟨kept.native, kept.cursor, ?_, kept.calls⟩
        intro call some_
        cases some_
        exact ⟨fresh.2, rfl, rfl, rfl, kept.cursor.2.1, (slice_zero _ _).symm, Nat.zero_lt_succ 3⟩
      · exact kept
  | read remainingWait mayReadAgain =>
      simp only [ReadingRun.next]
      cases some_ : run.call with
      | none => exact kept
      | some call =>
          have retained := undropped call some_
          dsimp only
          cases turned : call.turn simdutf (run.terminal.state.collect ⟨call.rawOffset, call.requestedBytes⟩) remainingWait mayReadAgain with
          | inl answer =>
              obtain ⟨count, cursor, _, whole⟩ := read_returns simdutf max_buffer_bytes run call remainingWait mayReadAgain answer kept
                some_ retained turned
              refine ⟨kept.native, whole.boundary, ?_, ?_⟩
              · intro other none_
                cases none_
              · intro record member
                rcases List.mem_append.mp member with old | new
                · exact kept.calls record old
                · exact List.mem_singleton.mp new ▸ whole
          | inr later =>
              refine ⟨kept.native, kept.cursor, ?_, kept.calls⟩
              intro other same
              cases same
              exact read_waits simdutf max_buffer_bytes run call later remainingWait mayReadAgain kept some_ retained turned

theorem contents_next (simdutf : Simdutf) (documented : Documented simdutf) (max_buffer_bytes : Nat) (run : ReadingRun)
    (event : ReadingEvent) (kept : ReadsKeep max_buffer_bytes run) (undropped : Undropped run event) (unmarked : Unmarked run event)
    (same : run.contents = utf8Decode simdutf run.covered) :
    (run.next simdutf event).contents = utf8Decode simdutf (run.next simdutf event).covered := by
  obtain ⟨before, inside, _⟩ := kept.cursor
  cases event with
  | terminal event =>
      obtain ⟨data, grown, _, _⟩ := terminal_grows run.terminal event (by rintro data rfl; exact undropped)
      have covered : (run.next simdutf (.terminal event)).covered = run.covered := by
        change slice (run.terminal.next event).stream run.start (run.cursor - run.start) = _
        rw [grown, slice_grown _ _ _ _ (by omega)]
        rfl
      rw [covered]
      exact same
  | seek offset =>
      simp only [ReadingRun.next]
      split
      · rename_i fresh
        rw [Bool.and_eq_true, Bool.and_eq_true, List.isEmpty_iff] at fresh
        rw [ReadingRun.contents, ReadingRun.covered]
        dsimp only
        rw [fresh.1.1, Nat.sub_self, slice_zero, decode_nil simdutf documented]
        rfl
      · exact same
  | call maxBytes =>
      simp only [ReadingRun.next]
      split <;> exact same
  | read remainingWait mayReadAgain =>
      simp only [ReadingRun.next]
      cases some_ : run.call with
      | none => exact same
      | some call =>
          have retained := undropped call some_
          dsimp only
          cases turned : call.turn simdutf (run.terminal.state.collect ⟨call.rawOffset, call.requestedBytes⟩) remainingWait mayReadAgain with
          | inr later => exact same
          | inl answer =>
              obtain ⟨count, cursor, content, _⟩ := read_returns simdutf max_buffer_bytes run call remainingWait mayReadAgain answer kept
                some_ retained turned
              rw [ReadingRun.contents, ReadingRun.covered]
              dsimp only
              rw [List.flatMap_append, List.flatMap_singleton, ← ReadingRun.contents, same, content, cursor]
              by_cases first : run.start = run.cursor
              · rw [ReadingRun.covered, first, Nat.sub_self, slice_zero, decode_nil simdutf documented, Nat.add_sub_cancel_left]
                rfl
              · have joined := slice_append run.terminal.stream run.start (run.cursor - run.start) count
                rw [Nat.add_sub_cancel' before] at joined
                have some__ : run.covered ≠ [] := by
                  have length := slice_length run.terminal.stream run.start (run.cursor - run.start) (by omega)
                  exact List.ne_nil_of_length_pos (by rw [ReadingRun.covered, length]; omega)
                rw [show run.cursor + count - run.start = run.cursor - run.start + count by omega, ← joined]
                refine (decode_append simdutf documented _ _ some__ (boundary_scan _ _ _ _ count kept.cursor) ?_).symm
                exact fun mark => unmarked (by omega) (mark.trans (List.take_prefix _ _))

theorem reads_start (max_buffer_bytes : Nat) (max_total_buffer_bytes : UInt64) :
    ReadsKeep max_buffer_bytes (startedReading max_buffer_bytes max_total_buffer_bytes) := by
  refine ⟨started_keeps max_buffer_bytes max_total_buffer_bytes, boundary_start _ _ 0 (Nat.zero_le _), ?_, ?_⟩
  · intro call some_
    cases some_
  · intro record member
    cases member

-- Over any run in which nothing is dropped and no later call starts at a byte order mark.
theorem utf8_reads (simdutf : Simdutf) (documented : Documented simdutf) (max_buffer_bytes : Nat) (max_total_buffer_bytes : UInt64)
    (events : List ReadingEvent)
    (along : Along (ReadingRun.next simdutf) (fun run event => Undropped run event ∧ Unmarked run event)
      (startedReading max_buffer_bytes max_total_buffer_bytes) events) :
    let run := runFrom (ReadingRun.next simdutf) (startedReading max_buffer_bytes max_total_buffer_bytes) events
    run.contents = utf8Decode simdutf run.covered ∧
      ∀ record ∈ run.calls, WholeCall run.terminal.stream run.terminal.state.pty_eof run.start record := by
  have kept := along_keeps (ReadingRun.next simdutf) (fun run event => Undropped run event ∧ Unmarked run event)
    (fun run => ReadsKeep max_buffer_bytes run ∧ run.contents = utf8Decode simdutf run.covered)
    (fun run event holds guards => ⟨reads_next simdutf max_buffer_bytes run event holds.1 guards.1,
      contents_next simdutf documented max_buffer_bytes run event holds.1 guards.1 guards.2 holds.2⟩)
    (startedReading max_buffer_bytes max_total_buffer_bytes) events
    ⟨reads_start max_buffer_bytes max_total_buffer_bytes, (decode_nil simdutf documented).symm⟩ along
  exact ⟨kept.2, kept.1.calls⟩

instance decidableGapless : ∀ (start : Nat) (chunks : List Chunk) (stop : Nat), Decidable (Gapless start chunks stop)
  | start, [], stop => inferInstanceAs (Decidable (start = stop))
  | start, chunk :: rest, stop =>
      have := decidableGapless (start + chunk.data.length) rest stop
      inferInstanceAs (Decidable (chunk.offset = start ∧ Gapless (start + chunk.data.length) rest stop))

theorem retained_from (state : TerminalState) (offset : Nat) :
    state.available_from ≤ offset ∧ Gapless state.available_from state.chunks state.produced_bytes ↔ Retained state offset := by
  refine ⟨fun both => ⟨state.available_from, both⟩, ?_⟩
  rintro ⟨start, before, gapless⟩
  have same : state.available_from = start := by
    unfold TerminalState.available_from
    split
    · rename_i none_
      rw [none_] at gapless
      exact gapless.symm
    · rename_i front rest some_
      rw [some_] at gapless
      exact gapless.1
  rw [same]
  exact ⟨before, gapless⟩

instance decidableRetained (state : TerminalState) (offset : Nat) : Decidable (Retained state offset) :=
  decidable_of_iff _ (retained_from state offset)

instance decidableUndropped (run : ReadingRun) : ∀ event, Decidable (Undropped run event)
  | .terminal (.output _) => inferInstanceAs (Decidable (run.terminal.state.pty_eof = false))
  | .terminal .deviceEnd | .terminal (.exit _ _) | .terminal .timeout | .terminal .close | .terminal (.seek _) | .terminal (.read _)
  | .terminal (.charge _) | .terminal (.release _) | .seek _ | .call _ => .isTrue trivial
  | .read _ _ =>
      match some_ : run.call with
      | none => .isTrue fun call same => by rw [some_] at same; cases same
      | some call => decidable_of_iff (Retained run.terminal.state call.rawOffset)
          ⟨fun here other same => by rw [some_] at same; cases same; exact here, fun all => all call some_⟩

instance decidableUnmarked (run : ReadingRun) : ∀ event, Decidable (Unmarked run event)
  | .read _ _ => inferInstanceAs (Decidable (run.start < run.cursor → ¬[0xEF, 0xBB, 0xBF] <+: run.terminal.stream.drop run.cursor))
  | .terminal _ | .seek _ | .call _ => .isTrue trivial

-- The bytes of € arrive one by one and a after them; the device ends in the middle of another €.
theorem utf8_reads_euro :
    let run := runFrom (ReadingRun.next reference) (startedReading 64 1024)
      [.terminal (.output [0xE2]), .call 4, .read 10 true, .terminal (.output [0x82]), .read 5 true, .terminal (.output [0xAC, 0x61, 0xE2]),
        .read 3 true, .terminal .deviceEnd, .terminal (.exit 0 0), .call 4, .read 0 true]
    run.contents = [0xE2, 0x82, 0xAC, 0x61, 0xEF, 0xBF, 0xBD] ∧ run.contents = utf8Decode reference run.covered ∧
      ∀ record ∈ run.calls, WholeCall run.terminal.stream run.terminal.state.pty_eof run.start record := by
  intro run
  refine ⟨by decide, utf8_reads reference reference_documented 64 1024 _ ?_⟩
  decide

-- abcd and then U+FEFF: the second call returns no text for its three bytes.
theorem later_mark_lost :
    (let run := runFrom (ReadingRun.next reference) (startedReading 64 1024)
      [.terminal (.output [0x61, 0x62, 0x63, 0x64, 0xEF, 0xBB, 0xBF]), .call 4, .read 0 true, .call 4, .read 0 true]
    run.covered = [0x61, 0x62, 0x63, 0x64, 0xEF, 0xBB, 0xBF] ∧ run.contents = [0x61, 0x62, 0x63, 0x64] ∧
      utf8Decode reference run.covered = [0x61, 0x62, 0x63, 0x64, 0xEF, 0xBB, 0xBF]) ∧
    ¬∀ (simdutf : Simdutf), Documented simdutf → ∀ (max_buffer_bytes : Nat) (max_total_buffer_bytes : UInt64) (events : List ReadingEvent),
      Along (ReadingRun.next simdutf) Undropped (startedReading max_buffer_bytes max_total_buffer_bytes) events →
        (runFrom (ReadingRun.next simdutf) (startedReading max_buffer_bytes max_total_buffer_bytes) events).contents =
          utf8Decode simdutf
            (runFrom (ReadingRun.next simdutf) (startedReading max_buffer_bytes max_total_buffer_bytes) events).covered := by
  refine ⟨by decide, fun always => ?_⟩
  have same := always reference reference_documented 64 1024
    [.terminal (.output [0x61, 0x62, 0x63, 0x64, 0xEF, 0xBB, 0xBF]), .call 4, .read 0 true, .call 4, .read 0 true] (by decide)
  exact absurd same (by decide)

end runs

end Vacps.TerminalSessions
