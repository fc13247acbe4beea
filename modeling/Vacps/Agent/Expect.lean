import Vacps.Agent.LogPages
import Vacps.Agent.TerminalSessions
import Vacps.Library.Occurrences

/- expect of script/src/runtime/terminal-sessions.ts in literal mode, over the calls of readUtf8. -/
set_option autoImplicit false

namespace Vacps.TerminalSessions

open Library Library.Utf8 Library.Utf16 Vacps.Native
open Vacps.Server (utf8ByteSlice)

section expect

def EXPECT_WINDOW_MAX_BYTES : Nat := 16 * 1024 * 1024

def EXPECT_READ_BYTES : Nat := 1048576

-- The string that TextDecoder returns, from its UTF-8.
def stringOf (content : List UInt8) : Units := (decode content).getD []

def utf8ByteLengthOfString (s : Units) : Nat := (encode s).length

structure ExpectMatch where
  index : Nat
  text : Units

def findExpectation (pattern text : Units) : Option ExpectMatch := (indexOf pattern text).map fun index => ⟨index, pattern⟩

def trimExpectationWindow (simdutf : Simdutf) (text : Units) (scanBase : Nat) : Units × Nat :=
  let bytes := utf8ByteLengthOfString text
  if bytes ≤ EXPECT_WINDOW_MAX_BYTES then (text, scanBase)
  else
    let slice := utf8ByteSlice simdutf (Utf16.text text) (bytes - EXPECT_WINDOW_MAX_BYTES : Nat) bytes
    (stringOf slice.content, scanBase + slice.start)

structure TerminalSnapshot where
  status : TerminalStatus
  nextOffset : Nat

-- The session's state is whether it is closing.
structure ExpectResult where
  closing : Bool
  exit : ExitResult
  matched : Bool
  found : Option Units
  start_cursor : Option Nat
  end_cursor : Option Nat
  next_cursor : Nat
  available_from : Nat
  dropped : Bool
  dropped_bytes : Nat
  eof : Bool
  timeout : Bool
deriving DecidableEq

-- What a turn of the loop leaves to the next.
structure ExpectCall where
  pattern : Units
  cursor : Nat
  scanBase : Nat
  text : Units
  dropped : Bool
  droppedBytes : Nat
  availableFrom : Nat
  processExitBoundary : Option Nat
  timeoutBoundary : Option Nat

def expect (pattern : Units) (cursor : Nat) : ExpectCall := ⟨pattern, cursor, cursor, [], false, 0, cursor, none, none⟩

-- A boundary is set once.
def boundaryAt (reached : Bool) (boundary : Option Nat) (nextOffset : Nat) : Option Nat :=
  if reached && boundary.isNone then some nextOffset else boundary

def ExpectCall.beforeRead (call : ExpectCall) (snapshot : TerminalSnapshot) : ExpectCall :=
  { call with
    processExitBoundary := boundaryAt (decide (snapshot.status ≠ .Running)) call.processExitBoundary snapshot.nextOffset }

def ExpectCall.afterRead (call : ExpectCall) (result : Utf8ReadResult) (snapshot : TerminalSnapshot) (expired : Bool) : ExpectCall where
  pattern := call.pattern
  cursor := call.cursor
  scanBase := if result.dropped || call.text.isEmpty then result.contentStart else call.scanBase
  text := (if result.dropped then [] else call.text) ++ stringOf result.content
  dropped := call.dropped || result.dropped
  droppedBytes := if result.dropped then call.droppedBytes + result.droppedBytes else call.droppedBytes
  availableFrom := result.availableFrom
  processExitBoundary := boundaryAt (decide (result.exit.status ≠ .Running)) call.processExitBoundary snapshot.nextOffset
  timeoutBoundary := boundaryAt expired call.timeoutBoundary snapshot.nextOffset

def ExpectCall.matching (call : ExpectCall) (result : Utf8ReadResult) (closing : Bool) (found : ExpectMatch) : ExpectResult :=
  let startCursor := call.scanBase + utf8ByteLengthOfString (call.text.take found.index)
  let endCursor := startCursor + utf8ByteLengthOfString found.text
  { closing := closing
    exit := result.exit
    matched := true
    found := some found.text
    start_cursor := some startCursor
    end_cursor := some endCursor
    next_cursor := endCursor
    available_from := call.availableFrom
    dropped := call.dropped
    dropped_bytes := call.droppedBytes
    eof := result.eof
    timeout := false }

def ExpectCall.unmatched (call : ExpectCall) (result : Utf8ReadResult) (closing timeout : Bool) : ExpectResult where
  closing := closing
  exit := result.exit
  matched := false
  found := none
  start_cursor := none
  end_cursor := none
  next_cursor := call.cursor
  available_from := call.availableFrom
  dropped := call.dropped
  dropped_bytes := call.droppedBytes
  eof := result.eof
  timeout := timeout

def ExpectCall.trimmed (simdutf : Simdutf) (call : ExpectCall) (nextCursor : Nat) : ExpectCall :=
  { call with
    text := (trimExpectationWindow simdutf call.text call.scanBase).1
    scanBase := (trimExpectationWindow simdutf call.text call.scanBase).2
    cursor := nextCursor }

-- Nothing where session.requireOpen throws.
inductive ExpectTurn where
  | returned (result : ExpectResult)
  | refused
  | again (call : ExpectCall)

-- One turn of the loop, after its read.
def ExpectCall.turn (simdutf : Simdutf) (call : ExpectCall) (result : Utf8ReadResult) (snapshot : TerminalSnapshot)
    (expired closing : Bool) : ExpectTurn :=
  let read := call.afterRead result snapshot expired
  match findExpectation read.pattern read.text with
  | some found => .returned (read.matching result closing found)
  | none =>
      let next := read.trimmed simdutf result.nextCursor
      if closing then .refused
      else
        let ends := fun boundary => decide (boundary ≤ next.cursor) || decide (next.cursor = call.cursor)
        let processExited := next.processExitBoundary.any ends
        let timedOut := next.timeoutBoundary.any ends
        if result.eof || processExited || timedOut then
          .returned (next.unmatched result closing (timedOut && !result.eof && !processExited))
        else .again next

def closingError (id : Nat) : ProtocolError :=
  ⟨"terminal_closing", "Terminal '" ++ toString id ++ "' is closing and accepts no new operations.", 409⟩

def aheadError (cursor nextOffset : Nat) : ProtocolError :=
  ⟨"validation_error", "cursor " ++ toString cursor ++ " is ahead of terminal output offset " ++ toString nextOffset ++ ".", 400⟩

structure ExpectAnswer where
  pattern : Units
  outcome : Except ProtocolError ExpectResult
deriving DecidableEq

-- One session and one expect: its reads, the snapshot of a session that is closing, the call on its way and its answer.
structure ExpectRun where
  id : Nat
  reading : ReadingRun
  closing : Option TerminalSnapshot
  call : Option ExpectCall
  answer : Option ExpectAnswer

inductive ExpectEvent where
  | terminal (event : TerminalEvent)
  | close
  | expect (pattern : Units) (cursor : Nat)
  -- A read of the call of readUtf8 ends, with the time that was left before it.
  | read (remainingWait : Nat)
  -- The turn goes on behind a call of readUtf8 that has returned, before or after the deadline.
  | resume (expired : Bool)

def ExpectRun.snapshot (run : ExpectRun) : TerminalSnapshot :=
  run.closing.getD ⟨run.reading.terminal.state.status, run.reading.terminal.state.produced_bytes⟩

-- The call whose read has returned, with what it returned.
def ExpectRun.returnedRead (run : ExpectRun) : Option (ExpectCall × Utf8ReadResult) :=
  match run.call, run.reading.call, run.reading.calls.getLast? with
  | some call, none, some record => some (call, record.result)
  | _, _, _ => none

-- The next turn up to its first read.
def ExpectRun.begin (simdutf : Simdutf) (run : ExpectRun) (call : ExpectCall) : ExpectRun :=
  { run with
    call := some (call.beforeRead run.snapshot)
    reading := run.reading.next simdutf (.call EXPECT_READ_BYTES) }

def ExpectRun.answered (run : ExpectRun) (pattern : Units) (outcome : Except ProtocolError ExpectResult) : ExpectRun :=
  { run with call := none, answer := some ⟨pattern, outcome⟩ }

def ExpectRun.next (simdutf : Simdutf) (run : ExpectRun) : ExpectEvent → ExpectRun
  | .terminal event => { run with reading := run.reading.next simdutf (.terminal event) }
  | .close => { run with closing := some run.snapshot }
  | .expect pattern cursor =>
      if run.call.isSome || run.answer.isSome then run
      else if run.closing.isSome then run.answered pattern (.error (closingError run.id))
      else if run.snapshot.nextOffset < cursor then run.answered pattern (.error (aheadError cursor run.snapshot.nextOffset))
      else { run with reading := run.reading.next simdutf (.seek cursor) }.begin simdutf (expect pattern cursor)
  | .read remainingWait =>
      match run.call with
      | none => run
      | some call =>
          let remainingWait := if call.processExitBoundary.isSome then 0 else remainingWait
          { run with reading := run.reading.next simdutf (.read remainingWait run.closing.isNone) }
  | .resume expired =>
      match run.returnedRead with
      | none => run
      | some (call, result) =>
          match call.turn simdutf result run.snapshot expired run.closing.isSome with
          | .returned result => run.answered call.pattern (.ok result)
          | .refused => run.answered call.pattern (.error (closingError run.id))
          | .again call => run.begin simdutf call

def startedExpect (id max_buffer_bytes : Nat) (max_total_buffer_bytes : UInt64) : ExpectRun :=
  ⟨id, startedReading max_buffer_bytes max_total_buffer_bytes, none, none, none⟩

end expect

section spelling

-- The letters of a stretch of a stream, and their string: a replacement character for each byte of no character.
def lettersAt (stream : List UInt8) (start stop : Nat) : List Char := lettersOf (utf8Code.scan (slice stream start (stop - start)))

def spelled (bytes : List UInt8) : Units := utf16Code.words (lettersOf (utf8Code.scan bytes))

theorem string_words (letters : List Char) : stringOf (utf8Code.words letters) = utf16Code.words letters := by
  rw [stringOf, (decode_words (utf8Code.words letters) letters).mpr rfl]
  rfl

theorem decoded_spelled (simdutf : Simdutf) (documented : Documented simdutf) (bytes : List UInt8) (unmarked : ¬byteOrderMark <+: bytes) :
    stringOf (utf8Decode simdutf bytes) = spelled bytes := by
  have plain : ¬[0xEF, 0xBB, 0xBF] <+: bytes := unmarked
  rw [utf8_decode simdutf documented, skipped_mark, if_neg plain, List.drop_zero, string_words]
  rfl

-- Each byte of no character is written as three.
theorem letters_length (bytes : List UInt8) :
    (utf8Code.words (lettersOf (utf8Code.scan bytes))).length = bytes.length + 2 * (utf8Code.scan bytes).count none ∧
      (utf8Code.scan bytes).count none ≤ bytes.length := by
  generalize size : bytes.length = n
  induction n using Nat.strongRecOn generalizing bytes with
  | ind n ih =>
      cases bytes with
      | nil =>
          rw [← size]
          exact ⟨rfl, Nat.le_refl 0⟩
      | cons byte rest =>
          cases found : utf8Code.first (byte :: rest) with
          | some char =>
              obtain ⟨behind, same⟩ := (utf8Code.first_iff _ _).mp found
              have positive := List.length_pos_of_ne_nil (utf8Code.word_some char)
              have length := congrArg List.length same
              rw [List.length_append] at length
              obtain ⟨whole, few⟩ := ih behind.length (by omega) behind rfl
              rw [← same, Code.scan_word, List.count_cons_of_ne (by simp)]
              change (utf8Code.word char ++ utf8Code.words (lettersOf (utf8Code.scan behind))).length = _ ∧ _
              rw [List.length_append, whole]
              omega
          | none =>
              rw [List.length_cons] at size
              obtain ⟨whole, few⟩ := ih rest.length (by omega) rest rfl
              rw [Code.scan_stuck utf8Code byte rest found, List.count_cons_self]
              change ([0xEF, 0xBF, 0xBD] ++ utf8Code.words (lettersOf (utf8Code.scan rest))).length = _ ∧ _
              rw [List.length_append, whole]
              change 3 + _ = _ ∧ _
              omega

-- Bytes that are as long as their letters are the letters.
theorem letters_exact (bytes : List UInt8) (same : (utf8Code.words (lettersOf (utf8Code.scan bytes))).length = bytes.length) :
    utf8Code.words (lettersOf (utf8Code.scan bytes)) = bytes := by
  have counted := (letters_length bytes).1
  have absent : none ∉ utf8Code.scan bytes := by
    rw [← List.count_eq_zero]
    omega
  obtain ⟨letters, whole⟩ := (utf8Code.scan_whole bytes).mp absent
  rw [whole, Code.words_scan, letters_some]

theorem spelled_words (letters : List Char) (rest : List UInt8) :
    spelled (utf8Code.words letters ++ rest) = utf16Code.words letters ++ spelled rest := by
  rw [spelled, spelled, Code.scan_words, letters_append, letters_some, Code.words_append]

theorem spelled_cut (front back : List UInt8) (cut : utf8Code.Cut front back) : spelled (front ++ back) = spelled front ++ spelled back := by
  rw [spelled, Code.scan_cut utf8Code front back cut, letters_append, Code.words_append]
  rfl

theorem spelled_some (bytes : List UInt8) (some_ : bytes ≠ []) : spelled bytes ≠ [] := by
  intro nothing
  have letters := words_chars (lettersOf (utf8Code.scan bytes))
  change chars (spelled bytes) = _ at letters
  rw [nothing] at letters
  have length := (letters_length bytes).1
  rw [← letters] at length
  have positive := List.length_pos_of_ne_nil some_
  change 0 = _ at length
  omega

theorem spelled_encode (string : Units) (plain : utf16Code.words (chars string) = string) : spelled (encode string) = string := by
  have text := spelled_words (chars string) []
  rw [List.append_nil, plain] at text
  rw [encode_chars, text]
  exact List.append_nil string

-- Where a string starts what its own letters start, no half of a character is alone in it.
theorem chars_front (string rest : Units) (start : string <+: utf16Code.words (chars string) ++ rest) :
    utf16Code.words (chars string) = string := by
  have length := chars_length string
  exact (List.prefix_of_prefix_length_le (List.prefix_append _ rest) start (Nat.le_of_eq length)).eq_of_length length

-- A stretch that is as long as the encoding of its text is that encoding.
theorem spelled_exact (bytes : List UInt8) (string : Units) (text : spelled bytes = string)
    (size : bytes.length = (encode string).length) : bytes = encode string := by
  rw [encode_chars, ← text, spelled, words_chars] at size ⊢
  exact (letters_exact bytes size.symm).symm

-- Positions that are counted in the encoding of the text are true where the stream holds that encoding.
theorem positions_true (stream : List UInt8) (start stop : Nat) (pattern before : Units) (order : start ≤ stop) (inside : stop ≤ stream.length)
    (cut : utf8Code.Cut (slice stream start (stop - start)) (stream.drop stop))
    (stands : StandsAt pattern (spelled (slice stream start (stop - start))) before) :
    (start + (encode before).length + (encode pattern).length ≤ stream.length ∧
        spelled (slice stream start (encode before).length) = before ∧
        spelled (slice stream (start + (encode before).length) (encode pattern).length) = pattern) ↔
      encode before ++ encode pattern <+: slice stream start (stop - start) := by
  have letters : encode before ++ encode pattern = utf8Code.words (chars before ++ chars pattern) := by
    rw [encode_chars, encode_chars, Code.words_append]
  have units : (utf16Code.words (chars before ++ chars pattern)).length = before.length + pattern.length := by
    rw [Code.words_append, List.length_append, chars_length, chars_length]
  constructor
  · rintro ⟨bound, first, second⟩
    have front := spelled_exact _ before first (slice_length stream start _ (by omega))
    have back := spelled_exact _ pattern second (slice_length stream _ _ bound)
    have whole : encode before ++ encode pattern = slice stream start ((encode before).length + (encode pattern).length) := by
      rw [← slice_append, front, back]
    by_cases short : (encode before).length + (encode pattern).length ≤ stop - start
    · rw [whole, ← slice_take stream start (stop - start) _ short]
      exact List.take_prefix _ _
    · -- The text up to the boundary would be too short to hold the match.
      exfalso
      generalize size : (encode before).length + (encode pattern).length - (stop - start) = more
      have rest := slice_length stream stop more (by omega)
      have joined := slice_append stream start (stop - start) more
      rw [Nat.add_sub_cancel' order, show stop - start + more = (encode before).length + (encode pattern).length by omega, ← whole,
        letters] at joined
      have apart : utf8Code.Cut (slice stream start (stop - start)) (slice stream stop more) := by
        refine utf8Code.cut_front _ _ ((stream.drop stop).drop more) ?_
        rw [List.drop_drop, slice_behind]
        exact cut
      have spelled_ := spelled_cut _ _ apart
      rw [joined, ← List.append_nil (utf8Code.words _), spelled_words] at spelled_
      have lengths := congrArg List.length spelled_
      rw [List.length_append, List.length_append, units] at lengths
      have held := stands.length_le
      rw [List.length_append] at held
      have nothing := List.length_pos_of_ne_nil (spelled_some (slice stream stop more) (List.ne_nil_of_length_pos (by omega)))
      change _ + 0 = _ at lengths
      omega
  · rintro ⟨rest, whole⟩
    have length := congrArg List.length whole
    rw [List.length_append, List.length_append, slice_length stream start _ (by omega)] at length
    have text := spelled_words (chars before ++ chars pattern) rest
    rw [← letters, whole] at text
    rw [StandsAt, text, Code.words_append, List.append_assoc] at stands
    have first := chars_front before _ ((List.prefix_append before pattern).trans stands)
    rw [first, List.prefix_append_right_inj] at stands
    have second := chars_front pattern _ stands
    have front := slice_take stream start (stop - start) (encode before).length (by omega)
    have back := slice_slice stream start (stop - start) (encode before).length (encode pattern).length (by omega)
    rw [← whole, List.append_assoc, List.take_left] at front
    rw [← whole, slice, List.append_assoc, List.drop_left, List.take_left] at back
    refine ⟨by omega, ?_, ?_⟩
    · rw [← front, spelled_encode before first]
    · rw [← back, spelled_encode pattern second]

end spelling

section window

-- The bytes of a text that is too long that are kept: those of its last characters.
def keptBytes (text : Units) : List UInt8 :=
  let tail := (encode text).drop ((encode text).length - EXPECT_WINDOW_MAX_BYTES)
  tail.drop (leadingContinuationBytes tail)

theorem leading_inner (front : List UInt8) (rest : List Char) (inner : ∀ byte ∈ front, isInner byte = true) :
    leadingContinuationBytes (front ++ utf8Code.words rest) = front.length := by
  have all : ∀ byte ∈ front, continues byte = true := fun byte member => (continues_inner byte).trans (inner byte member)
  have none_ := Vacps.Server.leading_word rest
  rw [leadingContinuationBytes] at none_ ⊢
  rw [List.takeWhile_append_of_pos all, List.length_append, none_, Nat.add_zero]

-- A cut that goes on over inner bytes is between characters.
theorem words_moved (letters : List Char) (from_ : Nat) (inside : from_ ≤ (utf8Code.words letters).length) :
    ∃ front back, letters = front ++ back ∧
      from_ + leadingContinuationBytes ((utf8Code.words letters).drop from_) = (utf8Code.words front).length ∧
      (utf8Code.words front).length ≤ from_ + 3 := by
  induction letters generalizing from_ with
  | nil =>
      have zero : from_ = 0 := Nat.le_zero.mp inside
      subst zero
      exact ⟨[], [], rfl, rfl, Nat.zero_le 3⟩
  | cons char rest ih =>
      have four := word_four char
      rw [Code.words_cons, List.length_append] at inside
      rcases Nat.eq_zero_or_pos from_ with rfl | positive
      · refine ⟨[], char :: rest, rfl, ?_, Nat.zero_le 3⟩
        rw [List.drop_zero, Vacps.Server.leading_word]
        rfl
      · by_cases within : from_ < (utf8Code.word char).length
        · obtain ⟨head, tail, same, _, inner⟩ := utf8Code.shape char
          obtain ⟨before, rfl⟩ := Nat.exists_eq_add_of_lt positive
          refine ⟨[char], rest, rfl, ?_, ?_⟩
          · rw [Code.words_cons, List.drop_append_of_le_length (by omega), leading_inner, List.length_drop, Code.words_cons,
              Code.words_nil, List.append_nil]
            · omega
            · rw [same, Nat.zero_add, List.drop_succ_cons]
              exact fun byte member => inner byte (List.mem_of_mem_drop member)
          · rw [Code.words_cons, Code.words_nil, List.append_nil]
            omega
        · obtain ⟨front, back, rfl, moved, near⟩ := ih (from_ - (utf8Code.word char).length) (by omega)
          refine ⟨char :: front, back, rfl, ?_, ?_⟩
          · rw [Code.words_cons, Code.words_cons, List.drop_append, List.drop_eq_nil_of_le (by omega), List.nil_append, List.length_append,
              ← moved]
            omega
          · rw [Code.words_cons, List.length_append]
            omega

theorem kept_window (letters : List Char) :
    ∃ gone kept, letters = gone ++ kept ∧ keptBytes (utf16Code.words letters) = utf8Code.words kept ∧
      (utf8Code.words letters).length - EXPECT_WINDOW_MAX_BYTES +
          leadingContinuationBytes ((utf8Code.words letters).drop ((utf8Code.words letters).length - EXPECT_WINDOW_MAX_BYTES)) =
        (utf8Code.words gone).length ∧
      (utf8Code.words gone).length ≤ (utf8Code.words letters).length - EXPECT_WINDOW_MAX_BYTES + 3 := by
  obtain ⟨gone, kept, same, moved, near⟩ := words_moved letters ((utf8Code.words letters).length - EXPECT_WINDOW_MAX_BYTES) (Nat.sub_le _ _)
  refine ⟨gone, kept, same, ?_, moved, near⟩
  rw [keptBytes, encode_words, List.drop_drop, moved, same, Code.words_append, List.drop_left]

theorem trim_window (simdutf : Simdutf) (documented : Documented simdutf) (letters : List Char) (scanBase : Nat)
    (small : (utf8Code.words letters).length < 2 ^ 31) (long : EXPECT_WINDOW_MAX_BYTES < (utf8Code.words letters).length)
    (unmarked : ¬byteOrderMark <+: keptBytes (utf16Code.words letters)) :
    ∃ gone kept, letters = gone ++ kept ∧ kept ≠ [] ∧ (utf8Code.words kept).length ≤ EXPECT_WINDOW_MAX_BYTES ∧
      keptBytes (utf16Code.words letters) = utf8Code.words kept ∧
      trimExpectationWindow simdutf (utf16Code.words letters) scanBase = (utf16Code.words kept, scanBase + (utf8Code.words gone).length) := by
  obtain ⟨gone, kept, same, window, moved, near⟩ := kept_window letters
  have length : (utf8Code.words letters).length = (utf8Code.words gone).length + (utf8Code.words kept).length := by
    rw [same, Code.words_append, List.length_append]
  have behind : (utf8Code.words letters).drop (utf8Code.words gone).length = utf8Code.words kept := by
    rw [same, Code.words_append, List.drop_left]
  have text : (Utf16.text (utf16Code.words letters)).toList = letters := by
    rw [Utf16.text, String.toList_ofList, words_chars]
  have plain : ¬byteOrderMark <+: utf8Code.words kept := window ▸ unmarked
  have written := spelled_words kept []
  rw [List.append_nil] at written
  have three : 3 < EXPECT_WINDOW_MAX_BYTES := by decide
  rw [trimExpectationWindow, utf8ByteLengthOfString, encode_words]
  generalize total : (utf8Code.words letters).length = n at *
  generalize first : n - EXPECT_WINDOW_MAX_BYTES = from_ at *
  have least : (max 0 (min (from_ : Int) n)).toNat = from_ := by omega
  have last : (max (from_ : Int) (min (n : Int) n)).toNat = n := by omega
  have cut : utf8ByteSlice simdutf (Utf16.text (utf16Code.words letters)) from_ n =
      ⟨utf8Decode simdutf (utf8Code.words kept), n, (utf8Code.words gone).length, n⟩ := by
    simp only [utf8ByteSlice, text, total, Vacps.Server.int_kept n small, Vacps.Server.int_kept from_ (by omega), least, last, moved,
      if_pos (show 0 < from_ by omega), if_neg (Nat.lt_irrefl n), behind]
    rw [List.take_of_length_le (by omega)]
  refine ⟨gone, kept, same, ?_, by omega, window, ?_⟩
  · rintro rfl
    rw [Code.words_nil, List.length_nil] at length
    omega
  · simp only [if_neg (show ¬n ≤ EXPECT_WINDOW_MAX_BYTES by omega), cut]
    rw [decoded_spelled simdutf documented _ plain, written]
    exact congrArg (·, scanBase + (utf8Code.words gone).length) (List.append_nil _)

-- A character has at least as many bytes as units, and at most three for each.
theorem word_sizes (letters : List Char) :
    (utf16Code.words letters).length ≤ (utf8Code.words letters).length ∧ (utf8Code.words letters).length ≤ 3 * (utf16Code.words letters).length := by
  have one : ∀ char : Char, (utf16Code.word char).length ≤ (utf8Code.word char).length ∧
      (utf8Code.word char).length ≤ 3 * (utf16Code.word char).length := by
    intro char
    change (charUnits char).length ≤ (String.utf8EncodeChar char).length ∧ (String.utf8EncodeChar char).length ≤ 3 * (charUnits char).length
    have positive := Char.utf8Size_pos char
    have four := Char.utf8Size_le_four char
    rw [String.length_utf8EncodeChar, charUnits]
    split
    · rename_i plane
      have three : char.utf8Size ≠ 4 := by
        rw [Ne, Char.utf8Size_eq_four_iff, UInt32.lt_iff_toNat_lt]
        exact fun above => absurd plane (Nat.not_lt.mpr above)
      rw [List.length_singleton]
      omega
    · rename_i plane
      have two : char.utf8Size ≠ 1 := by
        rw [Ne, Char.utf8Size_eq_one_iff, UInt32.le_iff_toNat_le]
        exact fun low => plane (Nat.lt_of_le_of_lt low (by decide))
      rw [List.length_cons, List.length_singleton]
      omega
  induction letters with
  | nil => exact ⟨Nat.le_refl 0, Nat.zero_le _⟩
  | cons char rest ih =>
      have here := one char
      rw [Code.words_cons, Code.words_cons, List.length_append, List.length_append]
      omega

end window

section turns

-- A window that is cut keeps every place that has begun, and starts with no byte order mark.
def WindowHolds (pattern text : Units) : Prop :=
  EXPECT_WINDOW_MAX_BYTES < utf8ByteLengthOfString text → indexOf pattern text = none →
    ¬byteOrderMark <+: keptBytes text ∧
      ∀ count, count ≤ pattern.length → pattern.take count <:+ text → count ≤ (stringOf (keptBytes text)).length

-- For the patterns that POST /terminals/expect lets in only a byte order mark matters.
theorem checked_pattern (pattern : Units) (letters : List Char) (checked : utf8ByteLengthOfString pattern ≤ 1048576) :
    WindowHolds pattern (utf16Code.words letters) ↔
      (EXPECT_WINDOW_MAX_BYTES < utf8ByteLengthOfString (utf16Code.words letters) → indexOf pattern (utf16Code.words letters) = none →
        ¬byteOrderMark <+: keptBytes (utf16Code.words letters)) := by
  refine ⟨fun holds long unfound => (holds long unfound).1, fun unmarked long unfound => ⟨unmarked long unfound, fun count inside _ => ?_⟩⟩
  obtain ⟨gone, kept, same, window, _, near⟩ := kept_window letters
  have total : (utf8Code.words letters).length = (utf8Code.words gone).length + (utf8Code.words kept).length := by
    rw [same, Code.words_append, List.length_append]
  have sizes := word_sizes kept
  have units := word_sizes (chars pattern)
  rw [chars_length, ← encode_chars] at units
  have room : 3 * 1048576 + 3 ≤ EXPECT_WINDOW_MAX_BYTES := by decide
  rw [utf8ByteLengthOfString] at checked
  rw [utf8ByteLengthOfString, encode_words] at long
  rw [window, string_words]
  omega

-- What a turn starts with: the letters read so far, of which those in front are gone, with no match among them.
structure Scanned (stream : List UInt8) (start : Nat) (call : ExpectCall) (gone kept : List Char) : Prop where
  clean : call.dropped = false
  inside : start ≤ call.cursor ∧ call.cursor ≤ stream.length
  letters : lettersAt stream start call.cursor = gone ++ kept
  text : call.text = utf16Code.words kept
  scanBase : call.scanBase = start + (utf8Code.words gone).length
  empty : kept = [] → gone = []
  window : (utf8Code.words kept).length ≤ EXPECT_WINDOW_MAX_BYTES
  absent : ∀ front, ¬StandsAt call.pattern (utf16Code.words gone ++ utf16Code.words kept) front
  within : Within call.pattern (utf16Code.words gone ++ utf16Code.words kept) (utf16Code.words kept).length

-- What a call of readUtf8 has returned to the turn.
structure Heard (stream : List UInt8) (start next : Nat) (call : ExpectCall) (result : Utf8ReadResult) (more : List Char) : Prop where
  clean : result.dropped = false
  at_ : result.contentStart = call.cursor
  cursor : result.nextCursor = next
  inside : call.cursor ≤ next ∧ next ≤ stream.length
  letters : lettersAt stream start next = lettersAt stream start call.cursor ++ more
  content : stringOf result.content = utf16Code.words more
  small : (utf8Code.words more).length ≤ 3 * EXPECT_READ_BYTES

-- What an expect answers: no match, or the first one at the place where the encoding of the text has it.
def Told (bytes : List UInt8) (start : Nat) (pattern : Units) (result : ExpectResult) : Prop :=
  (result.matched = false ∧ ∀ front, ¬StandsAt pattern (spelled bytes) front) ∨
  ∃ before, FirstAt pattern (spelled bytes) before ∧ result.matched = true ∧ result.found = some pattern ∧
    result.start_cursor = some (start + (encode before).length) ∧
    result.end_cursor = some (start + (encode before).length + (encode pattern).length)

-- What a turn may come to: an answer that tells what was read, or a turn that scans on from there.
def TurnScans (stream : List UInt8) (start next : Nat) (pattern : Units) : ExpectTurn → Prop
  | .returned answer => Told (slice stream start (next - start)) start pattern answer
  | .refused => True
  | .again later => (∃ gone kept, Scanned stream start later gone kept) ∧ later.cursor = next ∧ later.pattern = pattern

variable (stream : List UInt8) (start next : Nat) (call : ExpectCall) (result : Utf8ReadResult) (gone kept more : List Char)

theorem letters_none (stop : Nat) (order : start ≤ stop) (inside : stop ≤ stream.length) (none_ : lettersAt stream start stop = []) :
    stop = start := by
  have size := slice_length stream start (stop - start) (by omega)
  have length := (letters_length (slice stream start (stop - start))).1
  change (utf8Code.words (lettersAt stream start stop)).length = _ at length
  rw [none_, Code.words_nil, List.length_nil] at length
  omega

-- The text grows by what was read.
theorem read_grows (snapshot : TerminalSnapshot) (expired : Bool) (scanned : Scanned stream start call gone kept)
    (heard : Heard stream start next call result more) :
    (call.afterRead result snapshot expired).text = utf16Code.words (kept ++ more) ∧
      (call.afterRead result snapshot expired).scanBase = start + (utf8Code.words gone).length := by
  simp only [ExpectCall.afterRead, heard.clean, Bool.false_or, heard.content, scanned.text, Code.words_append, true_and, if_neg Bool.false_ne_true]
  split
  · rename_i nothing
    have none_ : kept = [] := by
      rw [List.isEmpty_iff] at nothing
      have letters := words_chars kept
      rw [nothing] at letters
      exact letters.symm
    have letters := scanned.letters
    rw [none_, scanned.empty none_] at letters
    rw [heard.at_, scanned.empty none_]
    exact letters_none stream start call.cursor scanned.inside.1 scanned.inside.2 letters
  · exact scanned.scanBase

theorem absent_grows (scanned : Scanned stream start call gone kept)
    (absent : ∀ front, ¬StandsAt call.pattern (utf16Code.words (kept ++ more)) front) (front : Units) :
    ¬StandsAt call.pattern (utf16Code.words gone ++ utf16Code.words kept ++ utf16Code.words more) front := by
  intro stands
  obtain ⟨later, _, here⟩ := (places_kept call.pattern _ _ _ scanned.absent scanned.within front).mp stands
  rw [← Code.words_append] at here
  exact absent later here

theorem first_grows (scanned : Scanned stream start call gone kept) (front : Units)
    (first : FirstAt call.pattern (utf16Code.words (kept ++ more)) front) :
    FirstAt call.pattern (utf16Code.words gone ++ utf16Code.words kept ++ utf16Code.words more) (utf16Code.words gone ++ front) := by
  rw [Code.words_append] at first
  exact first_kept call.pattern _ _ _ scanned.absent scanned.within front first

theorem letters_grow (scanned : Scanned stream start call gone kept) (heard : Heard stream start next call result more) :
    spelled (slice stream start (next - start)) = utf16Code.words gone ++ utf16Code.words kept ++ utf16Code.words more := by
  change utf16Code.words (lettersAt stream start next) = _
  rw [heard.letters, scanned.letters, Code.words_append, Code.words_append]

-- The window after a turn without a match.
theorem trim_scans (simdutf : Simdutf) (documented : Documented simdutf) (read : ExpectCall) (pattern_ : read.pattern = call.pattern)
    (clean : read.dropped = false) (scanned : Scanned stream start call gone kept) (heard : Heard stream start next call result more)
    (text : read.text = utf16Code.words (kept ++ more)) (scanBase : read.scanBase = start + (utf8Code.words gone).length)
    (absent : ∀ front, ¬StandsAt call.pattern (utf16Code.words (kept ++ more)) front)
    (unfound : indexOf call.pattern read.text = none) (holds : WindowHolds call.pattern read.text) :
    ∃ gone kept, Scanned stream start (read.trimmed simdutf next) gone kept := by
  have whole := absent_grows stream start call gone kept more scanned absent
  have grown := within_grows call.pattern _ (utf16Code.words more) _ scanned.within
  have letters : lettersAt stream start next = gone ++ (kept ++ more) := by
    rw [heard.letters, scanned.letters, List.append_assoc]
  have inside : start ≤ next ∧ next ≤ stream.length := ⟨Nat.le_trans scanned.inside.1 heard.inside.1, heard.inside.2⟩
  have bytes : utf8ByteLengthOfString read.text = (utf8Code.words (kept ++ more)).length := by
    rw [utf8ByteLengthOfString, text, encode_words]
  by_cases short : (utf8Code.words (kept ++ more)).length ≤ EXPECT_WINDOW_MAX_BYTES
  · have same : trimExpectationWindow simdutf read.text read.scanBase = (read.text, read.scanBase) := by
      rw [trimExpectationWindow, bytes, if_pos short]
    refine ⟨gone, kept ++ more, clean, inside, letters, ?_, ?_, ?_, short, ?_, ?_⟩
    · rw [ExpectCall.trimmed, same]
      exact text
    · rw [ExpectCall.trimmed, same]
      exact scanBase
    · intro none_
      exact scanned.empty (List.append_eq_nil_iff.mp none_).1
    · rw [Code.words_append, ← List.append_assoc]
      change ∀ front, ¬StandsAt read.pattern _ front
      rw [pattern_]
      exact whole
    · rw [Code.words_append, ← List.append_assoc, List.length_append]
      change Within read.pattern _ _
      rw [pattern_]
      exact grown
  · have size : EXPECT_WINDOW_MAX_BYTES + 3 * EXPECT_READ_BYTES < 2 ^ 31 := by decide
    have small : (utf8Code.words (kept ++ more)).length < 2 ^ 31 := by
      have before := scanned.window
      have behind := heard.small
      rw [Code.words_append, List.length_append]
      omega
    rw [text] at holds unfound
    obtain ⟨unmarked, begins⟩ := holds (by rw [← text, bytes]; exact Nat.lt_of_not_le short) unfound
    obtain ⟨cut, last, same, some_, fits, window, trimmed⟩ := trim_window simdutf documented (kept ++ more) read.scanBase small
      (Nat.lt_of_not_le short) unmarked
    have joined : utf16Code.words (gone ++ cut) ++ utf16Code.words last = utf16Code.words gone ++ utf16Code.words kept ++ utf16Code.words more := by
      rw [← Code.words_append, List.append_assoc, ← same, Code.words_append, Code.words_append, List.append_assoc]
    refine ⟨gone ++ cut, last, clean, inside, ?_, ?_, ?_, fun none_ => absurd none_ some_, fits, ?_, ?_⟩
    · rw [List.append_assoc, ← same]
      exact letters
    · rw [ExpectCall.trimmed, text, trimmed]
    · rw [ExpectCall.trimmed, text, trimmed]
      dsimp only
      rw [scanBase, Code.words_append, List.length_append, Nat.add_assoc]
    · rw [joined]
      change ∀ front, ¬StandsAt read.pattern _ front
      rw [pattern_]
      exact whole
    · rw [joined]
      change Within read.pattern _ _
      rw [pattern_]
      intro begun begins_ ends
      have bound := grown begun begins_ ends
      rw [List.append_assoc, ← Code.words_append] at ends
      have recent : begun <:+ utf16Code.words (kept ++ more) := by
        refine List.suffix_of_suffix_length_le ends (List.suffix_append _ _) ?_
        rw [Code.words_append, List.length_append]
        exact bound
      have place := begins begun.length begins_.length_le (by rw [← List.prefix_iff_eq_take.mp begins_]; exact recent)
      rw [window, string_words] at place
      exact place

-- A match of the text kept, counted from where the text starts.
theorem matching_told (read : ExpectCall) (closing : Bool) (scanned : Scanned stream start call gone kept)
    (heard : Heard stream start next call result more) (text : read.text = utf16Code.words (kept ++ more))
    (scanBase : read.scanBase = start + (utf8Code.words gone).length) (front : Units)
    (first : FirstAt call.pattern (utf16Code.words (kept ++ more)) front) :
    Told (slice stream start (next - start)) start call.pattern (read.matching result closing ⟨front.length, call.pattern⟩) := by
  have before : encode (utf16Code.words gone ++ front) = utf8Code.words gone ++ encode front := by
    rw [encode_chars, chars_words, Code.words_append, ← encode_chars]
  have taken : read.text.take front.length = front := by
    rw [text]
    exact (List.prefix_iff_eq_take.mp (stands_front _ _ front first.1)).symm
  refine Or.inr ⟨utf16Code.words gone ++ front, ?_, rfl, rfl, ?_, ?_⟩
  · rw [letters_grow stream start next call result gone kept more scanned heard]
    exact first_grows stream start call gone kept more scanned front first
  · simp only [ExpectCall.matching, taken, utf8ByteLengthOfString, scanBase, before, List.length_append, Nat.add_assoc]
  · simp only [ExpectCall.matching, taken, utf8ByteLengthOfString, scanBase, before, List.length_append, Nat.add_assoc]

theorem turn_scans (simdutf : Simdutf) (documented : Documented simdutf) (snapshot : TerminalSnapshot) (expired closing : Bool)
    (scanned : Scanned stream start call gone kept) (heard : Heard stream start next call result more)
    (holds : WindowHolds call.pattern (call.afterRead result snapshot expired).text) :
    TurnScans stream start next call.pattern (call.turn simdutf result snapshot expired closing) := by
  obtain ⟨text, scanBase⟩ := read_grows stream start next call result gone kept more snapshot expired scanned heard
  have clean : (call.afterRead result snapshot expired).dropped = false := by
    rw [ExpectCall.afterRead, scanned.clean, heard.clean]
    rfl
  have pattern_ : (call.afterRead result snapshot expired).pattern = call.pattern := rfl
  have place := index_first call.pattern (call.afterRead result snapshot expired).text
  simp only [ExpectCall.turn, findExpectation]
  generalize call.afterRead result snapshot expired = read at *
  rw [pattern_]
  cases found : indexOf call.pattern read.text with
  | some index =>
      rw [found] at place
      obtain ⟨front, rfl, first⟩ := place
      rw [text] at first
      exact matching_told stream start next call result gone kept more read closing scanned heard text scanBase front first
  | none =>
      rw [found, text] at place
      have whole := absent_grows stream start call gone kept more scanned place
      rw [← letters_grow stream start next call result gone kept more scanned heard] at whole
      dsimp only [Option.map_none]
      cases closing with
      | true => exact trivial
      | false =>
          rw [if_neg Bool.false_ne_true]
          split
          · exact Or.inl ⟨rfl, whole⟩
          · rw [heard.cursor]
            refine ⟨?_, rfl, pattern_⟩
            exact trim_scans stream start next call result gone kept more simdutf documented read pattern_ clean scanned heard text scanBase
              place found holds

end turns

section answers

-- A match is reported just when the text has one, and then the first, at the bytes that decode to it.
structure Reported (stream : List UInt8) (start stop : Nat) (pattern : Units) (result : ExpectResult) : Prop where
  matched : result.matched = true ↔ ∃ front, StandsAt pattern (spelled (slice stream start (stop - start))) front
  place : result.matched = true → ∃ startCursor endCursor before, result.found = some pattern ∧
    result.start_cursor = some startCursor ∧ result.end_cursor = some endCursor ∧
    FirstAt pattern (spelled (slice stream start (stop - start))) before ∧
    start ≤ startCursor ∧ startCursor ≤ endCursor ∧ endCursor ≤ stream.length ∧
    spelled (slice stream start (startCursor - start)) = before ∧ spelled (slice stream startCursor (endCursor - startCursor)) = pattern

theorem told_reported (stream : List UInt8) (start stop : Nat) (pattern : Units) (result : ExpectResult) (order : start ≤ stop)
    (inside : stop ≤ stream.length) (cut : utf8Code.Cut (slice stream start (stop - start)) (stream.drop stop))
    (told : Told (slice stream start (stop - start)) start pattern result) :
    Reported stream start stop pattern result ↔
      ∀ before, FirstAt pattern (spelled (slice stream start (stop - start))) before →
        encode before ++ encode pattern <+: slice stream start (stop - start) := by
  rcases told with ⟨unmatched, absent⟩ | ⟨front, first, matched, found, starts, ends⟩
  · refine ⟨fun _ before first => absurd first.1 (absent before), fun _ => ⟨?_, ?_⟩⟩
    · rw [unmatched]
      constructor
      · intro wrong
        cases wrong
      · rintro ⟨front, stands⟩
        exact absurd stands (absent front)
    · intro wrong
      rw [unmatched] at wrong
      cases wrong
  · have places := positions_true stream start stop pattern front order inside cut first.1
    refine ⟨fun reported before also => ?_, fun plain => ⟨⟨fun _ => ⟨front, first.1⟩, fun _ => matched⟩, fun _ => ?_⟩⟩
    · obtain ⟨startCursor, endCursor, other, _, started, ended, least, _, _, bound, text, match_⟩ := reported.place matched
      rw [starts, Option.some_inj] at started
      rw [ends, Option.some_inj] at ended
      have same := first_unique pattern _ front other first least
      rw [← started, Nat.add_sub_cancel_left] at text
      rw [← started, ← ended, Nat.add_sub_cancel_left] at match_
      rw [← first_unique pattern _ front before first also]
      exact places.mp ⟨by omega, same ▸ text, match_⟩
    · obtain ⟨bound, text, match_⟩ := places.mpr (plain front first)
      refine ⟨_, _, front, found, starts, ends, first, by omega, by omega, bound, ?_, ?_⟩
      · rw [Nat.add_sub_cancel_left, text]
      · rw [Nat.add_sub_cancel_left, match_]

end answers

section runs

-- The pattern is not empty, no output comes behind the device's end, and none is dropped.
def Promised (run : ExpectRun) : ExpectEvent → Prop
  | .terminal event => Undropped run.reading (.terminal event)
  | .expect pattern _ => pattern ≠ []
  | .read remainingWait => Undropped run.reading (.read remainingWait true)
  | .close | .resume _ => True

-- No read starts at a byte order mark, and no cut of the window loses a place.
def Steady (run : ExpectRun) : ExpectEvent → Prop
  | .read _ => ¬byteOrderMark <+: run.reading.terminal.stream.drop run.reading.cursor
  | .resume expired => ∀ read ∈ run.returnedRead, WindowHolds read.1.pattern (read.1.afterRead read.2 run.snapshot expired).text
  | .terminal _ | .close | .expect _ _ => True

structure ExpectKeeps (max_buffer_bytes : Nat) (run : ExpectRun) : Prop where
  reads : ReadsKeep max_buffer_bytes run.reading
  fresh : run.call = none → run.answer = none → run.reading.calls = [] ∧ run.reading.call = none
  single : ∀ call, run.call = some call → run.answer = none
  sized : ∀ call, run.reading.call = some call → call.maxBytes = EXPECT_READ_BYTES
  waiting : ∀ call read, run.call = some call → run.reading.call = some read → call.cursor = run.reading.cursor
  scanned : ∀ call, run.call = some call →
    call.pattern ≠ [] ∧ ∃ gone kept, Scanned run.reading.terminal.stream run.reading.start call gone kept
  heard : ∀ call result, run.returnedRead = some (call, result) →
    ∃ more, Heard run.reading.terminal.stream run.reading.start run.reading.cursor call result more
  told : ∀ pattern result, run.answer = some ⟨pattern, .ok result⟩ → Told run.reading.covered run.reading.start pattern result

theorem returned_read (run : ExpectRun) (call : ExpectCall) (result : Utf8ReadResult) (returned : run.returnedRead = some (call, result)) :
    run.call = some call ∧ run.reading.call = none := by
  rw [ExpectRun.returnedRead] at returned
  split at returned
  · rename_i call_ none_ _
    cases returned
    exact ⟨call_, none_⟩
  · cases returned

theorem turn_clean (simdutf : Simdutf) (call : Utf8Call) (result : ReadResult) (remainingWait : Nat) (mayReadAgain : Bool)
    (answer : Utf8ReadResult) (clean : (call.received result).dropped = false)
    (returned : call.turn simdutf result remainingWait mayReadAgain = .inl answer) :
    answer.dropped = false ∧ answer.contentStart = (call.received result).contentStart := by
  simp only [Utf8Call.turn, clean, Bool.false_eq_true, if_false, List.drop_zero, Nat.add_zero] at returned
  split at returned
  · have same := Sum.inl.inj returned
    rw [← same]
    exact ⟨rfl, rfl⟩
  · cases returned

-- What a call of readUtf8 returns to a turn.
theorem read_heard (simdutf : Simdutf) (documented : Documented simdutf) (max_buffer_bytes : Nat) (run : ReadingRun) (read : Utf8Call)
    (remainingWait : Nat) (mayReadAgain : Bool) (answer : Utf8ReadResult) (kept : ReadsKeep max_buffer_bytes run)
    (some_ : run.call = some read) (size : read.maxBytes = EXPECT_READ_BYTES) (retained : Retained run.terminal.state read.rawOffset)
    (unmarked : ¬byteOrderMark <+: run.terminal.stream.drop run.cursor)
    (returned : read.turn simdutf (run.terminal.state.collect ⟨read.rawOffset, read.requestedBytes⟩) remainingWait mayReadAgain =
      .inl answer) (call : ExpectCall) (at_ : call.cursor = run.cursor) :
    ∃ more, Heard run.terminal.stream run.start answer.nextCursor call answer more := by
  have holds := kept.call read some_
  obtain ⟨max_, clean, starts, reached, _, inside, _, length⟩ := received_holds run.terminal.stream run.terminal.others run.terminal.state
    run.terminal.budget kept.native.keeps run.cursor read holds retained
  obtain ⟨dropped, contentStart⟩ := turn_clean simdutf read _ remainingWait mayReadAgain answer clean returned
  obtain ⟨next, _, _⟩ := turn_returns simdutf read _ remainingWait mayReadAgain answer clean returned
  obtain ⟨count, cursor, content, whole⟩ := read_returns simdutf max_buffer_bytes run read remainingWait mayReadAgain answer kept some_
    retained returned
  have bound : count ≤ EXPECT_READ_BYTES := by
    have complete := complete_le (read.received (run.terminal.state.collect ⟨read.rawOffset, read.requestedBytes⟩))
      (run.terminal.state.collect ⟨read.rawOffset, read.requestedBytes⟩).eof
    have short := holds.short
    have requested : read.bytes.length + read.requestedBytes ≤ EXPECT_READ_BYTES := by
      have eight : 8 ≤ EXPECT_READ_BYTES := by decide
      rw [Utf8Call.requestedBytes, size]
      split
      · rename_i empty
        rw [List.isEmpty_iff] at empty
        rw [empty, List.length_nil]
        omega
      · omega
    omega
  obtain ⟨before, within, _⟩ := kept.cursor
  obtain ⟨_, end_, _⟩ := whole.boundary
  rw [cursor] at end_
  have apart := boundary_scan run.terminal.stream run.terminal.state.pty_eof run.start run.cursor count kept.cursor
  have lengths := letters_length (slice run.terminal.stream run.cursor count)
  have counted := slice_length run.terminal.stream run.cursor count end_
  refine ⟨lettersOf (utf8Code.scan (slice run.terminal.stream run.cursor count)), dropped, ?_, rfl, ?_, ?_, ?_, ?_⟩
  · rw [contentStart, starts, at_]
  · rw [cursor, at_]
    omega
  · have joined := slice_append run.terminal.stream run.start (run.cursor - run.start) count
    rw [Nat.add_sub_cancel' before] at joined
    rw [lettersAt, lettersAt, cursor, at_, show run.cursor + count - run.start = run.cursor - run.start + count by omega, ← joined,
      Code.scan_cut utf8Code _ _ apart, letters_append]
  · rw [content, decoded_spelled simdutf documented]
    · rfl
    · exact fun mark => unmarked (mark.trans (List.take_prefix _ _))
  · rw [lengths.1]
    omega

theorem letters_later (stream data : List UInt8) (start stop : Nat) (order : start ≤ stop) (inside : stop ≤ stream.length) :
    lettersAt (stream ++ data) start stop = lettersAt stream start stop := by
  rw [lettersAt, lettersAt, slice_grown stream data _ _ (by omega)]

theorem scanned_grows (stream data : List UInt8) (start : Nat) (call : ExpectCall) (gone kept : List Char)
    (scanned : Scanned stream start call gone kept) : Scanned (stream ++ data) start call gone kept := by
  obtain ⟨order, inside⟩ := scanned.inside
  refine ⟨scanned.clean, ⟨order, by rw [List.length_append]; omega⟩, ?_, scanned.text, scanned.scanBase, scanned.empty, scanned.window,
    scanned.absent, scanned.within⟩
  rw [letters_later stream data start call.cursor order inside]
  exact scanned.letters

theorem heard_grows (stream data : List UInt8) (start next : Nat) (call : ExpectCall) (result : Utf8ReadResult) (more : List Char)
    (order : start ≤ call.cursor) (heard : Heard stream start next call result more) : Heard (stream ++ data) start next call result more := by
  obtain ⟨before, inside⟩ := heard.inside
  refine ⟨heard.clean, heard.at_, heard.cursor, ⟨before, by rw [List.length_append]; omega⟩, ?_, heard.content, heard.small⟩
  rw [letters_later stream data start next (by omega) inside, letters_later stream data start call.cursor order (by omega)]
  exact heard.letters

variable (simdutf : Simdutf) (documented : Documented simdutf) (max_buffer_bytes : Nat) (run : ExpectRun)

theorem terminal_keeps (event : TerminalEvent) (kept : ExpectKeeps max_buffer_bytes run)
    (undropped : Undropped run.reading (.terminal event)) : ExpectKeeps max_buffer_bytes (run.next simdutf (.terminal event)) := by
  obtain ⟨data, grown, _, _⟩ := terminal_grows run.reading.terminal event (by rintro data rfl; exact undropped)
  obtain ⟨before, inside, _⟩ := kept.reads.cursor
  have reads := reads_next simdutf max_buffer_bytes run.reading (.terminal event) kept.reads undropped
  have stream : (run.next simdutf (.terminal event)).reading.terminal.stream = run.reading.terminal.stream ++ data := grown
  refine ⟨reads, kept.fresh, kept.single, kept.sized, kept.waiting, ?_, ?_, ?_⟩
  · intro call some_
    obtain ⟨pattern, gone, last, scanned⟩ := kept.scanned call some_
    rw [stream]
    exact ⟨pattern, gone, last, scanned_grows _ data _ call gone last scanned⟩
  · intro call result returned
    obtain ⟨more, heard⟩ := kept.heard call result returned
    obtain ⟨_, gone, last, scanned⟩ := kept.scanned call (returned_read run call result returned).1
    rw [stream]
    exact ⟨more, heard_grows _ data _ _ call result more scanned.inside.1 heard⟩
  · intro pattern result answered
    have told := kept.told pattern result answered
    rw [ReadingRun.covered] at told ⊢
    rw [stream]
    change Told (slice (run.reading.terminal.stream ++ data) run.reading.start (run.reading.cursor - run.reading.start)) run.reading.start pattern result
    rw [slice_grown _ data _ _ (by omega)]
    exact told

theorem begin_keeps (call : ExpectCall) (reads : ReadsKeep max_buffer_bytes run.reading) (idle : run.reading.call = none)
    (unanswered : run.answer = none) (some_ : call.pattern ≠ []) (at_ : call.cursor = run.reading.cursor) (gone kept : List Char)
    (scanned : Scanned run.reading.terminal.stream run.reading.start call gone kept) :
    ExpectKeeps max_buffer_bytes (run.begin simdutf call) := by
  have large : 4 ≤ EXPECT_READ_BYTES := by decide
  have reading : run.reading.next simdutf (.call EXPECT_READ_BYTES) =
      { run.reading with call := some (readUtf8 run.reading.cursor EXPECT_READ_BYTES) } := by
    simp only [ReadingRun.next, idle, Option.isNone_none, large, decide_true, Bool.and_self, if_true]
  have reads_ := reads_next simdutf max_buffer_bytes run.reading (.call EXPECT_READ_BYTES) reads trivial
  rw [ExpectRun.begin, reading] at *
  refine ⟨reads_, ?_, fun _ _ => unanswered, ?_, ?_, ?_, ?_, ?_⟩
  · intro none_
    cases none_
  · intro read same
    cases same
    rfl
  · intro other read same _
    cases same
    exact at_
  · intro other same
    cases same
    exact ⟨some_, gone, kept, scanned.clean, scanned.inside, scanned.letters, scanned.text, scanned.scanBase, scanned.empty, scanned.window,
      scanned.absent, scanned.within⟩
  · intro other result returned
    cases (returned_read _ other result returned).2
  · intro pattern result answered
    rw [unanswered] at answered
    cases answered

theorem answered_keeps (pattern : Units) (outcome : Except ProtocolError ExpectResult) (reads : ReadsKeep max_buffer_bytes run.reading)
    (idle : run.reading.call = none)
    (told : ∀ result, outcome = .ok result → Told run.reading.covered run.reading.start pattern result) :
    ExpectKeeps max_buffer_bytes (run.answered pattern outcome) := by
  refine ⟨reads, ?_, ?_, ?_, ?_, ?_, ?_, ?_⟩
  · intro _ none_
    cases none_
  · intro call some_
    cases some_
  · intro read some_
    change run.reading.call = some read at some_
    rw [idle] at some_
    cases some_
  · intro call read some_
    cases some_
  · intro call some_
    cases some_
  · intro call result returned
    cases (returned_read _ call result returned).1
  · intro pattern_ result same
    cases same
    exact told result rfl

theorem expect_keeps (pattern : Units) (cursor : Nat) (kept : ExpectKeeps max_buffer_bytes run) (some_ : pattern ≠ []) :
    ExpectKeeps max_buffer_bytes (run.next simdutf (.expect pattern cursor)) := by
  simp only [ExpectRun.next]
  by_cases taken : (run.call.isSome || run.answer.isSome) = true
  · rw [if_pos taken]
    exact kept
  · rw [if_neg taken]
    rw [Bool.or_eq_true, not_or, Bool.not_eq_true, Bool.not_eq_true, Option.isSome_eq_false_iff, Option.isSome_eq_false_iff,
      Option.isNone_iff_eq_none, Option.isNone_iff_eq_none] at taken
    obtain ⟨none_, idle⟩ := kept.fresh taken.1 taken.2
    split
    · refine answered_keeps max_buffer_bytes run pattern _ kept.reads idle fun other same => ?_
      cases same
    · rename_i open_
      split
      · refine answered_keeps max_buffer_bytes run pattern _ kept.reads idle fun other same => ?_
        cases same
      · rename_i behind
        rw [Bool.not_eq_true, Option.isSome_eq_false_iff, Option.isNone_iff_eq_none] at open_
        rw [ExpectRun.snapshot, open_, Option.getD_none] at behind
        have inside : cursor ≤ run.reading.terminal.state.produced_bytes := Nat.le_of_not_lt behind
        have reads := reads_next simdutf max_buffer_bytes run.reading (.seek cursor) kept.reads trivial
        have reading : run.reading.next simdutf (.seek cursor) = { run.reading with start := cursor, cursor := cursor } := by
          simp only [ReadingRun.next, none_, idle, List.isEmpty_nil, Option.isNone_none, inside, decide_true, Bool.and_self, if_true]
        have within : cursor ≤ run.reading.terminal.stream.length := by
          rw [← kept.reads.native.keeps.produced]
          exact inside
        rw [reading] at reads ⊢
        refine begin_keeps simdutf max_buffer_bytes _ (expect pattern cursor) reads idle taken.2 some_ rfl [] [] ?_
        refine ⟨rfl, ⟨Nat.le_refl _, within⟩, ?_, rfl, rfl, fun _ => rfl, Nat.zero_le _, ?_, ?_⟩
        · rw [lettersAt]
          dsimp only
          rw [expect, Nat.sub_self, slice_zero]
          rfl
        · intro front stands
          have nothing := List.prefix_nil.mp stands
          exact some_ (List.append_eq_nil_iff.mp nothing).2
        · intro begun _ ends
          exact ends.length_le

theorem started_expect (id : Nat) (max_total_buffer_bytes : UInt64) :
    ExpectKeeps max_buffer_bytes (startedExpect id max_buffer_bytes max_total_buffer_bytes) := by
  refine ⟨reads_start max_buffer_bytes max_total_buffer_bytes, fun _ _ => ⟨rfl, rfl⟩, ?_, ?_, ?_, ?_, ?_, ?_⟩
  · intro call some_
    cases some_
  · intro read some_
    cases some_
  · intro call read some_
    cases some_
  · intro call some_
    cases some_
  · intro call result returned
    cases (returned_read _ call result returned).1
  · intro pattern result answered
    cases answered

include documented

-- A read that goes on while an expect waits for it.
theorem reading_keeps (wait : Nat) (mayReadAgain : Bool) (call : ExpectCall) (kept : ExpectKeeps max_buffer_bytes run)
    (call_ : run.call = some call) (promised : Promised run (.read wait)) (steady : Steady run (.read wait)) :
    ExpectKeeps max_buffer_bytes { run with reading := run.reading.next simdutf (.read wait mayReadAgain) } := by
  have reads := reads_next simdutf max_buffer_bytes run.reading (.read wait mayReadAgain) kept.reads promised
  have unanswered := kept.single call call_
  have begun : ∀ later : ExpectRun, later.call = run.call → later.call = none → later.answer = none →
      later.reading.calls = [] ∧ later.reading.call = none := by
    intro later same none_
    rw [same, call_] at none_
    cases none_
  simp only [ReadingRun.next] at reads ⊢
  cases some_ : run.reading.call with
  | none => exact kept
  | some read =>
      rw [some_] at reads
      dsimp only at reads ⊢
      have size := kept.sized read some_
      have at_ := kept.waiting call read call_ some_
      have retained := promised read some_
      cases turned : read.turn simdutf (run.reading.terminal.state.collect ⟨read.rawOffset, read.requestedBytes⟩) wait mayReadAgain with
      | inr later =>
          rw [turned] at reads
          refine ⟨reads, begun _ rfl, kept.single, ?_, ?_, kept.scanned, ?_, kept.told⟩
          · intro other same
            cases same
            have clean := (received_holds run.reading.terminal.stream run.reading.terminal.others run.reading.terminal.state
              run.reading.terminal.budget kept.reads.native.keeps run.reading.cursor read (kept.reads.call read some_) retained).2.1
            rw [(turn_waits simdutf read later _ wait mayReadAgain clean turned).1]
            exact size
          · intro other another same _
            change run.call = some other at same
            rw [call_] at same
            cases same
            exact at_
          · intro other result returned
            cases (returned_read _ other result returned).2
      | inl answer =>
          rw [turned] at reads
          obtain ⟨more, heard⟩ := read_heard simdutf documented max_buffer_bytes run.reading read wait mayReadAgain answer kept.reads
            some_ size retained steady turned call at_
          refine ⟨reads, begun _ rfl, kept.single, ?_, ?_, kept.scanned, ?_, ?_⟩
          · intro other none_
            cases none_
          · intro other another _ none_
            cases none_
          · intro other result returned
            simp only [ExpectRun.returnedRead, call_, List.getLast?_concat, Option.some.injEq, Prod.mk.injEq] at returned
            obtain ⟨rfl, rfl⟩ := returned
            exact ⟨more, heard⟩
          · intro pattern_ result answered
            change run.answer = _ at answered
            rw [unanswered] at answered
            cases answered

theorem read_keeps (remainingWait : Nat) (kept : ExpectKeeps max_buffer_bytes run) (promised : Promised run (.read remainingWait))
    (steady : Steady run (.read remainingWait)) : ExpectKeeps max_buffer_bytes (run.next simdutf (.read remainingWait)) := by
  rw [ExpectRun.next]
  split
  · exact kept
  · rename_i call call_
    exact reading_keeps simdutf documented max_buffer_bytes run _ _ call kept call_ promised steady

theorem resume_keeps (expired : Bool) (kept : ExpectKeeps max_buffer_bytes run) (steady : Steady run (.resume expired)) :
    ExpectKeeps max_buffer_bytes (run.next simdutf (.resume expired)) := by
  simp only [ExpectRun.next]
  cases returned : run.returnedRead with
  | none => exact kept
  | some pair =>
      obtain ⟨call, result⟩ := pair
      obtain ⟨call_, idle⟩ := returned_read run call result returned
      obtain ⟨pattern, gone, last, scanned⟩ := kept.scanned call call_
      obtain ⟨more, heard⟩ := kept.heard call result returned
      have unanswered := kept.single call call_
      have scans := turn_scans _ _ _ call result gone last more simdutf documented run.snapshot expired run.closing.isSome scanned heard
        (steady (call, result) returned)
      dsimp only
      cases turned : call.turn simdutf result run.snapshot expired run.closing.isSome with
      | returned answer =>
          rw [turned] at scans
          refine answered_keeps max_buffer_bytes run call.pattern (.ok answer) kept.reads idle fun other same => ?_
          cases same
          exact scans
      | refused =>
          refine answered_keeps max_buffer_bytes run call.pattern _ kept.reads idle fun other same => ?_
          cases same
      | again later =>
          rw [turned] at scans
          obtain ⟨⟨front, rest, later_⟩, at_, same⟩ := scans
          exact begin_keeps simdutf max_buffer_bytes run later kept.reads idle unanswered (same ▸ pattern) at_ front rest later_

theorem expect_next (event : ExpectEvent) (kept : ExpectKeeps max_buffer_bytes run) (promised : Promised run event)
    (steady : Steady run event) : ExpectKeeps max_buffer_bytes (run.next simdutf event) := by
  cases event with
  | terminal event => exact terminal_keeps simdutf max_buffer_bytes run event kept promised
  | close => exact ⟨kept.reads, kept.fresh, kept.single, kept.sized, kept.waiting, kept.scanned, kept.heard, kept.told⟩
  | expect pattern cursor => exact expect_keeps simdutf max_buffer_bytes run pattern cursor kept promised
  | read remainingWait => exact read_keeps simdutf documented max_buffer_bytes run remainingWait kept promised steady
  | resume expired => exact resume_keeps simdutf documented max_buffer_bytes run expired kept steady

end runs

section reports

instance decidablePromised (run : ExpectRun) : ∀ event, Decidable (Promised run event)
  | .terminal event => inferInstanceAs (Decidable (Undropped run.reading (.terminal event)))
  | .expect pattern _ => inferInstanceAs (Decidable (pattern ≠ []))
  | .read remainingWait => inferInstanceAs (Decidable (Undropped run.reading (.read remainingWait true)))
  | .close | .resume _ => .isTrue trivial

instance decidableHolds (pattern text : Units) : Decidable (WindowHolds pattern text) := inferInstanceAs (Decidable (_ → _ → _ ∧ _))

instance decidableSteady (run : ExpectRun) : ∀ event, Decidable (Steady run event)
  | .read _ => inferInstanceAs (Decidable (¬_))
  | .resume expired =>
      inferInstanceAs (Decidable (∀ read ∈ run.returnedRead, WindowHolds read.1.pattern (read.1.afterRead read.2 run.snapshot expired).text))
  | .terminal _ | .close | .expect _ _ => .isTrue trivial

-- Where no read starts at a byte order mark and no place is lost, an answer is true just when the stream holds, up to the
-- end of the first match, the encoding of the text.
theorem expect_reported_iff (simdutf : Simdutf) (documented : Documented simdutf) (id max_buffer_bytes : Nat) (max_total_buffer_bytes : UInt64)
    (events : List ExpectEvent)
    (along : Along (ExpectRun.next simdutf) (fun run event => Promised run event ∧ Steady run event)
      (startedExpect id max_buffer_bytes max_total_buffer_bytes) events)
    (pattern : Units) (result : ExpectResult)
    (answered : (runFrom (ExpectRun.next simdutf) (startedExpect id max_buffer_bytes max_total_buffer_bytes) events).answer =
      some ⟨pattern, .ok result⟩) :
    let reading := (runFrom (ExpectRun.next simdutf) (startedExpect id max_buffer_bytes max_total_buffer_bytes) events).reading
    Reported reading.terminal.stream reading.start reading.cursor pattern result ↔
      ∀ before, FirstAt pattern (spelled reading.covered) before → encode before ++ encode pattern <+: reading.covered := by
  intro reading
  have kept := along_keeps (ExpectRun.next simdutf) (fun run event => Promised run event ∧ Steady run event) (ExpectKeeps max_buffer_bytes)
    (fun run event holds guards => expect_next simdutf documented max_buffer_bytes run event holds guards.1 guards.2)
    (startedExpect id max_buffer_bytes max_total_buffer_bytes) events (started_expect max_buffer_bytes id max_total_buffer_bytes) along
  obtain ⟨order, inside, cut⟩ := kept.reads.cursor
  have apart := cut [] (fun _ => rfl)
  rw [List.append_nil] at apart
  exact told_reported _ _ _ pattern result order inside apart (kept.told pattern result answered)

-- a€b in two pieces, of which the first ends inside €.
def splitEvents : List ExpectEvent :=
  [.terminal (.output [0x61, 0xE2]), .expect [0x20AC, 0x62] 0, .read 5, .resume false, .terminal (.output [0x82, 0xAC, 0x62]), .read 5,
    .resume false]

def splitResult : ExpectResult where
  closing := false
  exit := ⟨.Running, none, none, false⟩
  matched := true
  found := some [0x20AC, 0x62]
  start_cursor := some 1
  end_cursor := some 5
  next_cursor := 5
  available_from := 0
  dropped := false
  dropped_bytes := 0
  eof := false
  timeout := false

theorem split_match_reported :
    let reading := (runFrom (ExpectRun.next reference) (startedExpect 0 64 1024) splitEvents).reading
    Reported reading.terminal.stream reading.start reading.cursor [0x20AC, 0x62] splitResult := by
  intro reading
  refine (expect_reported_iff reference reference_documented 0 64 1024 splitEvents (by decide) [0x20AC, 0x62] splitResult
    (by decide)).mpr fun before first => ?_
  have index := first_index _ _ before first
  rw [show indexOf [0x20AC, 0x62] (spelled reading.covered) = some 1 by decide, Option.some_inj] at index
  have front := List.prefix_iff_eq_take.mp (stands_front _ _ before first.1)
  rw [← index, show (spelled reading.covered).take 1 = [0x61] by decide] at front
  rw [front]
  decide

def brokenEvents : List ExpectEvent := [.terminal (.output [0xFF, 0x61]), .expect [0x61] 0, .read 0, .resume true]

-- A byte of no character and then a: the match of a is reported at the bytes 3 to 4 of two.
theorem broken_byte_shifts :
    ((runFrom (ExpectRun.next reference) (startedExpect 0 64 1024) brokenEvents).answer =
      some ⟨[0x61], .ok { splitResult with found := some [0x61], start_cursor := some 3, end_cursor := some 4, next_cursor := 4 }⟩) ∧
    ¬∀ (simdutf : Simdutf), Documented simdutf → ∀ (id max_buffer_bytes : Nat) (max_total_buffer_bytes : UInt64) (events : List ExpectEvent),
      Along (ExpectRun.next simdutf) Promised (startedExpect id max_buffer_bytes max_total_buffer_bytes) events →
        ∀ (pattern : Units) (result : ExpectResult),
          (runFrom (ExpectRun.next simdutf) (startedExpect id max_buffer_bytes max_total_buffer_bytes) events).answer = some ⟨pattern, .ok result⟩ →
            let reading := (runFrom (ExpectRun.next simdutf) (startedExpect id max_buffer_bytes max_total_buffer_bytes) events).reading
            Reported reading.terminal.stream reading.start reading.cursor pattern result := by
  have answered : (runFrom (ExpectRun.next reference) (startedExpect 0 64 1024) brokenEvents).answer =
      some ⟨[0x61], .ok { splitResult with found := some [0x61], start_cursor := some 3, end_cursor := some 4, next_cursor := 4 }⟩ := by
    decide
  refine ⟨answered, fun always => ?_⟩
  have reported := always reference reference_documented 0 64 1024 brokenEvents (by decide) _ _ answered
  obtain ⟨_, endCursor, _, _, _, ended, _, _, _, bound, _⟩ := reported.place rfl
  cases ended
  exact absurd bound (by decide)

end reports

end Vacps.TerminalSessions
