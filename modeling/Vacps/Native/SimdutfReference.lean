import Vacps.Native.StreamingDecode

/- The functions of simdutf as its portable implementation computes them, for runs on concrete texts. -/
set_option autoImplicit false

namespace Vacps.Native

open Library Library.Utf8 Library.Utf16

section prefix_

variable {Letter Unit_ : Type} (code : Code Letter Unit_)

-- The letters before the first unit that is part of nothing.
def readable (text : List Unit_) : List Letter := ((code.scan text).takeWhile Option.isSome).filterMap id

theorem readable_words (letters : List Letter) : readable code (code.words letters) = letters := by
  have read := code.scan_words letters []
  rw [List.append_nil, Code.scan_nil, List.append_nil] at read
  have all : (letters.map some ++ []).takeWhile Option.isSome = letters.map some ++ [].takeWhile Option.isSome :=
    List.takeWhile_append_of_pos (by simp)
  rw [List.append_nil, List.takeWhile_nil, List.append_nil] at all
  rw [readable, read, all, List.filterMap_map]
  exact List.filterMap_some

theorem readable_stuck (letters : List Letter) (unit : Unit_) (rest : List Unit_) (stuck : code.first (unit :: rest) = none) :
    readable code (code.words letters ++ unit :: rest) = letters := by
  rw [readable, Code.scan_words, code.scan_stuck unit rest stuck, List.takeWhile_append_of_pos (by simp), List.takeWhile_cons_of_neg (by simp),
    List.append_nil, List.filterMap_map]
  exact List.filterMap_some

end prefix_

section functions

def referenceUtf16 (read : UInt16 → UInt16) : Utf16Functions where
  validate_utf16 buf := decide (none ∉ utf16Code.scan (buf.map read))
  convert_utf16_to_utf8 buf := utf8Code.words (readable utf16Code (buf.map read))
  convert_utf16_to_utf8_with_replacement buf := utf8Code.words (lettersOf (utf16Code.scan (buf.map read)))
  trim_partial_utf16 buf :=
    match buf.getLast? with
    | some unit => if isHigh (read unit) then buf.length - 1 else buf.length
    | none => 0

-- How many bytes a first byte asks for.
def asked (byte : UInt8) : Nat := if byte.toNat < 0xE0 then 1 else if byte.toNat < 0xF0 then 2 else 3

def errorAt : List UInt8 → ErrorCode
  | [] => .SUCCESS
  | byte :: rest =>
      if byte.toNat < 0x80 then .OTHER
      else if isInner byte then .TOO_LONG
      else if 0xF8 ≤ byte.toNat then .HEADER_BITS
      else if ((rest.take (asked byte)).takeWhile isInner).length < asked byte then .TOO_SHORT
      else if byte.toNat < 0xE0 then .OVERLONG
      else if byte.toNat = 0xED then .SURROGATE
      else if byte.toNat = 0xE0 ∨ byte.toNat = 0xF0 then .OVERLONG
      else .TOO_LARGE

def referenceErrors (data : List UInt8) : SimdResult :=
  let count := (utf8Code.words (readable utf8Code data)).length
  ⟨errorAt (data.drop count), count⟩

def trimPartial (data : List UInt8) : Nat :=
  match data.reverse with
  | [] => 0
  | last :: before =>
      if 0xC0 ≤ last.toNat then data.length - 1
      else match before with
        | [] => data.length
        | second :: before =>
            if 0xE0 ≤ second.toNat then data.length - 2
            else match before with
              | [] => data.length
              | third :: _ => if 0xF0 ≤ third.toNat then data.length - 3 else data.length

def reference : Simdutf where
  validate_utf8 data := decide (none ∉ utf8Code.scan data)
  validate_utf8_with_errors := referenceErrors
  convert_utf8_to_utf16le data := utf16Code.words (readable utf8Code data)
  convert_utf8_to_utf16le_with_errors data := (referenceErrors data, utf16Code.words (readable utf8Code data))
  trim_partial_utf8 := trimPartial
  utf16le := referenceUtf16 id
  utf16be := referenceUtf16 swapped
  check_bom := bomOf
  bom_byte_size
    | .UTF8 => 3
    | .UTF16_LE | .UTF16_BE => 2
    | .UTF32_LE | .UTF32_BE => 4
    | .unspecified => 0

end functions

section documented

theorem reference_utf16 (read : UInt16 → UInt16) : Documented16 (referenceUtf16 read) read where
  validate buf := decide_eq_true_iff.trans (utf16Code.scan_whole (buf.map read))
  convert buf chars same := by
    simp only [referenceUtf16]
    rw [same, readable_words]
  replace _ := rfl
  trim_nil := rfl
  trim_high buf unit high := by simp [referenceUtf16, high]
  trim_whole buf unit plain := by simp [referenceUtf16, plain]

theorem reference_words (chars : List Char) : referenceErrors (utf8Code.words chars) = ⟨.SUCCESS, (utf8Code.words chars).length⟩ := by
  rw [referenceErrors, readable_words, List.drop_length]
  rfl

theorem reference_stops (chars : List Char) (byte : UInt8) (rest : List UInt8) (stuck : utf8Code.first (byte :: rest) = none) :
    referenceErrors (utf8Code.words chars ++ byte :: rest) = ⟨errorAt (byte :: rest), (utf8Code.words chars).length⟩ := by
  simp only [referenceErrors]
  rw [readable_stuck utf8Code chars byte rest stuck, List.drop_left]

theorem error_some (byte : UInt8) (rest : List UInt8) : errorAt (byte :: rest) ≠ .SUCCESS := by
  rw [errorAt]
  repeat' split
  all_goals exact (fun same => nomatch same)

theorem error_leading (byte : UInt8) (rest : List UInt8) (short : errorAt (byte :: rest) = .TOO_SHORT) : isInner byte = false := by
  rw [errorAt] at short
  cases inner : isInner byte with
  | false => rfl
  | true =>
      rw [inner] at short
      split at short <;> cases short

-- A leading byte and fewer than it asks for.
theorem truncated_form (tail : List UInt8) (truncated : utf8Code.Truncated tail) :
    ∃ byte rest, tail = byte :: rest ∧ 0xC0 ≤ byte.toNat ∧ byte.toNat < 0xF8 ∧ (∀ inner ∈ rest, isInner inner = true) ∧
      rest.length < asked byte := by
  obtain ⟨some_, char, start, different⟩ := truncated
  obtain ⟨byte, rest, rfl⟩ := List.exists_cons_of_ne_nil some_
  have shorter : (byte :: rest).length < (utf8Code.word char).length :=
    Nat.lt_of_le_of_ne start.length_le fun same => different (start.eq_of_length same)
  have form : Form (utf8Code.word char) := word_form char
  generalize utf8Code.word char = word at start shorter form
  cases form with
  | one head low => simp at shorter
  | two head second range inner =>
      obtain ⟨rfl, within⟩ := List.cons_prefix_cons.mp start
      refine ⟨byte, rest, rfl, range.1, by omega, fun _ member => ?_, ?_⟩
      · have inside := within.subset member
        simp at inside
        exact inside ▸ inner
      · simp only [asked, if_pos range.2]
        exact Nat.lt_of_succ_lt_succ shorter
  | three head second third range innerSecond innerThird =>
      obtain ⟨rfl, within⟩ := List.cons_prefix_cons.mp start
      refine ⟨byte, rest, rfl, by omega, by omega, fun _ member => ?_, ?_⟩
      · rcases (by simpa using within.subset member : _ ∨ _) with rfl | rfl
        · exact innerSecond
        · exact innerThird
      · simp only [asked, if_neg (show ¬byte.toNat < 0xE0 by omega), if_pos range.2]
        exact Nat.lt_of_succ_lt_succ shorter
  | four head second third fourth range innerSecond innerThird innerFourth =>
      obtain ⟨rfl, within⟩ := List.cons_prefix_cons.mp start
      refine ⟨byte, rest, rfl, by omega, range.2, fun _ member => ?_, ?_⟩
      · rcases (by simpa using within.subset member : _ ∨ _ ∨ _) with rfl | rfl | rfl
        · exact innerSecond
        · exact innerThird
        · exact innerFourth
      · simp only [asked, if_neg (show ¬byte.toNat < 0xE0 by omega), if_neg (show ¬byte.toNat < 0xF0 by omega)]
        exact Nat.lt_of_succ_lt_succ shorter

theorem error_truncated (tail : List UInt8) (truncated : utf8Code.Truncated tail) : errorAt tail = .TOO_SHORT := by
  obtain ⟨byte, rest, rfl, low, high, _, short⟩ := truncated_form tail truncated
  have outer : isInner byte = false := by
    simp only [isInner, Bool.and_eq_false_iff, decide_eq_false_iff_not]
    omega
  have few : ((rest.take (asked byte)).takeWhile isInner).length < asked byte :=
    Nat.lt_of_le_of_lt (((List.takeWhile_sublist _).trans (List.take_sublist _ _)).length_le) short
  rw [errorAt, if_neg (by omega), outer, if_neg Bool.false_ne_true, if_neg (by omega), if_pos few]

theorem inner_below (byte : UInt8) (inner : isInner byte = true) : byte.toNat < 0xC0 := by
  rw [isInner, Bool.and_eq_true, decide_eq_true_iff, decide_eq_true_iff] at inner
  exact inner.2

theorem trim_truncated (front tail : List UInt8) (truncated : utf8Code.Truncated tail) : trimPartial (front ++ tail) = front.length := by
  have three := truncated_three tail truncated
  obtain ⟨byte, rest, rfl, low, high, inner, short⟩ := truncated_form tail truncated
  match rest, three with
  | [], _ => simp [trimPartial, low]
  | [second], _ =>
      have last := inner_below second (inner second (by simp))
      have lead : 0xE0 ≤ byte.toNat := by
        by_contra small
        rw [asked, if_pos (by omega)] at short
        simp at short
      simp [trimPartial, show ¬192 ≤ second.toNat by omega, lead]
  | [second, third], _ =>
      have last := inner_below third (inner third (by simp))
      have middle := inner_below second (inner second (by simp))
      have lead : 0xF0 ≤ byte.toNat := by
        by_contra small
        rw [asked] at short
        split at short
        · simp at short
        · simp [show byte.toNat < 240 by omega] at short
      simp [trimPartial, show ¬192 ≤ third.toNat by omega, show ¬224 ≤ second.toNat by omega, lead]

theorem trim_leading (data : List UInt8) : trimPartial data = data.length ∨
    ∃ front byte rest, data = front ++ byte :: rest ∧ isInner byte = false ∧ trimPartial data = front.length := by
  have outer : ∀ byte : UInt8, 0xC0 ≤ byte.toNat → isInner byte = false := by
    intro byte high
    simp only [isInner, Bool.and_eq_false_iff, decide_eq_false_iff_not]
    omega
  -- A cut before the byte with so many behind it.
  have cut : ∀ (front : List UInt8) byte rest, data = front ++ byte :: rest → 0xC0 ≤ byte.toNat →
      trimPartial data = data.length - (rest.length + 1) → trimPartial data = data.length ∨
        ∃ front byte rest, data = front ++ byte :: rest ∧ isInner byte = false ∧ trimPartial data = front.length := by
    intro front byte rest same high trimmed
    refine Or.inr ⟨front, byte, rest, same, outer byte high, ?_⟩
    rw [trimmed, same, List.length_append, List.length_cons, Nat.add_sub_cancel]
  have back := List.reverse_reverse data
  cases reversed : data.reverse with
  | nil =>
      rw [reversed] at back
      exact Or.inl (by rw [← back]; rfl)
  | cons last before =>
      rw [reversed] at back
      by_cases lead : 0xC0 ≤ last.toNat
      · exact cut before.reverse last [] (by rw [← back, List.reverse_cons]) lead (by simp [trimPartial, reversed, lead])
      · cases before with
        | nil => exact Or.inl (by simp [trimPartial, reversed, lead])
        | cons second before =>
            by_cases leadSecond : 0xE0 ≤ second.toNat
            · refine cut before.reverse second [last] (by simp [← back]) (by omega) ?_
              simp [trimPartial, reversed, lead, leadSecond]
            · cases before with
              | nil => exact Or.inl (by simp [trimPartial, reversed, lead, leadSecond])
              | cons third before =>
                  by_cases leadThird : 0xF0 ≤ third.toNat
                  · refine cut before.reverse third [second, last] (by simp [← back]) (by omega) ?_
                    simp [trimPartial, reversed, lead, leadSecond, leadThird]
                  · exact Or.inl (by simp [trimPartial, reversed, lead, leadSecond, leadThird])

theorem reference_documented : Documented reference where
  validate data := decide_eq_true_iff.trans (utf8Code.scan_whole data)
  success chars := congrArg SimdResult.error (reference_words chars)
  stops chars byte rest stuck := by
    change (referenceErrors _).error ≠ _ ∧ (referenceErrors _).count = _
    rw [reference_stops chars byte rest stuck]
    exact ⟨error_some byte rest, rfl⟩
  truncated chars tail truncated := by
    obtain ⟨byte, rest, rfl, _⟩ := utf8Code.truncated_starts tail truncated
    change (referenceErrors _).error = _
    rw [reference_stops chars byte rest (utf8Code.truncated_stuck _ truncated)]
    exact error_truncated _ truncated
  leading chars byte rest stuck short := by
    change (referenceErrors _).error = _ at short
    rw [reference_stops chars byte rest stuck] at short
    exact error_leading byte rest short
  convert chars := congrArg utf16Code.words (readable_words utf8Code chars)
  converted chars := ⟨congrArg SimdResult.error (reference_words chars), congrArg utf16Code.words (readable_words utf8Code chars)⟩
  refused chars byte rest stuck := by
    change (referenceErrors _).error ≠ _ ∧ (referenceErrors _).count = _
    rw [reference_stops chars byte rest stuck]
    exact ⟨error_some byte rest, rfl⟩
  trim_truncated := trim_truncated
  trim_leading := trim_leading
  utf16le := reference_utf16 id
  utf16be := reference_utf16 swapped
  check_bom _ := rfl
  bom_byte_size := ⟨rfl, rfl, rfl⟩

end documented

end Vacps.Native
