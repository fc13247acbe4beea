import Vacps.Native.TextDecoder

/- Decoding a text in chunks against decoding it at once. -/
set_option autoImplicit false

namespace Vacps.Native

open Library Library.Utf8 Library.Utf16

section documented

def replacement : Char := Char.ofNat 0xFFFD

-- The text of what has been read, with U+FFFD for each unit that is part of nothing.
def lettersOf (tokens : List (Option Char)) : List Char := tokens.map fun token => token.getD replacement

def swapped (unit : UInt16) : UInt16 := UInt16.ofNat (unit.toNat % 256 * 256 + unit.toNat / 256)

-- What simdutf promises of one byte order; partial characters are trimmed by the end of the text alone.
structure Documented16 (functions : Utf16Functions) (read : UInt16 → UInt16) : Prop where
  validate : ∀ buf, functions.validate_utf16 buf = true ↔ ∃ chars, buf.map read = utf16Code.words chars
  convert : ∀ buf chars, buf.map read = utf16Code.words chars → functions.convert_utf16_to_utf8 buf = utf8Code.words chars
  replace : ∀ buf, functions.convert_utf16_to_utf8_with_replacement buf = utf8Code.words (lettersOf (utf16Code.scan (buf.map read)))
  trim_nil : functions.trim_partial_utf16 [] = 0
  trim_high : ∀ buf unit, isHigh (read unit) = true → functions.trim_partial_utf16 (buf ++ [unit]) = buf.length
  trim_whole : ∀ buf unit, isHigh (read unit) = false → functions.trim_partial_utf16 (buf ++ [unit]) = buf.length + 1

-- The byte order marks, the longer of two first.
def bomOf : List UInt8 → EncodingType
  | 0xFF :: 0xFE :: 0x00 :: 0x00 :: _ => .UTF32_LE
  | 0xFF :: 0xFE :: _ => .UTF16_LE
  | 0xFE :: 0xFF :: _ => .UTF16_BE
  | 0x00 :: 0x00 :: 0xFE :: 0xFF :: _ => .UTF32_BE
  | 0xEF :: 0xBB :: 0xBF :: _ => .UTF8
  | _ => .unspecified

-- An error is found where the first character that is none starts.
structure Documented (simdutf : Simdutf) : Prop where
  validate : ∀ data, simdutf.validate_utf8 data = true ↔ ∃ chars, data = utf8Code.words chars
  success : ∀ chars, (simdutf.validate_utf8_with_errors (utf8Code.words chars)).error = .SUCCESS
  stops : ∀ chars byte rest, utf8Code.first (byte :: rest) = none →
    (simdutf.validate_utf8_with_errors (utf8Code.words chars ++ byte :: rest)).error ≠ .SUCCESS ∧
      (simdutf.validate_utf8_with_errors (utf8Code.words chars ++ byte :: rest)).count = (utf8Code.words chars).length
  -- TOO_SHORT is about a leading byte, and is the error when the input is truncated.
  truncated : ∀ chars tail, utf8Code.Truncated tail →
    (simdutf.validate_utf8_with_errors (utf8Code.words chars ++ tail)).error = .TOO_SHORT
  leading : ∀ chars byte rest, utf8Code.first (byte :: rest) = none →
    (simdutf.validate_utf8_with_errors (utf8Code.words chars ++ byte :: rest)).error = .TOO_SHORT → isInner byte = false
  convert : ∀ chars, simdutf.convert_utf8_to_utf16le (utf8Code.words chars) = utf16Code.words chars
  converted : ∀ chars, (simdutf.convert_utf8_to_utf16le_with_errors (utf8Code.words chars)).1.error = .SUCCESS ∧
    (simdutf.convert_utf8_to_utf16le_with_errors (utf8Code.words chars)).2 = utf16Code.words chars
  refused : ∀ chars byte rest, utf8Code.first (byte :: rest) = none →
    (simdutf.convert_utf8_to_utf16le_with_errors (utf8Code.words chars ++ byte :: rest)).1.error ≠ .SUCCESS ∧
      (simdutf.convert_utf8_to_utf16le_with_errors (utf8Code.words chars ++ byte :: rest)).1.count = (utf8Code.words chars).length
  -- The end of the text decides: a truncated character is cut off, and nothing is cut but before a leading byte.
  trim_truncated : ∀ front tail, utf8Code.Truncated tail → simdutf.trim_partial_utf8 (front ++ tail) = front.length
  trim_leading : ∀ data, simdutf.trim_partial_utf8 data = data.length ∨
    ∃ front byte rest, data = front ++ byte :: rest ∧ isInner byte = false ∧ simdutf.trim_partial_utf8 data = front.length
  utf16le : Documented16 simdutf.utf16le id
  utf16be : Documented16 simdutf.utf16be swapped
  check_bom : ∀ data, simdutf.check_bom data = bomOf data
  bom_byte_size : simdutf.bom_byte_size .UTF8 = 3 ∧ simdutf.bom_byte_size .UTF16_LE = 2 ∧ simdutf.bom_byte_size .UTF16_BE = 2

end documented

section rendering

-- The text, or an error in fatal mode if some unit is part of nothing.
def render (fatal : Bool) (tokens : List (Option Char)) : Decoded :=
  if fatal = true ∧ none ∈ tokens then notValid else .ok (utf8Code.words (lettersOf tokens))

@[simp] theorem letters_append (front back : List (Option Char)) : lettersOf (front ++ back) = lettersOf front ++ lettersOf back :=
  List.map_append

theorem letters_some (chars : List Char) : lettersOf (chars.map some) = chars := by
  rw [lettersOf, List.map_map]
  exact List.map_id chars

theorem render_append (fatal : Bool) (front back : List (Option Char)) :
    render fatal (front ++ back) =
      match render fatal front with
      | .ok out => (render fatal back).map (out ++ ·)
      | .error error => .error error := by
  unfold render
  by_cases first : fatal = true ∧ none ∈ front
  · rw [if_pos first, if_pos ⟨first.1, List.mem_append_left _ first.2⟩]
    rfl
  · rw [if_neg first]
    by_cases second : fatal = true ∧ none ∈ back
    · rw [if_pos second, if_pos ⟨second.1, List.mem_append_right _ second.2⟩]
      rfl
    · have neither : ¬(fatal = true ∧ none ∈ front ++ back) := by
        rintro ⟨strict, member⟩
        rcases List.mem_append.mp member with inside | inside
        · exact first ⟨strict, inside⟩
        · exact second ⟨strict, inside⟩
      rw [if_neg second, if_neg neither, letters_append, Code.words_append]
      rfl

end rendering

section wellFormed

variable (simdutf : Simdutf) (documented : Documented simdutf)

include documented

theorem replace_errors (fuel : Nat) (data : List UInt8) (enough : data.length ≤ fuel) :
    replaceErrors simdutf fuel data = utf16Code.words (lettersOf (utf8Code.scan data)) := by
  induction fuel generalizing data with
  | zero =>
      rw [List.eq_nil_of_length_eq_zero (Nat.le_zero.mp enough)]
      rfl
  | succ fuel ih =>
      cases data with
      | nil => rfl
      | cons byte rest =>
          rw [replaceErrors]
          obtain ⟨chars, stuck, same, none_⟩ := utf8Code.split_words (byte :: rest)
          rw [same, Code.scan_words]
          cases stuck with
          | nil =>
              obtain ⟨success, units⟩ := documented.converted chars
              rw [List.append_nil]
              dsimp only
              rw [if_pos success, units, Code.scan_nil, List.append_nil, letters_some]
          | cons bad others =>
              obtain ⟨failed, count⟩ := documented.refused chars bad others none_
              dsimp only
              rw [if_neg failed, count, List.take_left, ← List.drop_drop, List.drop_left, List.drop_succ_cons, List.drop_zero,
                Code.scan_stuck utf8Code bad others none_, ih others ?_]
              · by_cases first : 0 < (utf8Code.words chars).length
                · rw [if_pos first, documented.convert, letters_append, letters_some, Code.words_append]
                  rfl
                · have nothing := List.eq_nil_of_length_eq_zero (Nat.eq_zero_of_not_pos first)
                  rw [if_neg first]
                  cases chars with
                  | nil => rfl
                  | cons char later =>
                      rw [Code.words_cons] at nothing
                      exact absurd (List.append_eq_nil_iff.mp nothing).1 (utf8Code.word_some char)
              · have length := congrArg List.length same
                rw [List.length_append, List.length_cons, List.length_cons] at length
                rw [List.length_cons] at enough
                omega

theorem well_formed (data : List UInt8) (fatal : Bool) : utf8_to_well_formed simdutf data fatal = render fatal (utf8Code.scan data) := by
  unfold utf8_to_well_formed
  by_cases empty : data = []
  · rw [if_pos empty, empty]
    simp [render, lettersOf]
  · rw [if_neg empty]
    by_cases valid : simdutf.validate_utf8 data = true
    · obtain ⟨chars, rfl⟩ := (documented.validate data).mp valid
      have read := utf8Code.scan_words chars []
      rw [List.append_nil, Code.scan_nil, List.append_nil] at read
      rw [if_pos valid, read, render, if_neg (by simp), letters_some]
    · have broken : none ∈ utf8Code.scan data := by
        by_contra whole
        exact valid ((documented.validate data).mpr ((utf8Code.scan_whole data).mp whole))
      rw [if_neg valid, render]
      cases fatal with
      | true => rw [if_pos rfl, if_pos ⟨rfl, broken⟩]
      | false =>
          rw [if_neg Bool.false_ne_true, if_neg (by simp), replace_errors simdutf documented data.length data (Nat.le_refl _)]
          rw [documented.utf16le.convert _ (lettersOf (utf8Code.scan data)) (List.map_id _)]

end wellFormed

section peelUtf8

variable (simdutf : Simdutf) (documented : Documented simdutf)

include documented

-- TOO_SHORT at once: the text starts with a leading byte that its character does not follow.
theorem short_leading (data : List UInt8) (short : (simdutf.validate_utf8_with_errors data).error = .TOO_SHORT)
    (at_ : (simdutf.validate_utf8_with_errors data).count = 0) : ∃ byte rest, data = byte :: rest ∧ isInner byte = false := by
  obtain ⟨chars, stuck, rfl, none_⟩ := utf8Code.split_words data
  cases stuck with
  | nil =>
      rw [List.append_nil, documented.success] at short
      cases short
  | cons byte rest =>
      have start : utf8Code.words chars = [] := by
        have count := (documented.stops chars byte rest none_).2
        rw [at_] at count
        exact List.eq_nil_of_length_eq_zero count.symm
      exact ⟨byte, rest, by rw [start]; rfl, documented.leading chars byte rest none_ short⟩

theorem truncated_short_here (tail : List UInt8) (truncated : utf8Code.Truncated tail) :
    (simdutf.validate_utf8_with_errors tail).error = .TOO_SHORT ∧ (simdutf.validate_utf8_with_errors tail).count = 0 := by
  obtain ⟨byte, rest, rfl, _⟩ := utf8Code.truncated_starts tail truncated
  exact ⟨documented.truncated [] (byte :: rest) truncated,
    (documented.stops [] byte rest (utf8Code.truncated_stuck _ truncated)).2⟩

omit documented in
theorem suffix_cases (data : List UInt8) (starts : List Nat) :
    (incompleteSuffix simdutf data starts = data.length ∧ ∀ start ∈ starts,
        ¬((simdutf.validate_utf8_with_errors (data.drop start)).error = .TOO_SHORT ∧
          (simdutf.validate_utf8_with_errors (data.drop start)).count = 0)) ∨
      ∃ start ∈ starts, incompleteSuffix simdutf data starts = start ∧
        (simdutf.validate_utf8_with_errors (data.drop start)).error = .TOO_SHORT ∧
        (simdutf.validate_utf8_with_errors (data.drop start)).count = 0 := by
  induction starts with
  | nil => exact Or.inl ⟨rfl, by simp⟩
  | cons start later ih =>
      rw [incompleteSuffix]
      by_cases short : (simdutf.validate_utf8_with_errors (data.drop start)).error = .TOO_SHORT ∧
          (simdutf.validate_utf8_with_errors (data.drop start)).count = 0
      · rw [if_pos short]
        exact Or.inr ⟨start, List.mem_cons_self, rfl, short⟩
      · rw [if_neg short]
        rcases ih with ⟨whole, others⟩ | ⟨found, member, same, here⟩
        · refine Or.inl ⟨whole, ?_⟩
          intro other member
          rcases List.mem_cons.mp member with rfl | inside
          · exact short
          · exact others other inside
        · exact Or.inr ⟨found, List.mem_cons_of_mem _ member, same, here⟩

omit documented in
theorem truncated_three (tail : List UInt8) (truncated : utf8Code.Truncated tail) : tail.length ≤ 3 := by
  obtain ⟨char, short⟩ := utf8Code.truncated_short tail truncated
  have long : (utf8Code.word char).length ≤ 4 := by
    change (String.utf8EncodeChar char).length ≤ 4
    rw [String.length_utf8EncodeChar]
    exact Char.utf8Size_le_four char
  omega

-- What is kept ends where no character goes on: before a leading byte, or where nothing is truncated.
theorem peel_utf8 (data : List UInt8) :
    (peel_utf8_stream_remainder simdutf data = data.length ∧ ∀ tail, tail <:+ data → ¬utf8Code.Truncated tail) ∨
      ∃ front byte rest, data = front ++ byte :: rest ∧ isInner byte = false ∧
        peel_utf8_stream_remainder simdutf data = front.length := by
  unfold peel_utf8_stream_remainder
  by_cases empty : data = []
  · refine Or.inl ⟨by rw [if_pos empty, empty]; rfl, ?_⟩
    intro tail inside truncated
    rw [empty, List.suffix_nil] at inside
    exact truncated.1 inside
  · rw [if_neg empty]
    dsimp only
    split
    · by_cases cut : ∃ tail, tail <:+ data ∧ utf8Code.Truncated tail
      · obtain ⟨tail, ⟨front, same⟩, truncated⟩ := cut
        obtain ⟨byte, rest, rfl, outer⟩ := utf8Code.truncated_starts tail truncated
        exact Or.inr ⟨front, byte, rest, same.symm, outer, by rw [← same]; exact documented.trim_truncated front _ truncated⟩
      · rcases documented.trim_leading data with whole | leading
        · exact Or.inl ⟨whole, fun tail inside truncated => cut ⟨tail, inside, truncated⟩⟩
        · exact Or.inr leading
    · rcases suffix_cases simdutf data ((List.range data.length).drop (if 3 < data.length then data.length - 3 else 0)) with
        ⟨whole, others⟩ | ⟨start, member, same, short, at_⟩
      · refine Or.inl ⟨whole, ?_⟩
        rintro tail ⟨front, same⟩ truncated
        have three := truncated_three tail truncated
        have some_ := List.length_pos_of_ne_nil truncated.1
        have length := congrArg List.length same
        rw [List.length_append] at length
        refine others front.length ?_ ?_
        · have window : (if 3 < data.length then data.length - 3 else 0) ≤ front.length := by
            split <;> omega
          refine List.mem_drop_iff_getElem.mpr ⟨front.length - (if 3 < data.length then data.length - 3 else 0), ?_, ?_⟩
          · rw [List.length_range]
            omega
          · rw [List.getElem_range]
            omega
        · rw [← same, List.drop_left]
          exact truncated_short_here simdutf documented tail truncated
      · obtain ⟨byte, rest, tail, outer⟩ := short_leading simdutf documented (data.drop start) short at_
        refine Or.inr ⟨data.take start, byte, rest, ?_, outer, ?_⟩
        · rw [← tail, List.take_append_drop]
        · have bound := List.mem_range.mp (List.mem_of_mem_drop member)
          rw [same, List.length_take]
          omega

theorem scan_peeled (data more : List UInt8) :
    utf8Code.scan (data ++ more) =
      utf8Code.scan (data.take (peel_utf8_stream_remainder simdutf data)) ++
        utf8Code.scan (data.drop (peel_utf8_stream_remainder simdutf data) ++ more) := by
  rcases peel_utf8 simdutf documented data with ⟨whole, end_⟩ | ⟨front, byte, rest, same, outer, cut⟩
  · rw [whole, List.take_length, List.drop_length, List.nil_append]
    exact utf8Code.scan_cut data more (utf8Code.cut_whole data more end_)
  · rw [cut, same, List.take_left, List.drop_left, List.append_assoc]
    exact utf8Code.scan_cut front (byte :: rest ++ more) (utf8Code.cut_starts front byte (rest ++ more) outer)

end peelUtf8

section units

theorem char16s_append (front back : List UInt8) (even : front.length % 2 = 0) : char16s (front ++ back) = char16s front ++ char16s back := by
  induction front using char16s.induct with
  | case1 low high rest ih =>
      rw [List.length_cons, List.length_cons] at even
      rw [List.cons_append, List.cons_append, char16s, char16s, ih (by omega)]
      rfl
  | case2 front short =>
      cases front with
      | nil => rfl
      | cons low rest =>
          cases rest with
          | nil => cases even
          | cons high rest => exact absurd rfl (short low high rest)

theorem char16s_length (bytes : List UInt8) : (char16s bytes).length = bytes.length / 2 := by
  induction bytes using char16s.induct with
  | case1 low high rest ih =>
      rw [char16s, List.length_cons, List.length_cons, List.length_cons, ih]
      omega
  | case2 bytes short =>
      rw [char16s]
      · cases bytes with
        | nil => rfl
        | cons low rest =>
            cases rest with
            | nil => simp
            | cons high rest => exact absurd rfl (short low high rest)
      · exact short

theorem char16s_take (bytes : List UInt8) (count : Nat) : char16s (bytes.take (2 * count)) = (char16s bytes).take count := by
  by_cases inside : 2 * count ≤ bytes.length
  · have length : (bytes.take (2 * count)).length = 2 * count := by rw [List.length_take]; omega
    have split_ := char16s_append (bytes.take (2 * count)) (bytes.drop (2 * count)) (by omega)
    rw [List.take_append_drop] at split_
    have half : (char16s (bytes.take (2 * count))).length = count := by rw [char16s_length, length]; omega
    rw [split_, List.take_left' half]
  · rw [List.take_of_length_le (by omega), List.take_of_length_le (by rw [char16s_length]; omega)]

end units

section utf16

variable (simdutf : Simdutf) (documented : Documented simdutf) (little_endian : Bool)

-- How the units of a byte order are read.
def ordered (little_endian : Bool) : UInt16 → UInt16 := if little_endian then id else swapped

def unitsOf (bytes : List UInt8) : List UInt16 := (char16s bytes).map (ordered little_endian)

theorem units_append (front back : List UInt8) (even : front.length % 2 = 0) :
    unitsOf little_endian (front ++ back) = unitsOf little_endian front ++ unitsOf little_endian back := by
  rw [unitsOf, char16s_append front back even, List.map_append]
  rfl

include documented

theorem documented_order : Documented16 (simdutf.utf16 little_endian) (ordered little_endian) := by
  cases little_endian with
  | true => exact documented.utf16le
  | false => exact documented.utf16be

theorem utf16_to_utf8 (bytes : List UInt8) (fatal : Bool) (even : bytes.length % 2 = 0) :
    utf16_bytes_to_utf8 simdutf bytes little_endian fatal = render fatal (utf16Code.scan (unitsOf little_endian bytes)) := by
  have order := documented_order simdutf documented little_endian
  unfold utf16_bytes_to_utf8
  by_cases empty : bytes = []
  · rw [if_pos empty, empty]
    simp [render, lettersOf, unitsOf, char16s]
  · rw [if_neg empty, if_neg (by omega)]
    dsimp only
    by_cases valid : (simdutf.utf16 little_endian).validate_utf16 (char16s bytes) = true
    · obtain ⟨letters, same⟩ := (order.validate _).mp valid
      have read := utf16Code.scan_words letters []
      rw [List.append_nil, Code.scan_nil, List.append_nil, ← same] at read
      rw [if_pos valid, order.convert _ letters same, unitsOf, read, render, if_neg (by simp), letters_some]
    · have broken : none ∈ utf16Code.scan (unitsOf little_endian bytes) := by
        by_contra whole
        exact valid ((order.validate _).mpr ((utf16Code.scan_whole _).mp whole))
      rw [if_neg valid, render]
      cases fatal with
      | true => rw [if_pos rfl, if_pos ⟨rfl, broken⟩]
      | false =>
          rw [if_neg Bool.false_ne_true, if_neg (by simp), order.replace]
          rfl

-- A high surrogate at the end waits for what follows.
theorem scan_trimmed (buf : List UInt16) (more : List UInt16) :
    (simdutf.utf16 little_endian).trim_partial_utf16 buf ≤ buf.length ∧
      utf16Code.scan (buf.map (ordered little_endian) ++ more) =
        utf16Code.scan ((buf.take ((simdutf.utf16 little_endian).trim_partial_utf16 buf)).map (ordered little_endian)) ++
          utf16Code.scan ((buf.drop ((simdutf.utf16 little_endian).trim_partial_utf16 buf)).map (ordered little_endian) ++ more) := by
  have order := documented_order simdutf documented little_endian
  rcases List.eq_nil_or_concat buf with rfl | ⟨front, unit, rfl⟩
  · rw [order.trim_nil]
    exact ⟨Nat.le_refl 0, rfl⟩
  · rw [List.concat_eq_append]
    cases high : isHigh (ordered little_endian unit) with
    | true =>
        rw [order.trim_high front unit high, List.take_left, List.drop_left, List.map_append, List.append_assoc]
        refine ⟨by simp, utf16Code.scan_cut _ _ (utf16Code.cut_starts _ (ordered little_endian unit) more ?_)⟩
        exact high_not_low _ high
    | false =>
        have length : (front ++ [unit]).length = front.length + 1 := List.length_append
        rw [order.trim_whole front unit high, ← length, List.take_length, List.drop_length]
        refine ⟨Nat.le_refl _, utf16Code.scan_cut _ _ (utf16Code.cut_whole _ more ?_)⟩
        rintro tail inside truncated
        obtain ⟨last, rfl, high_⟩ := truncated_high tail truncated
        rw [List.map_append, List.map_singleton] at inside
        obtain ⟨before, same⟩ := inside
        have ends := (List.append_inj' same rfl).2
        rw [List.cons.injEq] at ends
        rw [ends.1, high] at high_
        cases high_

theorem peel_utf16 (bytes : List UInt8) (even : bytes.length % 2 = 0) (more : List UInt16) :
    peel_utf16_stream_remainder simdutf bytes little_endian ≤ bytes.length ∧
      peel_utf16_stream_remainder simdutf bytes little_endian % 2 = 0 ∧
      utf16Code.scan (unitsOf little_endian bytes ++ more) =
        utf16Code.scan (unitsOf little_endian (bytes.take (peel_utf16_stream_remainder simdutf bytes little_endian))) ++
          utf16Code.scan (unitsOf little_endian (bytes.drop (peel_utf16_stream_remainder simdutf bytes little_endian)) ++ more) := by
  unfold peel_utf16_stream_remainder
  by_cases short : bytes.length < 2
  · have nothing := List.eq_nil_of_length_eq_zero (show bytes.length = 0 by omega)
    rw [if_pos short, nothing]
    exact ⟨Nat.le_refl 0, rfl, rfl⟩
  · rw [if_neg short]
    obtain ⟨bound, same⟩ := scan_trimmed simdutf documented little_endian (char16s bytes) more
    generalize (simdutf.utf16 little_endian).trim_partial_utf16 (char16s bytes) = kept at bound same ⊢
    rw [char16s_length] at bound
    have behind : char16s (bytes.drop (2 * kept)) = (char16s bytes).drop kept := by
      have split_ := char16s_append (bytes.take (2 * kept)) (bytes.drop (2 * kept)) (by rw [List.length_take]; omega)
      rw [List.take_append_drop, char16s_take] at split_
      have whole := List.take_append_drop kept (char16s bytes)
      exact (List.append_cancel_left (whole.trans split_)).symm
    refine ⟨by omega, by omega, ?_⟩
    rw [unitsOf, same, unitsOf, char16s_take, unitsOf, behind]

end utf16

section calls

variable (simdutf : Simdutf) (documented : Documented simdutf)

-- A last odd byte is part of nothing.
def tokens16 (little_endian : Bool) (bytes : List UInt8) : List (Option Char) :=
  utf16Code.scan (unitsOf little_endian bytes) ++ if bytes.length % 2 = 0 then [] else [none]

def tokens : Encoding → List UInt8 → List (Option Char)
  | .utf8, bytes => utf8Code.scan bytes
  | .utf16le, bytes => tokens16 true bytes
  | .utf16be, bytes => tokens16 false bytes

theorem tokens16_split (little_endian : Bool) (even odd : List UInt8) (pairs : even.length % 2 = 0) (rest : odd.length < 2) :
    tokens16 little_endian (even ++ odd) = utf16Code.scan (unitsOf little_endian even) ++ if odd = [] then [] else [none] := by
  have nothing : unitsOf little_endian odd = [] := by
    rw [unitsOf, List.eq_nil_of_length_eq_zero (show (char16s odd).length = 0 by rw [char16s_length]; omega)]
    rfl
  rw [tokens16, units_append little_endian even odd pairs, nothing, List.append_nil, List.length_append]
  cases odd with
  | nil => rw [List.length_nil, Nat.add_zero, if_pos pairs, if_pos rfl]
  | cons byte others =>
      rw [List.length_cons] at rest ⊢
      rw [if_neg (by omega), if_neg (by simp)]

theorem tokens16_append (little_endian : Bool) (front back : List UInt8) (even : front.length % 2 = 0)
    (cut : utf16Code.scan (unitsOf little_endian front ++ unitsOf little_endian back) =
      utf16Code.scan (unitsOf little_endian front) ++ utf16Code.scan (unitsOf little_endian back)) :
    tokens16 little_endian (front ++ back) = utf16Code.scan (unitsOf little_endian front) ++ tokens16 little_endian back := by
  have parity : (front ++ back).length % 2 = back.length % 2 := by rw [List.length_append]; omega
  rw [tokens16, parity, units_append little_endian front back even, cut, List.append_assoc]
  rfl

include documented

theorem replacement_appended (out : List UInt8) : append_replacement simdutf out = out ++ utf8Code.words [replacement] := by
  rw [append_replacement, documented.utf16le.convert [0xFFFD] [replacement] (by decide)]

theorem utf16_last (little_endian : Bool) (decoder : Decoder) (seen : decoder.bom_seen_ = true) (data : List UInt8) :
    (decoder.decode_utf16 simdutf data false little_endian).1 = render decoder.fatal_ (tokens16 little_endian data) := by
  have pairs : (data.take (data.length - data.length % 2)).length % 2 = 0 := by rw [List.length_take]; omega
  have rest : (data.drop (data.length - data.length % 2)).length < 2 := by rw [List.length_drop]; omega
  have whole := List.take_append_drop (data.length - data.length % 2) data
  have read := tokens16_split little_endian _ _ pairs rest
  rw [whole] at read
  have converted := utf16_to_utf8 simdutf documented little_endian _ decoder.fatal_ pairs
  unfold Decoder.decode_utf16
  simp only [seen, skip_bom_if, Bool.not_true, Bool.false_and, Bool.false_eq_true, if_false, Bool.true_or, if_true, List.drop_zero,
    Bool.not_false, Bool.and_true, List.take_length]
  rw [read, converted]
  cases odd : data.drop (data.length - data.length % 2) with
  | nil =>
      simp only [List.isEmpty_nil, Bool.not_true, Bool.false_and, Bool.false_eq_true, if_false, if_true, List.append_nil]
      cases render decoder.fatal_ (utf16Code.scan (unitsOf little_endian (data.take (data.length - data.length % 2)))) <;> rfl
  | cons byte others =>
      rw [if_neg (List.cons_ne_nil byte others)]
      simp only [List.isEmpty_cons, Bool.not_false, Bool.true_and]
      cases strict : decoder.fatal_ with
      | true => rw [if_pos rfl, render, if_pos ⟨rfl, by simp⟩]
      | false =>
          rw [render_append]
          simp only [render, Bool.false_eq_true, false_and, if_false, Bool.not_false, if_true, replacement_appended simdutf documented]
          rfl

theorem utf16_next (little_endian : Bool) (decoder : Decoder) (seen : decoder.bom_seen_ = true) (taken : decoder.remainder_ = [])
    (data : List UInt8) : ∃ front rest, decoder.decode_utf16 simdutf data true little_endian =
        (render decoder.fatal_ front, { decoder with remainder_ := rest }) ∧
      ∀ more, tokens16 little_endian (data ++ more) = front ++ tokens16 little_endian (rest ++ more) := by
  have pairs : (data.take (data.length - data.length % 2)).length % 2 = 0 := by rw [List.length_take]; omega
  have whole := List.take_append_drop (data.length - data.length % 2) data
  unfold Decoder.decode_utf16
  simp only [seen, skip_bom_if, Bool.not_true, Bool.false_and, Bool.false_eq_true, if_false, Bool.true_or, if_true, List.drop_zero,
    Bool.and_false, Bool.true_and, taken, List.nil_append, decide_eq_true_iff]
  generalize data.take (data.length - data.length % 2) = even at pairs whole ⊢
  generalize data.drop (data.length - data.length % 2) = odd at whole ⊢
  -- What is left over is too short to be peeled.
  have kept : (if 2 ≤ even.length then peel_utf16_stream_remainder simdutf even little_endian else even.length) =
      peel_utf16_stream_remainder simdutf even little_endian := by
    by_cases long : 2 ≤ even.length
    · rw [if_pos long]
    · rw [if_neg long, peel_utf16_stream_remainder, if_pos (by omega)]
  have left : (if 2 ≤ even.length then even.drop (peel_utf16_stream_remainder simdutf even little_endian) else []) =
      even.drop (peel_utf16_stream_remainder simdutf even little_endian) := by
    by_cases long : 2 ≤ even.length
    · rw [if_pos long]
    · rw [if_neg long, peel_utf16_stream_remainder, if_pos (by omega), List.drop_length]
  rw [kept, left]
  have peeled := peel_utf16 simdutf documented little_endian even pairs
  generalize peel_utf16_stream_remainder simdutf even little_endian = keep at peeled ⊢
  obtain ⟨bound, pairs_, _⟩ := peeled []
  have front : (even.take keep).length % 2 = 0 := by rw [List.length_take]; omega
  rw [utf16_to_utf8 simdutf documented little_endian _ decoder.fatal_ front]
  refine ⟨utf16Code.scan (unitsOf little_endian (even.take keep)), even.drop keep ++ odd, ?_, ?_⟩
  · cases decoder with
    | mk encoding fatal ignore_bom bom_seen remainder =>
        cases seen
        cases render fatal (utf16Code.scan (unitsOf little_endian (even.take keep))) <;> rfl
  · intro more
    have behind : (even.drop keep).length % 2 = 0 := by rw [List.length_drop]; omega
    have again : data ++ more = even.take keep ++ (even.drop keep ++ (odd ++ more)) := by
      rw [← List.append_assoc, List.take_append_drop, ← List.append_assoc, whole]
    rw [again, List.append_assoc]
    refine tokens16_append little_endian (even.take keep) _ front ?_
    rw [units_append little_endian (even.drop keep) _ behind, ← (peeled _).2.2, ← List.append_assoc,
      ← units_append little_endian _ _ front, List.take_append_drop]

theorem utf8_last (decoder : Decoder) (seen : decoder.bom_seen_ = true) (data : List UInt8) :
    (decoder.decode_utf8 simdutf data false).1 = render decoder.fatal_ (utf8Code.scan data) := by
  unfold Decoder.decode_utf8
  simp only [seen, skip_bom_if, Bool.not_true, Bool.false_and, Bool.false_eq_true, if_false, Bool.true_or, if_true, List.drop_zero,
    List.take_length]
  exact well_formed simdutf documented data decoder.fatal_

theorem utf8_next (decoder : Decoder) (seen : decoder.bom_seen_ = true) (taken : decoder.remainder_ = []) (data : List UInt8) :
    ∃ front rest, decoder.decode_utf8 simdutf data true = (render decoder.fatal_ front, { decoder with remainder_ := rest }) ∧
      ∀ more, utf8Code.scan (data ++ more) = front ++ utf8Code.scan (rest ++ more) := by
  have kept : (if 0 < data.length then peel_utf8_stream_remainder simdutf data else data.length) =
      peel_utf8_stream_remainder simdutf data := by
    by_cases some_ : 0 < data.length
    · rw [if_pos some_]
    · rw [if_neg some_, List.eq_nil_of_length_eq_zero (Nat.eq_zero_of_not_pos some_)]
      rfl
  have left : (if 0 < data.length then data.drop (peel_utf8_stream_remainder simdutf data) else []) =
      data.drop (peel_utf8_stream_remainder simdutf data) := by
    by_cases some_ : 0 < data.length
    · rw [if_pos some_]
    · rw [if_neg some_, List.eq_nil_of_length_eq_zero (Nat.eq_zero_of_not_pos some_), List.drop_nil]
  refine ⟨utf8Code.scan (data.take (peel_utf8_stream_remainder simdutf data)), data.drop (peel_utf8_stream_remainder simdutf data),
    ?_, fun more => scan_peeled simdutf documented data more⟩
  unfold Decoder.decode_utf8
  simp only [seen, skip_bom_if, Bool.not_true, Bool.false_and, Bool.false_eq_true, if_false, Bool.true_or, if_true, List.drop_zero,
    Bool.true_and, taken, decide_eq_true_iff]
  rw [kept, left, well_formed simdutf documented]

-- Once the mark is behind it, a call writes what can be told apart from what follows and keeps the rest.
theorem last_call (decoder : Decoder) (seen : decoder.bom_seen_ = true) (input : List UInt8) :
    (decoder.decode simdutf input false).1 = render decoder.fatal_ (tokens decoder.encoding_ (decoder.remainder_ ++ input)) := by
  have data : (if decoder.remainder_.isEmpty then input else decoder.remainder_ ++ input) = decoder.remainder_ ++ input := by
    cases decoder.remainder_ <;> rfl
  unfold Decoder.decode
  rw [data]
  obtain ⟨encoding, fatal, ignore_bom, bom_seen, remainder⟩ := decoder
  cases encoding with
  | utf8 => exact utf8_last simdutf documented ⟨.utf8, fatal, ignore_bom, bom_seen, []⟩ seen _
  | utf16le => exact utf16_last simdutf documented true ⟨.utf16le, fatal, ignore_bom, bom_seen, []⟩ seen _
  | utf16be => exact utf16_last simdutf documented false ⟨.utf16be, fatal, ignore_bom, bom_seen, []⟩ seen _

theorem next_call (decoder : Decoder) (seen : decoder.bom_seen_ = true) (input : List UInt8) :
    ∃ front rest, decoder.decode simdutf input true = (render decoder.fatal_ front, { decoder with remainder_ := rest }) ∧
      ∀ more, tokens decoder.encoding_ (decoder.remainder_ ++ input ++ more) = front ++ tokens decoder.encoding_ (rest ++ more) := by
  have data : (if decoder.remainder_.isEmpty then input else decoder.remainder_ ++ input) = decoder.remainder_ ++ input := by
    cases decoder.remainder_ <;> rfl
  unfold Decoder.decode
  rw [data]
  obtain ⟨encoding, fatal, ignore_bom, bom_seen, remainder⟩ := decoder
  cases encoding with
  | utf8 => exact utf8_next simdutf documented ⟨.utf8, fatal, ignore_bom, bom_seen, []⟩ seen rfl _
  | utf16le => exact utf16_next simdutf documented true ⟨.utf16le, fatal, ignore_bom, bom_seen, []⟩ seen rfl _
  | utf16be => exact utf16_next simdutf documented false ⟨.utf16be, fatal, ignore_bom, bom_seen, []⟩ seen rfl _

theorem streamed_seen (last : List UInt8) (chunks : List (List UInt8)) (decoder : Decoder) (seen : decoder.bom_seen_ = true) :
    decoder.streamed simdutf last chunks =
      render decoder.fatal_ (tokens decoder.encoding_ (decoder.remainder_ ++ chunks.flatten ++ last)) := by
  induction chunks generalizing decoder with
  | nil => rw [Decoder.streamed, last_call simdutf documented decoder seen, List.flatten_nil, List.append_nil]
  | cons chunk later ih =>
      obtain ⟨front, rest, call, same⟩ := next_call simdutf documented decoder seen chunk
      rw [Decoder.streamed, call, List.flatten_cons, ← List.append_assoc, List.append_assoc _ later.flatten, same, render_append]
      cases first : render decoder.fatal_ front with
      | error error => rfl
      | ok out =>
          dsimp only
          rw [ih { decoder with remainder_ := rest } seen, List.append_assoc]

end calls

end Vacps.Native
