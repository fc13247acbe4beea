import Vacps.Library.Code
import Vacps.Library.Utf16

/- UTF-8 and UTF-16 as codes for the scalar values. -/
set_option autoImplicit false

namespace Library.Utf8

def isInner (byte : UInt8) : Bool := 0x80 ≤ byte.toNat && byte.toNat < 0xC0

-- The four forms of a character, by its first byte.
inductive Form : List UInt8 → Prop where
  | one (head : UInt8) (low : head.toNat < 0x80) : Form [head]
  | two (head second : UInt8) (range : 0xC0 ≤ head.toNat ∧ head.toNat < 0xE0) (inner : isInner second = true) :
      Form [head, second]
  | three (head second third : UInt8) (range : 0xE0 ≤ head.toNat ∧ head.toNat < 0xF0) (innerSecond : isInner second = true)
      (innerThird : isInner third = true) : Form [head, second, third]
  | four (head second third fourth : UInt8) (range : 0xF0 ≤ head.toNat ∧ head.toNat < 0xF8)
      (innerSecond : isInner second = true) (innerThird : isInner third = true) (innerFourth : isInner fourth = true) :
      Form [head, second, third, fourth]

theorem inner_byte (value : Nat) : isInner (UInt8.ofNat (value % 0x40 + 0x80)) = true := by
  simp only [isInner, UInt8.toNat_ofNat', Bool.and_eq_true, decide_eq_true_iff]
  omega

theorem word_form (char : Char) : Form (String.utf8EncodeChar char) := by
  have top : char.val.toNat < 0x110000 := by
    rcases char.valid with low | ⟨_, high⟩
    · exact Nat.lt_trans low (by decide)
    · exact high
  have inner := inner_byte
  simp only [String.utf8EncodeChar]
  split
  · refine .one _ ?_
    simp only [UInt8.toNat_ofNat']
    omega
  · split
    · refine .two _ _ ?_ (inner _)
      simp only [UInt8.toNat_ofNat']
      omega
    · split
      · refine .three _ _ _ ?_ (inner _) (inner _)
        simp only [UInt8.toNat_ofNat']
        omega
      · refine .four _ _ _ _ ?_ (inner _) (inner _) (inner _)
        simp only [UInt8.toNat_ofNat']
        omega

theorem form_shape (bytes : List UInt8) (form : Form bytes) :
    ∃ head rest, bytes = head :: rest ∧ isInner head = false ∧ ∀ byte ∈ rest, isInner byte = true := by
  have outer : ∀ head : UInt8, head.toNat < 0x80 ∨ 0xC0 ≤ head.toNat → isInner head = false := by
    intro head range
    simp only [isInner, Bool.and_eq_false_iff, decide_eq_false_iff_not]
    omega
  cases form with
  | one head low => exact ⟨head, [], rfl, outer head (Or.inl low), by simp⟩
  | two head second range inner => exact ⟨head, [second], rfl, outer head (Or.inr range.1), by simp [inner]⟩
  | three head second third range innerSecond innerThird =>
      exact ⟨head, [second, third], rfl, outer head (Or.inr (by omega)), by simp [innerSecond, innerThird]⟩
  | four head second third fourth range innerSecond innerThird innerFourth =>
      exact ⟨head, [second, third, fourth], rfl, outer head (Or.inr (by omega)), by simp [innerSecond, innerThird, innerFourth]⟩

def firstChar (bytes : List UInt8) : Option Char := bytes.toByteArray.utf8DecodeChar? 0

theorem first_char (bytes : List UInt8) (char : Char) : firstChar bytes = some char ↔ String.utf8EncodeChar char <+: bytes := by
  refine ⟨?_, ?_⟩
  · intro found
    have same := congrArg (fun read : ByteArray => read.data.toList) (ByteArray.eq_of_utf8DecodeChar?_eq_some found)
    rw [ByteArray.data_append, Array.toList_append, List.toList_data_toByteArray, List.toList_data_toByteArray] at same
    exact ⟨_, same.symm⟩
  · rintro ⟨rest, rfl⟩
    rw [firstChar, List.toByteArray_append]
    exact ByteArray.utf8DecodeChar?_utf8EncodeChar_append

instance lawfulOptionChar : LawfulBEq (Option Char) := inferInstance

def utf8Code : Code Char UInt8 where
  word := String.utf8EncodeChar
  first := firstChar
  first_iff := first_char
  inner := isInner
  shape char := form_shape _ (word_form char)

section repairs

-- The second byte a longer character may have behind its first.
def follows (lead second : UInt8) : Bool :=
  0xE0 ≤ lead.toNat && lead.toNat ≤ 0xF4 &&
    (if lead = 0xE0 then 0xA0 else if lead = 0xF0 then 0x90 else 0x80) ≤ second.toNat &&
    second.toNat ≤ (if lead = 0xED then 0x9F else if lead = 0xF4 then 0x8F else 0xBF)

-- How many bytes of the text, which starts no character, get one replacement character.
def errorLength : List UInt8 → Nat
  | lead :: second :: third :: _ =>
      if !follows lead second then 1 else if lead.toNat < 0xF0 || !isInner third then 2 else 3
  | [lead, second] => if follows lead second then 2 else 1
  | _ => 1

-- The counter has the bytes of the last character or error still to come.
def repairedFrom : Nat → List UInt8 → List Char
  | _, [] => []
  | pending + 1, _ :: rest => repairedFrom pending rest
  | 0, byte :: rest =>
      match firstChar (byte :: rest) with
      | some char => char :: repairedFrom ((String.utf8EncodeChar char).length - 1) rest
      | none => Char.ofNat 0xFFFD :: repairedFrom (errorLength (byte :: rest) - 1) rest

def byteOrderMark : List UInt8 := [0xEF, 0xBB, 0xBF]

-- The UTF-8 decode of the Encoding standard.
def repaired (bytes : List UInt8) : List Char :=
  repairedFrom 0 (if byteOrderMark.isPrefixOf bytes then bytes.drop 3 else bytes)

theorem repaired_drop (pending : Nat) (bytes : List UInt8) : repairedFrom pending bytes = repairedFrom 0 (bytes.drop pending) := by
  induction bytes generalizing pending with
  | nil => cases pending <;> simp [repairedFrom]
  | cons byte rest ih =>
      cases pending with
      | zero => rfl
      | succ pending =>
          rw [repairedFrom, List.drop_succ_cons]
          exact ih pending

theorem repaired_words (letters : List Char) (unmarked : ¬ byteOrderMark <+: utf8Code.words letters) :
    repaired (utf8Code.words letters) = letters := by
  rw [repaired, if_neg (by rwa [List.isPrefixOf_iff_prefix])]
  clear unmarked
  induction letters with
  | nil => rfl
  | cons letter rest ih =>
      obtain ⟨head, tail, same, _, _⟩ := utf8Code.shape letter
      have here := utf8Code.first_word letter (utf8Code.words rest)
      rw [Code.words_cons]
      change String.utf8EncodeChar letter = head :: tail at same
      change firstChar (String.utf8EncodeChar letter ++ utf8Code.words rest) = some letter at here
      change repairedFrom 0 (String.utf8EncodeChar letter ++ utf8Code.words rest) = letter :: rest
      rw [same, List.cons_append] at here ⊢
      rw [repairedFrom, here]
      dsimp only
      rw [repaired_drop, same, List.length_cons, Nat.add_sub_cancel, List.drop_left, ih]

end repairs

end Library.Utf8

namespace Library.Utf16

def firstChar : Units → Option Char
  | [] => none
  | [unit] => if isHigh unit || isLow unit then none else some (single unit)
  | unit :: next :: _ =>
      if isHigh unit && isLow next then some (pair unit next)
      else if isHigh unit || isLow unit then none
      else some (single unit)

theorem units_single (unit : UInt16) (high : isHigh unit = false) (low : isLow unit = false) :
    charUnits (single unit) = [unit] := by
  have small := unit.toNat_lt
  rw [single, high, low, Bool.or_self, if_neg Bool.false_ne_true]
  have valid : unit.toNat.isValidChar := by
    simp only [isHigh, isLow, Bool.and_eq_false_iff, decide_eq_false_iff_not] at high low
    simp only [Nat.isValidChar]
    omega
  have value : (Char.ofNat unit.toNat).toNat = unit.toNat := by
    rw [Char.ofNat, dif_pos valid]
    rfl
  rw [charUnits, value, if_pos (by omega), UInt16.ofNat_toNat]

theorem units_pair (high low : UInt16) (isHigh_ : isHigh high = true) (isLow_ : isLow low = true) :
    charUnits (pair high low) = [high, low] := by
  simp only [isHigh, isLow, Bool.and_eq_true, decide_eq_true_iff] at isHigh_ isLow_
  have valid : (0x10000 + (high.toNat - 0xD800) * 0x400 + (low.toNat - 0xDC00)).isValidChar := by
    simp only [Nat.isValidChar]
    omega
  have value : (pair high low).toNat = 0x10000 + (high.toNat - 0xD800) * 0x400 + (low.toNat - 0xDC00) := by
    rw [pair, Char.ofNat, dif_pos valid]
    rfl
  have first : 0xD800 + (0x10000 + (high.toNat - 0xD800) * 0x400 + (low.toNat - 0xDC00) - 0x10000) / 0x400 = high.toNat := by omega
  have second : 0xDC00 + (0x10000 + (high.toNat - 0xD800) * 0x400 + (low.toNat - 0xDC00) - 0x10000) % 0x400 = low.toNat := by omega
  rw [charUnits, value, if_neg (by omega), first, second, UInt16.ofNat_toNat, UInt16.ofNat_toNat]

theorem high_not_low (unit : UInt16) (high : isHigh unit = true) : isLow unit = false := by
  simp only [isHigh, isLow, Bool.and_eq_true, Bool.and_eq_false_iff, decide_eq_true_iff, decide_eq_false_iff_not] at high ⊢
  omega

theorem first_char (text : Units) (char : Char) : firstChar text = some char ↔ charUnits char <+: text := by
  refine ⟨?_, ?_⟩
  · intro found
    unfold firstChar at found
    split at found
    · cases found
    · split at found
      · cases found
      · rename_i unit plain
        rw [Bool.not_eq_true, Bool.or_eq_false_iff] at plain
        have whole := units_single unit plain.1 plain.2
        rw [Option.some.inj found] at whole
        exact ⟨[], by rw [List.append_nil, whole]⟩
    · rename_i unit next rest
      split at found
      · rename_i halves
        rw [Bool.and_eq_true] at halves
        rw [← Option.some.inj found, units_pair unit next halves.1 halves.2]
        exact ⟨rest, rfl⟩
      · split at found
        · cases found
        · rename_i plain
          rw [Bool.not_eq_true, Bool.or_eq_false_iff] at plain
          rw [← Option.some.inj found, units_single unit plain.1 plain.2]
          exact ⟨next :: rest, rfl⟩
  · rintro ⟨rest, rfl⟩
    rcases char_form char with ⟨unit, same, high, low, value⟩ | ⟨high, low, same, isHigh_, isLow_, value⟩
    · rw [same]
      cases rest with
      | nil => simp [firstChar, high, low, value]
      | cons next rest => simp [firstChar, high, low, value]
    · rw [same]
      simp [firstChar, isHigh_, isLow_, value]

def utf16Code : Code Char UInt16 where
  word := charUnits
  first := firstChar
  first_iff := first_char
  inner := isLow
  shape char := by
    rcases char_form char with ⟨unit, same, _, low, _⟩ | ⟨high, low, same, isHigh_, isLow_, _⟩
    · exact ⟨unit, [], same, low, by simp⟩
    · exact ⟨high, [low], same, high_not_low high isHigh_, by simp [isLow_]⟩

-- A text cut short in a word ends with a high surrogate.
theorem truncated_high (tail : Units) (truncated : utf16Code.Truncated tail) : ∃ unit, tail = [unit] ∧ isHigh unit = true := by
  obtain ⟨some_, char, start, different⟩ := truncated
  change tail <+: charUnits char at start
  change tail ≠ charUnits char at different
  rcases char_form char with ⟨unit, same, _, _, _⟩ | ⟨high, low, same, isHigh_, _, _⟩
  · rw [same] at start different
    cases tail with
    | nil => exact absurd rfl some_
    | cons head rest =>
        obtain ⟨rfl, nothing⟩ := List.cons_prefix_cons.mp start
        rw [List.prefix_nil] at nothing
        exact absurd (by rw [nothing]) different
  · rw [same] at start different
    cases tail with
    | nil => exact absurd rfl some_
    | cons head rest =>
        obtain ⟨rfl, within⟩ := List.cons_prefix_cons.mp start
        cases rest with
        | nil => exact ⟨head, rfl, isHigh_⟩
        | cons second others =>
            obtain ⟨rfl, nothing⟩ := List.cons_prefix_cons.mp within
            rw [List.prefix_nil] at nothing
            exact absurd (by rw [nothing]) different

section letters

open Library.Utf8

theorem chars_words (letters : List Char) (rest : Units) : chars (utf16Code.words letters ++ rest) = letters ++ chars rest := by
  induction letters with
  | nil => rfl
  | cons letter letters ih =>
      rw [Code.words_cons, List.append_assoc, List.cons_append, ← ih]
      exact chars_units_char letter _

theorem words_chars (letters : List Char) : chars (utf16Code.words letters) = letters := by
  have read := chars_words letters []
  rwa [List.append_nil, chars, List.append_nil] at read

theorem encode_chars (string : Units) : encode string = utf8Code.words (chars string) := by
  have joined : ∀ letters : List Char, letters.utf8Encode.data.toList = utf8Code.words letters := by
    intro letters
    induction letters with
    | nil => rfl
    | cons letter rest ih => rw [Code.words_cons, ← ih, List.utf8Encode_cons, ByteArray.data_append, Array.toList_append,
        List.utf8Encode_singleton, List.toList_data_toByteArray]; rfl
  rw [encode, text, String.toUTF8_eq_toByteArray, String.toByteArray_ofList, joined]

theorem encode_words (letters : List Char) : encode (utf16Code.words letters) = utf8Code.words letters := by
  rw [encode_chars, words_chars]

-- What decodes has letters, written in each code.
theorem decode_letters (bytes : List UInt8) (string : Units) :
    decode bytes = some string ↔ ∃ letters, bytes = utf8Code.words letters ∧ string = utf16Code.words letters := by
  have written : ∀ (bytes : List UInt8) (string : Units), decode bytes = some string →
      ∃ letters, bytes = utf8Code.words letters ∧ string = utf16Code.words letters := by
    intro bytes string decoded
    have back := encode_decode bytes string decoded
    obtain ⟨read, _, same⟩ := Option.map_eq_some_iff.mp decoded
    refine ⟨read.toList, ?_, same.symm⟩
    rw [← back, ← same]
    exact encode_words read.toList
  refine ⟨written bytes string, ?_⟩
  rintro ⟨letters, rfl, rfl⟩
  obtain ⟨again, decoded⟩ := decode_encode (utf16Code.words letters)
  rw [encode_words] at decoded
  obtain ⟨others, same, rfl⟩ := written _ again decoded
  rw [decoded, utf8Code.words_injective _ _ same]

theorem decode_words (bytes : List UInt8) (letters : List Char) :
    decode bytes = some (utf16Code.words letters) ↔ bytes = utf8Code.words letters := by
  rw [decode_letters]
  refine ⟨?_, fun same => ⟨letters, same, rfl⟩⟩
  rintro ⟨others, rfl, same⟩
  rw [utf16Code.words_injective _ _ same]

-- The scalar values of a string, each with the units it is read from.
def lettered : Units → List (Units × Char)
  | [] => []
  | [unit] => [([unit], single unit)]
  | unit :: next :: rest =>
      if isHigh unit && isLow next then ([unit, next], pair unit next) :: lettered rest
      else ([unit], single unit) :: lettered (next :: rest)

theorem lettered_chars (string : Units) : (lettered string).map Prod.snd = chars string := by
  fun_induction chars string with
  | case1 => rfl
  | case2 unit => rfl
  | case3 unit next rest halves ih => rw [lettered, if_pos halves, List.map_cons, ih]
  | case4 unit next rest whole ih => rw [lettered, if_neg whole, List.map_cons, ih]

theorem lettered_units (string : Units) : (lettered string).flatMap Prod.fst = string := by
  fun_induction lettered string with
  | case1 => rfl
  | case2 unit => rfl
  | case3 unit next rest halves ih => rw [List.flatMap_cons, ih]; rfl
  | case4 unit next rest whole ih => rw [List.flatMap_cons, ih]; rfl

theorem single_length (unit : UInt16) : (charUnits (single unit)).length = 1 := by
  cases plain : isHigh unit || isLow unit with
  | true =>
      rw [single, plain, if_pos rfl]
      rfl
  | false =>
      rw [Bool.or_eq_false_iff] at plain
      rw [units_single unit plain.1 plain.2]
      rfl

-- Each half of a character counts as one unit, with its other half or without.
theorem lettered_length (string : Units) : ∀ letter ∈ lettered string, (charUnits letter.2).length = letter.1.length := by
  fun_induction lettered string with
  | case1 => simp
  | case2 unit => simpa using single_length unit
  | case3 unit next rest halves ih =>
      rw [Bool.and_eq_true] at halves
      rw [List.forall_mem_cons, units_pair unit next halves.1 halves.2]
      exact ⟨rfl, ih⟩
  | case4 unit next rest whole ih =>
      rw [List.forall_mem_cons]
      exact ⟨single_length unit, ih⟩

theorem letters_length_eq (letters : List (Units × Char)) (same : ∀ letter ∈ letters, (charUnits letter.2).length = letter.1.length) :
    (utf16Code.words (letters.map Prod.snd)).length = (letters.flatMap Prod.fst).length := by
  induction letters with
  | nil => rfl
  | cons letter rest ih =>
      rw [List.forall_mem_cons] at same
      rw [List.map_cons, Code.words_cons, List.length_append, List.flatMap_cons, List.length_append, ih same.2]
      exact congrArg (· + _) same.1

theorem chars_length (string : Units) : (utf16Code.words (chars string)).length = string.length := by
  rw [← lettered_chars, letters_length_eq _ (lettered_length string), lettered_units]

end letters

end Library.Utf16
