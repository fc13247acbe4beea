import Mathlib.Data.List.Basic

/- Strings as UTF-16 code units, with surrogates that need not pair up. -/
set_option autoImplicit false

namespace Library

abbrev Units : Type := List UInt16

instance lawfulUnits : LawfulBEq Units := inferInstance

namespace Utf16

def isHigh (unit : UInt16) : Bool := 0xD800 ≤ unit.toNat && unit.toNat < 0xDC00

def isLow (unit : UInt16) : Bool := 0xDC00 ≤ unit.toNat && unit.toNat < 0xE000

def charUnits (char : Char) : Units :=
  if char.toNat < 0x10000 then [UInt16.ofNat char.toNat]
  else
    [UInt16.ofNat (0xD800 + (char.toNat - 0x10000) / 0x400), UInt16.ofNat (0xDC00 + (char.toNat - 0x10000) % 0x400)]

def units (text : String) : Units := text.toList.flatMap charUnits

def single (unit : UInt16) : Char := if isHigh unit || isLow unit then Char.ofNat 0xFFFD else Char.ofNat unit.toNat

def pair (high low : UInt16) : Char := Char.ofNat (0x10000 + (high.toNat - 0xD800) * 0x400 + (low.toNat - 0xDC00))

-- The scalar values of a string; a surrogate without its other half reads as U+FFFD.
def chars : Units → List Char
  | [] => []
  | [unit] => [single unit]
  | unit :: next :: rest =>
      if isHigh unit && isLow next then pair unit next :: chars rest else single unit :: chars (next :: rest)

def text (string : Units) : String := String.ofList (chars string)

theorem scalar_value (char : Char) : char.toNat < 0xD800 ∨ (0xE000 ≤ char.toNat ∧ char.toNat < 0x110000) := by
  rcases char.valid with low | ⟨above, below⟩
  · exact Or.inl low
  · exact Or.inr ⟨above, below⟩

theorem chars_single (unit : UInt16) (rest : Units) (plain : isHigh unit = false) :
    chars (unit :: rest) = single unit :: chars rest := by
  cases rest with
  | nil => rfl
  | cons next rest => simp [chars, plain]

-- A scalar value is one unit that is no surrogate, or a high and a low one.
theorem char_form (char : Char) :
    (∃ unit, charUnits char = [unit] ∧ isHigh unit = false ∧ isLow unit = false ∧ single unit = char) ∨
      ∃ high low, charUnits char = [high, low] ∧ isHigh high = true ∧ isLow low = true ∧ pair high low = char := by
  have scalar := scalar_value char
  rw [charUnits]
  split
  · rename_i plane
    have unit : (UInt16.ofNat char.toNat).toNat = char.toNat := by
      rw [UInt16.toNat_ofNat']
      exact Nat.mod_eq_of_lt plane
    have high : isHigh (UInt16.ofNat char.toNat) = false := by
      rw [isHigh, unit]
      simp
      omega
    have low : isLow (UInt16.ofNat char.toNat) = false := by
      rw [isLow, unit]
      simp
      omega
    refine Or.inl ⟨_, rfl, high, low, ?_⟩
    rw [single, high, low, unit]
    simp
  · rename_i plane
    have high : (UInt16.ofNat (0xD800 + (char.toNat - 0x10000) / 0x400)).toNat = 0xD800 + (char.toNat - 0x10000) / 0x400 := by
      rw [UInt16.toNat_ofNat']
      exact Nat.mod_eq_of_lt (by omega)
    have low : (UInt16.ofNat (0xDC00 + (char.toNat - 0x10000) % 0x400)).toNat = 0xDC00 + (char.toNat - 0x10000) % 0x400 := by
      rw [UInt16.toNat_ofNat']
      exact Nat.mod_eq_of_lt (by omega)
    refine Or.inr ⟨_, _, rfl, ?_, ?_, ?_⟩
    · rw [isHigh, high]
      simp
      omega
    · rw [isLow, low]
      simp
      omega
    · rw [pair, high, low]
      have whole : 0x10000 + (0xD800 + (char.toNat - 0x10000) / 0x400 - 0xD800) * 0x400 +
          (0xDC00 + (char.toNat - 0x10000) % 0x400 - 0xDC00) = char.toNat := by
        omega
      rw [whole, Char.ofNat_toNat]

theorem chars_units_char (char : Char) (rest : Units) : chars (charUnits char ++ rest) = char :: chars rest := by
  rcases char_form char with ⟨unit, same, high, _, value⟩ | ⟨high, low, same, isHigh, isLow, value⟩
  · rw [same, List.singleton_append, chars_single unit rest high, value]
  · rw [same]
    simp only [List.cons_append, List.nil_append, chars, isHigh, isLow, Bool.and_self, if_true, value]

theorem text_units (string : String) : text (units string) = string := by
  have read : ∀ list : List Char, chars (list.flatMap charUnits) = list := by
    intro list
    induction list with
    | nil => rfl
    | cons char rest ih => rw [List.flatMap_cons, chars_units_char, ih]
  rw [text, units, read, String.ofList_toList]

-- UTF-8, each way.
def encode (string : Units) : List UInt8 := (text string).toUTF8.data.toList

def decode (bytes : List UInt8) : Option Units := (String.fromUTF8? ⟨bytes.toArray⟩).map units

theorem encode_decode (bytes : List UInt8) (string : Units) (decoded : decode bytes = some string) :
    encode string = bytes := by
  obtain ⟨read, valid, same⟩ := Option.map_eq_some_iff.mp decoded
  rw [String.fromUTF8?] at valid
  split at valid
  · cases valid
    rw [encode, ← same, text_units]
    rfl
  · cases valid

theorem decodes (bytes : List UInt8) :
    (∃ string, decode bytes = some string) ↔ ByteArray.IsValidUTF8 ⟨bytes.toArray⟩ := by
  rw [decode, String.fromUTF8?]
  by_cases valid : ByteArray.IsValidUTF8 ⟨bytes.toArray⟩
  · rw [dif_pos valid]
    exact ⟨fun _ => valid, fun _ => ⟨_, rfl⟩⟩
  · rw [dif_neg valid]
    constructor
    · rintro ⟨string, decoded⟩
      cases decoded
    · exact fun held => absurd held valid

theorem decode_append (first later : List UInt8) (before behind : Units) (decoded : decode first = some before)
    (again : decode later = some behind) : ∃ whole, decode (first ++ later) = some whole := by
  have joined := ((decodes first).mp ⟨before, decoded⟩).append ((decodes later).mp ⟨behind, again⟩)
  rw [decodes]
  have same : (⟨(first ++ later).toArray⟩ : ByteArray) = ⟨first.toArray⟩ ++ ⟨later.toArray⟩ := by
    apply ByteArray.ext
    simp
  rw [same]
  exact joined

-- What was encoded decodes again, with U+FFFD for each lone surrogate.
theorem decode_encode (string : Units) : ∃ again, decode (encode string) = some again := by
  refine ⟨units (text string), ?_⟩
  have valid : String.fromUTF8? (text string).toUTF8 = some (text string) := by
    rw [String.fromUTF8?, String.toUTF8_eq_toByteArray, dif_pos (text string).isValidUTF8]
    rfl
  rw [decode, encode, Array.toArray_toList]
  exact congrArg (Option.map units) valid

end Utf16

end Library
