import Mathlib.Tactic.IntervalCases
import Vacps.Library.Utf8

/- Percent-encoding: a character is spelled as itself or by the escapes of its UTF-8 bytes. encodeURIComponent,
   decodeURIComponent and the serializer of application/x-www-form-urlencoded. -/
set_option autoImplicit false

namespace Library.Percent

open Library.Utf8

def hexDigit (value : Nat) : Char := if value < 10 then Char.ofNat (48 + value) else Char.ofNat (55 + value)

def hexValue (char : Char) : Option Nat :=
  if 48 ≤ char.toNat ∧ char.toNat ≤ 57 then some (char.toNat - 48)
  else if 65 ≤ char.toNat ∧ char.toNat ≤ 70 then some (char.toNat - 55)
  else if 97 ≤ char.toNat ∧ char.toNat ≤ 102 then some (char.toNat - 87)
  else none

def escapeByte (byte : UInt8) : List Char := ['%', hexDigit (byte.toNat / 16), hexDigit (byte.toNat % 16)]

def escapes (bytes : List UInt8) : List Char := bytes.flatMap escapeByte

def isAlphanumeric (char : Char) : Bool :=
  (48 ≤ char.toNat && char.toNat ≤ 57) || (65 ≤ char.toNat && char.toNat ≤ 90) || (97 ≤ char.toNat && char.toNat ≤ 122)

section spelling

variable (marks : List Char)

def plain (char : Char) : Bool := isAlphanumeric char || marks.contains char

def spelled (char : Char) : List Char := if plain marks char then [char] else escapes (utf8Code.word char)

end spelling

def uriMarks : List Char := ['-', '_', '.', '!', '~', '*', '\'', '(', ')']

-- encodeURIComponent throws on a surrogate that stands alone.
def encodeUriComponent (string : Units) : Option (List Char) :=
  let letters := Utf16.chars string
  if Utf16.utf16Code.words letters = string then some (letters.flatMap (spelled uriMarks)) else none

def formMarks : List Char := ['*', '-', '.', '_']

def formLetter (char : Char) : List Char := if char = ' ' then ['+'] else spelled formMarks char

def formText (letters : List Char) : List Char := letters.flatMap formLetter

-- URLSearchParams#toString
def formQuery (pairs : List (List Char × List Char)) : List Char :=
  ['&'].intercalate (pairs.map fun pair => formText pair.1 ++ '=' :: formText pair.2)

section reading

-- One escape at the front of a text.
def readEscape : List Char → Option (UInt8 × List Char)
  | '%' :: high :: low :: rest => do
      let high ← hexValue high
      let low ← hexValue low
      pure (UInt8.ofNat (16 * high + low), rest)
  | _ => none

def readEscapes : Nat → List Char → Option (List UInt8 × List Char)
  | 0, text => some ([], text)
  | count + 1, text => do
      let first ← readEscape text
      let others ← readEscapes count first.2
      pure (first.1 :: others.1, others.2)

-- The bytes of a character, by the first of them.
def sequenceLength (byte : UInt8) : Option Nat :=
  if byte.toNat < 0x80 then some 1
  else if byte.toNat < 0xC0 then none
  else if byte.toNat < 0xE0 then some 2
  else if byte.toNat < 0xF0 then some 3
  else if byte.toNat < 0xF8 then some 4
  else none

def readLetter (text : List Char) : Option (Char × List Char) := do
  let first ← readEscape text
  let count ← sequenceLength first.1
  let sequence ← readEscapes count text
  let letter ← utf8Code.first sequence.1
  if utf8Code.word letter = sequence.1 then pure (letter, sequence.2) else none

-- Every step takes a character at least; the fuel is the length of the text.
def decodeFrom : Nat → List Char → Option (List Char)
  | _, [] => some []
  | 0, _ :: _ => none
  | fuel + 1, char :: rest =>
      if char = '%' then do
        let read ← readLetter (char :: rest)
        let later ← decodeFrom fuel read.2
        pure (read.1 :: later)
      else do
        let later ← decodeFrom fuel rest
        pure (char :: later)

def decodeUriComponent (text : List Char) : Option (List Char) := decodeFrom text.length text

end reading

section digits

theorem hex_value_digit (value : Nat) (small : value < 16) : hexValue (hexDigit value) = some value := by
  interval_cases value <;> rfl

theorem hex_alphanumeric (value : Nat) (small : value < 16) : isAlphanumeric (hexDigit value) = true := by
  interval_cases value <;> rfl

theorem escape_chars (bytes : List UInt8) (char : Char) (member : char ∈ escapes bytes) : char = '%' ∨ isAlphanumeric char = true := by
  obtain ⟨byte, _, inside⟩ := List.mem_flatMap.mp member
  have bound := byte.toNat_lt
  simp only [escapeByte, List.mem_cons, List.not_mem_nil, or_false] at inside
  rcases inside with rfl | rfl | rfl
  · exact Or.inl rfl
  · exact Or.inr (hex_alphanumeric _ (by omega))
  · exact Or.inr (hex_alphanumeric _ (by omega))

theorem spelled_chars (marks : List Char) (letter char : Char) (member : char ∈ spelled marks letter) :
    char = '%' ∨ plain marks char = true := by
  rw [spelled] at member
  split at member
  · rename_i kept
    exact Or.inr (List.mem_singleton.mp member ▸ kept)
  · exact (escape_chars _ char member).imp (fun same => same) fun digit => by rw [plain, digit, Bool.true_or]

end digits

section letters

theorem read_escape (byte : UInt8) (rest : List Char) : readEscape (escapeByte byte ++ rest) = some (byte, rest) := by
  have bound := byte.toNat_lt
  have whole : 16 * (byte.toNat / 16) + byte.toNat % 16 = byte.toNat := by omega
  have high := hex_value_digit (byte.toNat / 16) (by omega)
  have low := hex_value_digit (byte.toNat % 16) (by omega)
  have byte_ : UInt8.ofNat (16 * (byte.toNat / 16) + byte.toNat % 16) = byte := by rw [whole, UInt8.ofNat_toNat]
  simp only [escapeByte, List.cons_append, List.nil_append, readEscape, high, low, Option.bind_eq_bind, Option.bind_some, byte_]
  rfl

theorem read_escapes (bytes : List UInt8) (rest : List Char) :
    readEscapes bytes.length (escapes bytes ++ rest) = some (bytes, rest) := by
  induction bytes with
  | nil => rfl
  | cons byte bytes ih =>
      change readEscapes bytes.length.succ (escapeByte byte ++ escapes bytes ++ rest) = _
      rw [readEscapes, List.append_assoc, read_escape]
      change (readEscapes bytes.length (escapes bytes ++ rest) >>= _) = _
      rw [ih]
      rfl

theorem word_length (letter : Char) :
    ∃ head rest, utf8Code.word letter = head :: rest ∧ sequenceLength head = some (rest.length + 1) := by
  have form := word_form letter
  change Form (utf8Code.word letter) at form
  generalize utf8Code.word letter = bytes at form
  cases form with
  | one head low => exact ⟨head, [], rfl, if_pos low⟩
  | two head second range inner =>
      refine ⟨head, [second], rfl, ?_⟩
      rw [sequenceLength, if_neg (by omega), if_neg (by omega), if_pos range.2]
      rfl
  | three head second third range innerSecond innerThird =>
      refine ⟨head, [second, third], rfl, ?_⟩
      rw [sequenceLength, if_neg (by omega), if_neg (by omega), if_neg (by omega), if_pos range.2]
      rfl
  | four head second third fourth range innerSecond innerThird innerFourth =>
      refine ⟨head, [second, third, fourth], rfl, ?_⟩
      rw [sequenceLength, if_neg (by omega), if_neg (by omega), if_neg (by omega), if_neg (by omega), if_pos range.2]
      rfl

theorem read_letter (letter : Char) (rest : List Char) :
    readLetter (escapes (utf8Code.word letter) ++ rest) = some (letter, rest) := by
  obtain ⟨head, tail, same, length⟩ := word_length letter
  have first : readEscape (escapes (utf8Code.word letter) ++ rest) = some (head, escapes tail ++ rest) := by
    rw [same]
    change readEscape (escapeByte head ++ escapes tail ++ rest) = _
    rw [List.append_assoc, read_escape]
  have whole := read_escapes (utf8Code.word letter) rest
  rw [same, List.length_cons] at whole
  have letter_ := utf8Code.first_word letter []
  rw [List.append_nil] at letter_
  rw [← same] at whole
  simp only [readLetter, first, length, whole, letter_, Option.bind_eq_bind, Option.bind_some]
  simp

-- The spellings decodeURIComponent reads back.
def Spells (spelling : List Char) (letter : Char) : Prop :=
  (letter ≠ '%' ∧ spelling = [letter]) ∨ spelling = escapes (utf8Code.word letter)

theorem decode_spelling (spelling : List Char) (letter : Char) (spells : Spells spelling letter) (fuel : Nat) (rest : List Char)
    (enough : (spelling ++ rest).length ≤ fuel) :
    ∃ less, rest.length ≤ less ∧ decodeFrom fuel (spelling ++ rest) = (decodeFrom less rest).map (letter :: ·) := by
  rcases spells with ⟨literal, rfl⟩ | rfl
  · cases fuel with
    | zero => simp at enough
    | succ fuel =>
        refine ⟨fuel, by simpa using enough, ?_⟩
        rw [List.singleton_append, decodeFrom, if_neg literal]
        cases decodeFrom fuel rest <;> rfl
  · obtain ⟨head, tail, same, _⟩ := word_length letter
    have read := read_letter letter rest
    rw [same] at enough read ⊢
    have start : escapes (head :: tail) = '%' :: hexDigit (head.toNat / 16) :: hexDigit (head.toNat % 16) :: escapes tail := rfl
    rw [start] at enough read ⊢
    cases fuel with
    | zero => simp at enough
    | succ fuel =>
        refine ⟨fuel, ?_, ?_⟩
        · simp only [List.cons_append, List.length_cons, List.length_append] at enough
          omega
        · simp only [List.cons_append] at read ⊢
          rw [decodeFrom, if_pos rfl, read]
          change (decodeFrom fuel rest >>= _) = _
          cases decodeFrom fuel rest <;> rfl

section texts

variable {α : Type} (spell : α → List Char) (letter : α → Char) (spells : ∀ item, Spells (spell item) (letter item))

include spells

theorem decode_spelled (items : List α) : decodeUriComponent (items.flatMap spell) = some (items.map letter) := by
  have all : ∀ fuel, (items.flatMap spell).length ≤ fuel → decodeFrom fuel (items.flatMap spell) = some (items.map letter) := by
    induction items with
    | nil => intro fuel _; cases fuel <;> rfl
    | cons item rest ih =>
        intro fuel enough
        obtain ⟨less, still, decoded⟩ := decode_spelling (spell item) (letter item) (spells item) fuel (rest.flatMap spell) enough
        rw [List.flatMap_cons, decoded, ih less still]
        rfl
  exact all _ (Nat.le_refl _)

end texts

theorem spells_spelled (marks : List Char) (literal : plain marks '%' = false) (letter : Char) : Spells (spelled marks letter) letter := by
  rw [spelled]
  split
  · rename_i kept
    refine Or.inl ⟨?_, rfl⟩
    rintro rfl
    rw [literal] at kept
    cases kept
  · exact Or.inr rfl

-- What decodeURIComponent makes of encodeURIComponent's text.
theorem decode_encode (string : Units) (text : List Char) (encoded : encodeUriComponent string = some text) :
    decodeUriComponent text = some (Utf16.chars string) := by
  simp only [encodeUriComponent] at encoded
  split at encoded
  · cases encoded
    have read := decode_spelled (spelled uriMarks) (fun letter => letter) (spells_spelled uriMarks (by decide)) (Utf16.chars string)
    rwa [List.map_id'] at read
  · cases encoded

theorem encoded_whole (string : Units) (text : List Char) (encoded : encodeUriComponent string = some text) :
    Utf16.utf16Code.words (Utf16.chars string) = string := by
  simp only [encodeUriComponent] at encoded
  split at encoded
  · assumption
  · cases encoded

-- The form serializer writes a space as a plus, and decodeURIComponent leaves it so.
def plusForSpace (char : Char) : Char := if char = ' ' then '+' else char

theorem decode_form (letters : List Char) : decodeUriComponent (formText letters) = some (letters.map plusForSpace) := by
  refine decode_spelled formLetter plusForSpace ?_ letters
  intro letter
  rw [formLetter, plusForSpace]
  split
  · exact Or.inl ⟨by decide, rfl⟩
  · exact spells_spelled formMarks (by decide) letter

theorem form_chars (letters : List Char) (char : Char) (member : char ∈ formText letters) :
    char = '%' ∨ char = '+' ∨ plain formMarks char = true := by
  obtain ⟨letter, _, inside⟩ := List.mem_flatMap.mp member
  rw [formLetter] at inside
  split at inside
  · exact Or.inr (Or.inl (List.mem_singleton.mp inside))
  · exact (spelled_chars formMarks letter char inside).imp (fun same => same) Or.inr

theorem encode_chars (string : Units) (text : List Char) (encoded : encodeUriComponent string = some text) (char : Char)
    (member : char ∈ text) : char = '%' ∨ plain uriMarks char = true := by
  simp only [encodeUriComponent] at encoded
  split at encoded
  · cases encoded
    obtain ⟨letter, _, inside⟩ := List.mem_flatMap.mp member
    exact spelled_chars uriMarks letter char inside
  · cases encoded

theorem joined_chars (separator : Char) (parts : List (List Char)) (char : Char) (member : char ∈ [separator].intercalate parts) :
    char = separator ∨ ∃ part ∈ parts, char ∈ part := by
  induction parts with
  | nil => cases member
  | cons part rest ih =>
      cases rest with
      | nil => exact Or.inr ⟨part, List.mem_singleton_self part, by simpa using member⟩
      | cons next rest =>
          rw [List.intercalate_cons_cons] at member
          rcases List.mem_append.mp member with first | later
          · rcases List.mem_append.mp first with here | mark
            · exact Or.inr ⟨part, List.mem_cons_self, here⟩
            · exact Or.inl (List.mem_singleton.mp mark)
          · rcases ih later with mark | ⟨other, inside, written⟩
            · exact Or.inl mark
            · exact Or.inr ⟨other, List.mem_cons_of_mem _ inside, written⟩

theorem form_query_some (pairs : List (List Char × List Char)) (some_ : pairs ≠ []) : formQuery pairs ≠ [] := by
  have equals : '=' ∈ formQuery pairs := by
    cases pairs with
    | nil => exact absurd rfl some_
    | cons first rest => cases rest <;> simp [formQuery]
  exact List.ne_nil_of_mem equals

theorem form_query_chars (pairs : List (List Char × List Char)) (char : Char) (member : char ∈ formQuery pairs) :
    char = '&' ∨ char = '=' ∨ char = '%' ∨ char = '+' ∨ plain formMarks char = true := by
  rcases joined_chars '&' _ char member with mark | ⟨part, inside, written⟩
  · exact Or.inl mark
  · obtain ⟨pair, _, rfl⟩ := List.mem_map.mp inside
    rcases List.mem_append.mp written with key | value
    · exact Or.inr (Or.inr (form_chars pair.1 char key))
    · rcases List.mem_cons.mp value with equals | value
      · exact Or.inr (Or.inl equals)
      · exact Or.inr (Or.inr (form_chars pair.2 char value))

end letters

end Library.Percent
