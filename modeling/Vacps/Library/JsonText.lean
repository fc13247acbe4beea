import Mathlib.Data.Rat.Defs
import Mathlib.Tactic.Ring
import Vacps.Library.Decimal
import Vacps.Library.Utf8

/- JSON.stringify and JSON.parse of ECMAScript on the code units of a text. -/
set_option autoImplicit false

namespace Library.JsonText

open Library.Utf16

-- A member shadows the earlier ones under its name.
inductive Value where
  | null
  | bool (value : Bool)
  | number (value : Rat)
  | string (text : Units)
  | array (items : List Value)
  | object (members : List (Units × Value))

theorem item_smaller (items : List Value) (item : Value) (inside : item ∈ items) : sizeOf item < sizeOf (Value.array items) := by
  have smaller := List.sizeOf_lt_of_mem inside
  simp only [Value.array.sizeOf_spec]
  omega

theorem member_smaller (members : List (Units × Value)) (member : Units × Value) (inside : member ∈ members) :
    sizeOf member.2 < sizeOf (Value.object members) := by
  have smaller := List.sizeOf_lt_of_mem inside
  cases member
  simp only [Value.object.sizeOf_spec, Prod.mk.sizeOf_spec] at smaller ⊢
  omega

section printing

def hexDigit (value : Nat) : UInt16 := if value < 10 then UInt16.ofNat (48 + value) else UInt16.ofNat (87 + value)

def unicodeEscape (unit : UInt16) : Units :=
  [92, 117, hexDigit (unit.toNat / 4096), hexDigit (unit.toNat / 256 % 16), hexDigit (unit.toNat / 16 % 16),
    hexDigit (unit.toNat % 16)]

def shortEscapes : List (UInt16 × UInt16) := [(34, 34), (92, 92), (8, 98), (12, 102), (10, 110), (13, 114), (9, 116)]

-- A surrogate that comes here stands alone.
def escaped (unit : UInt16) : Units :=
  match shortEscapes.lookup unit with
  | some kind => [92, kind]
  | none => if unit.toNat < 32 || isHigh unit || isLow unit then unicodeEscape unit else [unit]

def quoted : Units → Units
  | [] => []
  | [unit] => escaped unit
  | unit :: next :: rest =>
      if isHigh unit && isLow next then unit :: next :: quoted rest else escaped unit ++ quoted (next :: rest)

def quote (text : Units) : Units := 34 :: (quoted text ++ [34])

-- The members with their printed values.
def memberText (member : Units × Units) : Units := quote member.1 ++ 58 :: member.2

def membersText (members : List (Units × Units)) : Units := [44].intercalate (members.map memberText)

def objectText (members : List (Units × Units)) : Units := 123 :: (membersText members ++ [125])

def arrayText (items : List Units) : Units := 91 :: ([44].intercalate items ++ [93])

def naturalText (n : Nat) : Units := (Nat.toDigits 10 n).map fun digit => UInt16.ofNat digit.toNat

end printing

section reading

def isSpace (unit : UInt16) : Bool := [9, 10, 13, 32].contains unit

def skipSpace (text : Units) : Units := text.dropWhile isSpace

def isDigit (unit : UInt16) : Bool := 48 ≤ unit.toNat && unit.toNat ≤ 57

def digitsValue (digits : Units) : Nat := digits.foldl (fun value digit => 10 * value + (digit.toNat - 48)) 0

def hexValue (unit : UInt16) : Option Nat :=
  if isDigit unit then some (unit.toNat - 48)
  else if 97 ≤ unit.toNat && unit.toNat ≤ 102 then some (unit.toNat - 87)
  else if 65 ≤ unit.toNat && unit.toNat ≤ 70 then some (unit.toNat - 55)
  else none

def hexUnit (a b c d : UInt16) : Option UInt16 :=
  match hexValue a, hexValue b, hexValue c, hexValue d with
  | some first, some second, some third, some fourth =>
      some (UInt16.ofNat (first * 4096 + second * 256 + third * 16 + fourth))
  | _, _, _, _ => none

def readEscapes : List (UInt16 × UInt16) := [(34, 34), (92, 92), (47, 47), (98, 8), (102, 12), (110, 10), (114, 13), (116, 9)]

def prepend (unit : UInt16) (read : Units × Units) : Units × Units := (unit :: read.1, read.2)

-- From behind the opening quote; with what follows the closing one.
def readString : Units → Option (Units × Units)
  | [] => none
  | 34 :: rest => some ([], rest)
  | 92 :: 117 :: a :: b :: c :: d :: rest =>
      match hexUnit a b c d with
      | some unit => (readString rest).map (prepend unit)
      | none => none
  | 92 :: kind :: rest =>
      match readEscapes.lookup kind with
      | some unit => (readString rest).map (prepend unit)
      | none => none
  | unit :: rest => if unit.toNat < 32 || unit = 92 then none else (readString rest).map (prepend unit)

def readFraction : Units → Option (Rat × Units)
  | 46 :: rest =>
      let digits := rest.takeWhile isDigit
      if digits = [] then none else some ((digitsValue digits : Rat) / 10 ^ digits.length, rest.dropWhile isDigit)
  | text => some (0, text)

def readPower (up : Bool) (text : Units) : Option (Rat × Units) :=
  let digits := text.takeWhile isDigit
  if digits = [] then none
  else some (if up then 10 ^ digitsValue digits else 1 / 10 ^ digitsValue digits, text.dropWhile isDigit)

def readSigned : Units → Option (Rat × Units)
  | 43 :: digits => readPower true digits
  | 45 :: digits => readPower false digits
  | digits => readPower true digits

def readExponent : Units → Option (Rat × Units)
  | [] => some (1, [])
  | unit :: rest => if unit = 101 || unit = 69 then readSigned rest else some (1, unit :: rest)

def readUnsigned (text : Units) : Option (Rat × Units) :=
  let digits := text.takeWhile isDigit
  if digits = [] || (digits.head? = some 48 && 1 < digits.length) then none
  else do
    let (fraction, rest) ← readFraction (text.dropWhile isDigit)
    let (power, rest) ← readExponent rest
    some ((digitsValue digits + fraction) * power, rest)

def readNumber : Units → Option (Rat × Units)
  | 45 :: rest => (readUnsigned rest).map fun (value, rest) => (-value, rest)
  | text => readUnsigned text

def readLiteral (text : Units) (word : String) (value : Value) : Option (Value × Units) :=
  if (units word).isPrefixOf text then some (value, text.drop (units word).length) else none

def readScalar (text : Units) : Option (Value × Units) :=
  (readLiteral text "null" .null).or ((readLiteral text "true" (.bool true)).or
    ((readLiteral text "false" (.bool false)).or ((readNumber text).map fun read => (.number read.1, read.2))))

def readColon (read : Units × Units) : Option (Units × Units) :=
  if (skipSpace read.2).head? = some 58 then some (read.1, (skipSpace read.2).drop 1) else none

-- A member's name, up to behind the colon.
def readName (text : Units) : Option (Units × Units) :=
  match skipSpace text with
  | [] => none
  | unit :: rest => if unit = 34 then (readString rest).bind readColon else none

mutual

-- The fuel bounds the values and members within one another.
def readValue : Nat → Units → Option (Value × Units)
  | 0, _ => none
  | fuel + 1, text =>
      match skipSpace text with
      | [] => none
      | unit :: rest =>
          if unit = 34 then (readString rest).map fun read => (.string read.1, read.2)
          else if unit = 123 then
            if (skipSpace rest).head? = some 125 then some (.object [], (skipSpace rest).drop 1)
            else (readMembers fuel rest).map fun read => (.object read.1, read.2)
          else if unit = 91 then
            if (skipSpace rest).head? = some 93 then some (.array [], (skipSpace rest).drop 1)
            else (readItems fuel rest).map fun read => (.array read.1, read.2)
          else readScalar (unit :: rest)

def readMembers : Nat → Units → Option (List (Units × Value) × Units)
  | 0, _ => none
  | fuel + 1, text => do
      let (name, rest) ← readName text
      let (value, rest) ← readValue fuel rest
      match skipSpace rest with
      | 44 :: rest => (readMembers fuel rest).map fun read => ((name, value) :: read.1, read.2)
      | 125 :: rest => some ([(name, value)], rest)
      | _ => none

def readItems : Nat → Units → Option (List Value × Units)
  | 0, _ => none
  | fuel + 1, text => do
      let (value, rest) ← readValue fuel text
      match skipSpace rest with
      | 44 :: rest => (readItems fuel rest).map fun read => (value :: read.1, read.2)
      | 93 :: rest => some ([value], rest)
      | _ => none

end

-- JSON.parse; a level takes one unit of the text at least and two of the fuel at most.
def parse (text : Units) : Option Value :=
  match readValue (2 * text.length + 2) text with
  | some (value, rest) => if skipSpace rest = [] then some value else none
  | none => none

end reading

section strings

theorem hex_value_digit (value : Nat) (small : value < 16) : hexValue (hexDigit value) = some value := by
  have all : ∀ n : Fin 16, hexValue (hexDigit n) = some n.val := by decide
  exact all ⟨value, small⟩

theorem read_unicode (unit : UInt16) (rest : Units) :
    readString (unicodeEscape unit ++ rest) = (readString rest).map (prepend unit) := by
  have small := unit.toNat_lt
  have whole : unit.toNat / 4096 * 4096 + unit.toNat / 256 % 16 * 256 + unit.toNat / 16 % 16 * 16 + unit.toNat % 16 =
      unit.toNat := by omega
  have back : hexUnit (hexDigit (unit.toNat / 4096)) (hexDigit (unit.toNat / 256 % 16)) (hexDigit (unit.toNat / 16 % 16))
      (hexDigit (unit.toNat % 16)) = some unit := by
    rw [hexUnit, hex_value_digit _ (by omega), hex_value_digit _ (by omega), hex_value_digit _ (by omega),
      hex_value_digit _ (by omega)]
    dsimp only
    rw [whole, UInt16.ofNat_toNat]
  simp only [unicodeEscape, List.cons_append, List.nil_append, readString, back]

theorem read_plain (unit : UInt16) (rest : Units) (large : 32 ≤ unit.toNat) (quote_ : unit ≠ 34) (slash : unit ≠ 92) :
    readString (unit :: rest) = (readString rest).map (prepend unit) := by
  rw [readString]
  · have kept : (decide (unit.toNat < 32) || decide (unit = 92)) = false := by simp [slash, large]
    rw [kept]
    rfl
  · exact quote_
  · intro _ _ _ _ _ same
    exact absurd same slash
  · intro _ _ same
    exact absurd same slash

theorem read_escaped (unit : UInt16) (rest : Units) :
    readString (escaped unit ++ rest) = (readString rest).map (prepend unit) := by
  rw [escaped]
  cases known : shortEscapes.lookup unit with
  | some kind =>
      have member : (unit, kind) ∈ shortEscapes := by
        obtain ⟨front, back, same, _⟩ := List.lookup_eq_some_iff.mp known
        rw [same]
        simp
      have all : (shortEscapes.all fun entry => entry.2 != 117 && readEscapes.lookup entry.2 == some entry.1) = true := by
        decide
      have here := List.all_eq_true.mp all (unit, kind) member
      rw [Bool.and_eq_true, bne_iff_ne, beq_iff_eq] at here
      obtain ⟨other, back⟩ := here
      dsimp only [List.cons_append, List.nil_append] at other back ⊢
      rw [readString]
      · rw [back]
      · intro _ _ _ _ _ same
        exact absurd same other
  | none =>
      have unlisted : ∀ entry ∈ shortEscapes, unit ≠ entry.1 := by
        intro entry member
        have differs := List.lookup_eq_none_iff.mp known entry member
        simpa using differs
      dsimp only
      split
      · exact read_unicode unit rest
      · rename_i plain
        simp only [Bool.or_eq_true, decide_eq_true_eq, not_or, not_lt] at plain
        exact read_plain unit rest plain.1.1 (unlisted (34, 34) (by simp [shortEscapes]))
          (unlisted (92, 92) (by simp [shortEscapes]))

theorem read_quoted (text rest : Units) : readString (quoted text ++ 34 :: rest) = some (text, rest) := by
  induction text using quoted.induct with
  | case1 => rfl
  | case2 unit =>
      rw [quoted, read_escaped]
      rfl
  | case3 unit next others halves ih =>
      have high := (Bool.and_eq_true _ _ ▸ halves).1
      have low := (Bool.and_eq_true _ _ ▸ halves).2
      simp only [isHigh, isLow, Bool.and_eq_true, decide_eq_true_eq] at high low
      rw [quoted, if_pos halves, List.cons_append, List.cons_append,
        read_plain unit _ (by omega) (by rintro rfl; simp at high) (by rintro rfl; simp at high),
        read_plain next _ (by omega) (by rintro rfl; simp at low) (by rintro rfl; simp at low), ih]
      rfl
  | case4 unit next others apart ih =>
      rw [quoted, if_neg apart, List.append_assoc, read_escaped, ih]
      rfl

end strings

section numbers

theorem digit_unit (digit : Char) (decimal : digit.isDigit = true) :
    (UInt16.ofNat digit.toNat).toNat = digit.toNat ∧ 48 ≤ digit.toNat ∧ digit.toNat ≤ 57 := by
  have range := Decimal.digit_range digit decimal
  exact ⟨UInt16.toNat_ofNat_of_lt' (by rw [UInt16.size]; omega), range⟩

theorem natural_digits (n : Nat) : ∀ unit ∈ naturalText n, isDigit unit = true := by
  intro unit member
  obtain ⟨digit, inside, rfl⟩ := List.mem_map.mp member
  obtain ⟨same, low, high⟩ := digit_unit digit (Decimal.to_digits_decimal n digit inside)
  simp [isDigit, same, low, high]

theorem natural_value (n : Nat) : digitsValue (naturalText n) = n := by
  have encoded : ∀ digit : Char, digit.isDigit = true → (UInt16.ofNat digit.toNat).toNat - 48 = digit.toNat - 48 :=
    fun digit decimal => by rw [(digit_unit digit decimal).1]
  rw [digitsValue, naturalText, Decimal.digits_folded _ _ encoded _ _ (Decimal.to_digits_decimal n)]
  exact Nat.ofDigitChars_ten_toDigits

theorem leading_zero (n : Nat) (leads : (Nat.toDigits 10 n).head? = some '0') : n = 0 := by
  induction n using Nat.strongRecOn with
  | ind n ih =>
      by_cases small : n < 10
      · rw [Nat.toDigits_of_lt_base small] at leads
        have all : ∀ digit : Fin 10, Nat.digitChar digit = '0' → digit.val = 0 := by decide
        exact all ⟨n, small⟩ (Option.some.inj leads)
      · rw [Nat.toDigits_of_base_le (by decide) (by omega), List.head?_append_of_ne_nil _ Nat.toDigits_ne_nil] at leads
        have shorter := ih (n / 10) (by omega) leads
        omega

theorem natural_some (n : Nat) : naturalText n ≠ [] := by
  rw [naturalText, Ne, List.map_eq_nil_iff]
  exact Nat.toDigits_ne_nil

theorem natural_zero (n : Nat) (leads : (naturalText n).head? = some 48) : n = 0 := by
  refine leading_zero n ?_
  rw [naturalText, List.head?_map, Option.map_eq_some_iff] at leads
  obtain ⟨digit, head, same⟩ := leads
  have decimal := Decimal.to_digits_decimal _ _ (List.mem_of_mem_head? (Option.mem_def.mpr head))
  have value := (digit_unit digit decimal).1
  rw [same] at value
  rw [head]
  congr 1
  exact Char.toNat_inj.mp value.symm

theorem natural_head (n : Nat) (leads : (naturalText n).head? = some 48) : (naturalText n).length ≤ 1 := by
  rw [natural_zero n leads]
  decide

theorem digits_append (front back : Units) :
    digitsValue (front ++ back) = digitsValue front * 10 ^ back.length + digitsValue back := by
  have folded : ∀ (digits : Units) (value : Nat), digits.foldl (fun value digit => 10 * value + (digit.toNat - 48)) value =
      value * 10 ^ digits.length + digitsValue digits := by
    intro digits
    induction digits with
    | nil => simp [digitsValue]
    | cons digit rest ih =>
        intro value
        rw [digitsValue, List.foldl_cons, List.foldl_cons, ih, ih (10 * 0 + (digit.toNat - 48)), List.length_cons, pow_succ]
        ring
  rw [digitsValue, List.foldl_append, folded, ← digitsValue]

theorem digits_zeros (count : Nat) : digitsValue (List.replicate count 48) = 0 := by
  induction count with
  | zero => rfl
  | succ count ih =>
      rw [List.replicate_succ', digits_append, ih]
      rfl

-- Neither goes on with a number.
def EndsNumber (rest : Units) : Prop :=
  ∀ unit, rest.head? = some unit → isDigit unit = false ∧ unit ≠ 46 ∧ unit ≠ 101 ∧ unit ≠ 69

def EndsDigits (rest : Units) : Prop := ∀ unit, rest.head? = some unit → isDigit unit = false

theorem ends_digits (rest : Units) (ends : EndsNumber rest) : EndsDigits rest := fun unit head => (ends unit head).1

theorem digits_taken (digits rest : Units) (decimal : ∀ unit ∈ digits, isDigit unit = true) (ends : EndsDigits rest) :
    (digits ++ rest).takeWhile isDigit = digits ∧ (digits ++ rest).dropWhile isDigit = rest := by
  rw [List.takeWhile_append_of_pos decimal, List.dropWhile_append_of_pos decimal]
  cases rest with
  | nil => simp
  | cons unit more =>
      have other := ends unit rfl
      rw [List.takeWhile_cons_of_neg (by simp [other]), List.dropWhile_cons_of_neg (by simp [other]), List.append_nil]
      exact ⟨rfl, rfl⟩

theorem read_fraction (digits rest : Units) (some_ : digits ≠ []) (decimal : ∀ unit ∈ digits, isDigit unit = true)
    (ends : EndsDigits rest) :
    readFraction (46 :: (digits ++ rest)) = some ((digitsValue digits : Rat) / 10 ^ digits.length, rest) := by
  obtain ⟨taken, left⟩ := digits_taken digits rest decimal ends
  rw [readFraction, taken, left]
  exact if_neg some_

theorem read_no_fraction (rest : Units) (other : rest.head? ≠ some 46) : readFraction rest = some (0, rest) := by
  rw [readFraction]
  rintro more rfl
  exact other rfl

theorem read_power (up : Bool) (n : Nat) (rest : Units) (ends : EndsDigits rest) :
    readPower up (naturalText n ++ rest) = some (if up then 10 ^ n else 1 / 10 ^ n, rest) := by
  obtain ⟨taken, left⟩ := digits_taken (naturalText n) rest (natural_digits n) ends
  rw [readPower, taken, left, if_neg (natural_some n), natural_value]

theorem read_no_exponent (rest : Units) (ends : EndsNumber rest) : readExponent rest = some (1, rest) := by
  cases rest with
  | nil => rfl
  | cons unit more =>
      have other := ends unit rfl
      simp [readExponent, other.2.2.1, other.2.2.2]

-- A number is read part by part.
theorem read_parts (whole behind after rest : Units) (fraction power : Rat) (some_ : whole ≠ [])
    (decimal : ∀ unit ∈ whole, isDigit unit = true) (lead : whole.head? = some 48 → whole.length ≤ 1) (ends : EndsDigits behind)
    (second : readFraction behind = some (fraction, after)) (third : readExponent after = some (power, rest)) :
    readUnsigned (whole ++ behind) = some ((digitsValue whole + fraction) * power, rest) := by
  obtain ⟨taken, left⟩ := digits_taken whole behind decimal ends
  have allowed : (decide (whole = []) || (decide (whole.head? = some 48) && decide (1 < whole.length))) = false := by
    rw [decide_eq_false some_, Bool.false_or, Bool.and_eq_false_iff]
    by_cases leads : whole.head? = some 48
    · exact Or.inr (decide_eq_false (not_lt.mpr (lead leads)))
    · exact Or.inl (decide_eq_false leads)
  rw [readUnsigned, taken, left]
  dsimp only
  rw [allowed, second]
  simp [third]

theorem unsigned_starts (text : Units) (read : Rat × Units) (reads : readUnsigned text = some read) :
    ∃ digit more, text = digit :: more ∧ isDigit digit = true := by
  cases text with
  | nil =>
      rw [readUnsigned] at reads
      cases reads
  | cons digit more =>
      refine ⟨digit, more, rfl, ?_⟩
      by_contra other
      rw [readUnsigned, List.takeWhile_cons_of_neg other] at reads
      cases reads

theorem read_unsigned (text : Units) (read : Rat × Units) (reads : readUnsigned text = some read) :
    readNumber text = some read := by
  obtain ⟨digit, more, rfl, decimal⟩ := unsigned_starts text read reads
  rw [readNumber, reads]
  intro _ same
  rw [(List.cons.inj same).1] at decimal
  cases decimal

-- What closes a member.
def Closes (rest : Units) : Prop := ∃ unit more, rest = unit :: more ∧ (unit = 44 ∨ unit = 125)

theorem closes_ends (rest : Units) (closes : Closes rest) : EndsNumber rest := by
  obtain ⟨unit, more, rfl, kind⟩ := closes
  intro head same
  cases same
  rcases kind with rfl | rfl <;> decide

theorem read_natural (n : Nat) (rest : Units) (closes : Closes rest) :
    readNumber (naturalText n ++ rest) = some ((n : Rat), rest) := by
  have ends := closes_ends rest closes
  have fraction : readFraction rest = some (0, rest) := read_no_fraction rest fun head => (ends 46 head).2.1 rfl
  have parts := read_parts (naturalText n) rest rest rest 0 1 (natural_some n) (natural_digits n) (natural_head n)
    (ends_digits rest ends) fraction (read_no_exponent rest ends)
  rw [read_unsigned _ _ parts, natural_value, add_zero, mul_one]

end numbers

section values

theorem skip_stops (unit : UInt16) (rest : Units) (stops : isSpace unit = false) : skipSpace (unit :: rest) = unit :: rest := by
  rw [skipSpace, List.dropWhile_cons_of_neg (by simp [stops])]

theorem read_string_value (fuel : Nat) (text rest : Units) :
    readValue (fuel + 1) (quote text ++ rest) = some (.string text, rest) := by
  have read := read_quoted text rest
  rw [quote, List.cons_append, List.append_assoc, List.singleton_append, readValue, skip_stops _ _ (by decide)]
  dsimp only
  rw [if_pos rfl, read]
  rfl

theorem read_bool_value (fuel : Nat) (value : Bool) (rest : Units) :
    readValue (fuel + 1) (units (toString value) ++ rest) = some (.bool value, rest) := by
  cases value with
  | true =>
      rw [show units (toString true) = [116, 114, 117, 101] by decide, readValue]
      rfl
  | false =>
      rw [show units (toString false) = [102, 97, 108, 115, 101] by decide, readValue]
      rfl

theorem read_null_value (fuel : Nat) (rest : Units) : readValue (fuel + 1) (units "null" ++ rest) = some (.null, rest) := by
  rw [show units "null" = [110, 117, 108, 108] by decide, readValue]
  rfl

theorem unlike_literal (word : String) (value : Value) (first head : UInt16) (more rest : Units)
    (spelled : units word = first :: more) (differs : head ≠ first) : readLiteral (head :: rest) word value = none := by
  rw [readLiteral, spelled, if_neg]
  intro starts
  rw [List.isPrefixOf_iff_prefix, List.cons_prefix_cons] at starts
  exact differs starts.1.symm

theorem read_number_value (fuel : Nat) (unit : UInt16) (text rest : Units) (value : Rat)
    (starts : isDigit unit = true ∨ unit = 45) (reads : readNumber (unit :: text) = some (value, rest)) :
    readValue (fuel + 1) (unit :: text) = some (.number value, rest) := by
  have apart : ∀ other : UInt16, isDigit other = false → other ≠ 45 → unit ≠ other := by
    rintro other unlike dash rfl
    rcases starts with digit | minus
    · rw [digit] at unlike
      cases unlike
    · exact dash minus
  have stops : isSpace unit = false := by
    simp [isSpace, apart 9 (by decide) (by decide), apart 10 (by decide) (by decide), apart 13 (by decide) (by decide),
      apart 32 (by decide) (by decide)]
  rw [readValue, skip_stops _ _ stops]
  dsimp only
  rw [if_neg (apart 34 (by decide) (by decide)), if_neg (apart 123 (by decide) (by decide)),
    if_neg (apart 91 (by decide) (by decide)), readScalar,
    unlike_literal "null" .null 110 unit [117, 108, 108] _ (by decide) (apart 110 (by decide) (by decide)),
    unlike_literal "true" (.bool true) 116 unit [114, 117, 101] _ (by decide) (apart 116 (by decide) (by decide)),
    unlike_literal "false" (.bool false) 102 unit [97, 108, 115, 101] _ (by decide) (apart 102 (by decide) (by decide)), reads]
  rfl

theorem read_natural_value (fuel n : Nat) (rest : Units) (closes : Closes rest) :
    readValue (fuel + 1) (naturalText n ++ rest) = some (.number n, rest) := by
  have read := read_natural n rest closes
  obtain ⟨head, tail, same⟩ := List.exists_cons_of_ne_nil (natural_some n)
  have digit := natural_digits n head (by simp [same])
  rw [same, List.cons_append] at read ⊢
  exact read_number_value fuel head _ rest n (Or.inl digit) read

theorem read_name (name rest : Units) : readName (quote name ++ 58 :: rest) = some (name, rest) := by
  have read := read_quoted name (58 :: rest)
  rw [quote, List.cons_append, List.append_assoc, List.singleton_append, readName, skip_stops _ _ (by decide)]
  dsimp only
  rw [if_pos rfl, read]
  rfl

-- A printed value that is read back in front of what closes a member.
def Prints (need : Nat) (text : Units) (value : Value) : Prop :=
  ∀ fuel rest, need ≤ fuel → Closes rest → readValue fuel (text ++ rest) = some (value, rest)

def PrintsMember (need : Nat) (printed : Units × Units) (member : Units × Value) : Prop :=
  printed.1 = member.1 ∧ Prints need printed.2 member.2

theorem read_last (need fuel : Nat) (printed : Units × Units) (member : Units × Value) (rest : Units)
    (prints : PrintsMember need printed member) (enough : need ≤ fuel) :
    readMembers (fuel + 1) (memberText printed ++ 125 :: rest) = some ([member], rest) := by
  have value := prints.2 fuel (125 :: rest) enough ⟨125, rest, rfl, Or.inr rfl⟩
  rw [memberText, List.append_assoc, List.cons_append, readMembers, read_name, Option.bind_eq_bind, Option.bind_some]
  dsimp only
  rw [value, prints.1]
  rfl

theorem read_next (need fuel : Nat) (printed : Units × Units) (member : Units × Value) (rest : Units)
    (prints : PrintsMember need printed member) (enough : need ≤ fuel) :
    readMembers (fuel + 1) (memberText printed ++ 44 :: rest) =
      (readMembers fuel rest).map fun read => (member :: read.1, read.2) := by
  have value := prints.2 fuel (44 :: rest) enough ⟨44, rest, rfl, Or.inl rfl⟩
  rw [memberText, List.append_assoc, List.cons_append, readMembers, read_name, Option.bind_eq_bind, Option.bind_some]
  dsimp only
  rw [value, prints.1]
  rfl

theorem read_members (need : Nat) (printed : List (Units × Units)) (members : List (Units × Value)) (rest : Units) (fuel : Nat)
    (each : List.Forall₂ (PrintsMember need) printed members) (some_ : printed ≠ []) (enough : need + printed.length ≤ fuel) :
    readMembers fuel (membersText printed ++ 125 :: rest) = some (members, rest) := by
  induction each generalizing fuel with
  | nil => exact absurd rfl some_
  | cons here later ih =>
      rename_i first member others values
      obtain ⟨less, rfl⟩ : ∃ less, fuel = less + 1 := ⟨fuel - 1, by rw [List.length_cons] at enough; omega⟩
      rw [List.length_cons] at enough
      cases others with
      | nil =>
          cases later
          rw [membersText, List.map_cons, List.map_nil, List.intercalate_singleton]
          exact read_last need less first member rest here (by omega)
      | cons second others =>
          have joined : membersText (first :: second :: others) ++ 125 :: rest =
              memberText first ++ 44 :: (membersText (second :: others) ++ 125 :: rest) := by
            rw [membersText, List.map_cons, List.map_cons, List.intercalate_cons_cons, ← List.map_cons, ← membersText]
            simp
          rw [joined, read_next need less first member _ here (by omega), ih less (by simp) (by omega)]
          rfl

theorem read_object_value (need : Nat) (printed : List (Units × Units)) (members : List (Units × Value)) (rest : Units)
    (fuel : Nat) (each : List.Forall₂ (PrintsMember need) printed members) (enough : need + printed.length ≤ fuel) :
    readValue (fuel + 1) (objectText printed ++ rest) = some (.object members, rest) := by
  cases printed with
  | nil =>
      cases each
      rw [objectText, readValue]
      rfl
  | cons first others =>
      have read := read_members need (first :: others) members rest fuel each (by simp) enough
      have starts : ∃ more, membersText (first :: others) ++ 125 :: rest = 34 :: more := by
        cases others with
        | nil => exact ⟨_, rfl⟩
        | cons second others =>
            rw [membersText, List.map_cons, List.map_cons, List.intercalate_cons_cons]
            exact ⟨_, rfl⟩
      obtain ⟨more, same⟩ := starts
      rw [objectText, List.cons_append, List.append_assoc, List.singleton_append, readValue, skip_stops _ _ (by decide)]
      dsimp only
      rw [if_neg (by decide), if_pos rfl, read, same, skip_stops _ _ (by decide), if_neg (by simp)]
      rfl

-- What may follow a value.
def EndsValue (rest : Units) : Prop := rest = [] ∨ ∃ unit more, rest = unit :: more ∧ (unit = 44 ∨ unit = 93 ∨ unit = 125)

theorem closes_ends_value (rest : Units) (closes : Closes rest) : EndsValue rest := by
  obtain ⟨unit, more, same, kind⟩ := closes
  exact Or.inr ⟨unit, more, same, kind.imp_right Or.inr⟩

theorem ends_value_number (rest : Units) (ends : EndsValue rest) : EndsNumber rest := by
  intro head same
  rcases ends with rfl | ⟨unit, more, rfl, kind⟩
  · cases same
  · cases same
    rcases kind with rfl | rfl | rfl <;> decide

-- A printed value that is read back wherever a value may end.
def PrintsAnywhere (need : Nat) (text : Units) (value : Value) : Prop :=
  ∀ fuel rest, need ≤ fuel → EndsValue rest → readValue fuel (text ++ rest) = some (value, rest)

theorem anywhere_prints (need : Nat) (text : Units) (value : Value) (anywhere : PrintsAnywhere need text value) :
    Prints need text value := fun fuel rest enough closes => anywhere fuel rest enough (closes_ends_value rest closes)

theorem anywhere_more (need more : Nat) (text : Units) (value : Value) (anywhere : PrintsAnywhere need text value)
    (le : need ≤ more) : PrintsAnywhere more text value := fun fuel rest enough => anywhere fuel rest (le.trans enough)

-- No value starts with the bracket that closes an array.
theorem closing_unread (fuel : Nat) (text : Units) (closing : (skipSpace text).head? = some 93) : readValue fuel text = none := by
  cases fuel with
  | zero => rfl
  | succ fuel =>
      cases skipped : skipSpace text with
      | nil =>
          rw [skipped] at closing
          cases closing
      | cons unit rest =>
          rw [skipped] at closing
          cases closing
          rw [readValue, skipped]
          dsimp only
          rw [if_neg (by decide), if_neg (by decide), if_neg (by decide), readScalar,
            unlike_literal "null" .null 110 93 [117, 108, 108] _ (by decide) (by decide),
            unlike_literal "true" (.bool true) 116 93 [114, 117, 101] _ (by decide) (by decide),
            unlike_literal "false" (.bool false) 102 93 [97, 108, 115, 101] _ (by decide) (by decide)]
          rfl

theorem read_items (need : Nat) (texts : List Units) (values : List Value) (rest : Units) (fuel : Nat)
    (each : List.Forall₂ (PrintsAnywhere need) texts values) (some_ : texts ≠ []) (enough : need + texts.length ≤ fuel) :
    readItems fuel ([44].intercalate texts ++ 93 :: rest) = some (values, rest) := by
  induction each generalizing fuel with
  | nil => exact absurd rfl some_
  | cons here later ih =>
      rename_i first value others values
      obtain ⟨less, rfl⟩ : ∃ less, fuel = less + 1 := ⟨fuel - 1, by rw [List.length_cons] at enough; omega⟩
      rw [List.length_cons] at enough
      cases others with
      | nil =>
          cases later
          have read := here less (93 :: rest) (by omega) (Or.inr ⟨93, rest, rfl, Or.inr (Or.inl rfl)⟩)
          rw [List.intercalate_singleton, readItems, read]
          rfl
      | cons second others =>
          have read := here less (44 :: ([44].intercalate (second :: others) ++ 93 :: rest)) (by omega)
            (Or.inr ⟨44, _, rfl, Or.inl rfl⟩)
          have joined : [44].intercalate (first :: second :: others) ++ 93 :: rest =
              first ++ 44 :: ([44].intercalate (second :: others) ++ 93 :: rest) := by
            rw [List.intercalate_cons_cons]
            simp
          rw [joined, readItems, read, Option.bind_eq_bind, Option.bind_some]
          dsimp only
          rw [skip_stops _ _ (by decide)]
          exact congrArg (Option.map fun read => (value :: read.1, read.2)) (ih less (by simp) (by omega))

theorem read_array_value (need : Nat) (texts : List Units) (values : List Value) (rest : Units) (fuel : Nat)
    (each : List.Forall₂ (PrintsAnywhere need) texts values) (enough : need + texts.length ≤ fuel) :
    readValue (fuel + 1) (arrayText texts ++ rest) = some (.array values, rest) := by
  cases texts with
  | nil =>
      cases each
      rw [arrayText, readValue]
      rfl
  | cons first others =>
      have read := read_items need (first :: others) values rest fuel each (by simp) enough
      have opens : (skipSpace ([44].intercalate (first :: others) ++ 93 :: rest)).head? ≠ some 93 := by
        intro closing
        obtain ⟨less, rfl⟩ : ∃ less, fuel = less + 1 := ⟨fuel - 1, by rw [List.length_cons] at enough; omega⟩
        rw [readItems, closing_unread less _ closing] at read
        cases read
      rw [arrayText, List.cons_append, List.append_assoc, List.singleton_append, readValue, skip_stops _ _ (by decide)]
      dsimp only
      rw [if_neg (by decide), if_neg (by decide), if_pos rfl, if_neg opens, read]
      rfl

end values

section wholeness

-- No surrogate stands alone.
def Whole (text : Units) : Prop := ∃ letters, text = utf16Code.words letters

def isPlain (unit : UInt16) : Bool := !isHigh unit && !isLow unit

theorem whole_letter (text : Units) (letter : Char) (spelled : charUnits letter = text) : Whole text := by
  refine ⟨[letter], ?_⟩
  rw [Code.words_cons, Code.words_nil, List.append_nil, ← spelled]
  rfl

theorem whole_append (first second : Units) (before : Whole first) (behind : Whole second) : Whole (first ++ second) := by
  obtain ⟨letters, rfl⟩ := before
  obtain ⟨others, rfl⟩ := behind
  exact ⟨letters ++ others, (utf16Code.words_append letters others).symm⟩

theorem whole_plain (text : Units) (plain : text.all isPlain = true) : Whole text := by
  induction text with
  | nil => exact ⟨[], rfl⟩
  | cons unit rest ih =>
      rw [List.all_cons, Bool.and_eq_true] at plain
      obtain ⟨here, later⟩ := plain
      rw [isPlain, Bool.and_eq_true, Bool.not_eq_true', Bool.not_eq_true'] at here
      have first : Whole [unit] := whole_letter _ (single unit) (units_single unit here.1 here.2)
      exact whole_append [unit] rest first (ih later)

theorem whole_escaped (unit : UInt16) : Whole (escaped unit) := by
  have hex : ∀ value : Nat, value < 16 → isPlain (hexDigit value) = true := by
    intro value small
    have all : ∀ n : Fin 16, isPlain (hexDigit n) = true := by decide
    exact all ⟨value, small⟩
  rw [escaped]
  cases known : shortEscapes.lookup unit with
  | some kind =>
      obtain ⟨front, back, same, _⟩ := List.lookup_eq_some_iff.mp known
      have all : (shortEscapes.all fun entry => isPlain 92 && isPlain entry.2) = true := by decide
      have plain := List.all_eq_true.mp all (unit, kind) (by rw [same]; simp)
      exact whole_plain [92, kind] (by simpa using plain)
  | none =>
      dsimp only
      split
      · have small := unit.toNat_lt
        refine whole_plain (unicodeEscape unit) ?_
        simp only [unicodeEscape, List.all_cons, List.all_nil, Bool.and_true, Bool.and_eq_true]
        exact ⟨by decide, by decide, hex _ (by omega), hex _ (by omega), hex _ (by omega), hex _ (by omega)⟩
      · rename_i plain
        simp only [Bool.or_eq_true, not_or, Bool.not_eq_true] at plain
        refine whole_plain [unit] ?_
        rw [List.all_cons, isPlain, plain.1.2, plain.2]
        rfl

theorem whole_quoted (text : Units) : Whole (quoted text) := by
  induction text using quoted.induct with
  | case1 => exact ⟨[], rfl⟩
  | case2 unit => exact whole_escaped unit
  | case3 unit next rest halves ih =>
      rw [quoted, if_pos halves]
      rw [Bool.and_eq_true] at halves
      have both : Whole [unit, next] := whole_letter _ (pair unit next) (units_pair unit next halves.1 halves.2)
      exact whole_append [unit, next] (quoted rest) both ih
  | case4 unit next rest apart ih =>
      rw [quoted, if_neg apart]
      exact whole_append _ _ (whole_escaped unit) ih

theorem whole_quote (text : Units) : Whole (quote text) :=
  whole_append [34] _ (whole_plain [34] (by decide)) (whole_append _ [34] (whole_quoted text) (whole_plain [34] (by decide)))

theorem whole_natural (n : Nat) : Whole (naturalText n) := by
  refine whole_plain _ (List.all_eq_true.mpr fun unit member => ?_)
  have digit := natural_digits n unit member
  simp only [isDigit, Bool.and_eq_true, decide_eq_true_eq] at digit
  simp only [isPlain, isHigh, isLow, Bool.and_eq_true, Bool.not_eq_true', Bool.and_eq_false_iff, decide_eq_false_iff_not]
  omega

theorem whole_joined (items : List Units) (each : ∀ item ∈ items, Whole item) : Whole ([44].intercalate items) := by
  induction items with
  | nil => exact ⟨[], rfl⟩
  | cons first others ih =>
      have here := each first (by simp)
      cases others with
      | nil =>
          rw [List.intercalate_singleton]
          exact here
      | cons second others =>
          rw [List.intercalate_cons_cons]
          exact whole_append _ _ (whole_append _ [44] here (whole_plain [44] (by decide)))
            (ih fun item inside => each item (by simp [inside]))

theorem whole_array (items : List Units) (each : ∀ item ∈ items, Whole item) : Whole (arrayText items) :=
  whole_append [91] _ (whole_plain [91] (by decide)) (whole_append _ [93] (whole_joined items each) (whole_plain [93] (by decide)))

theorem whole_object (members : List (Units × Units)) (each : ∀ member ∈ members, Whole member.2) :
    Whole (objectText members) := by
  have joined : Whole (membersText members) := by
    refine whole_joined _ fun text inside => ?_
    obtain ⟨member, listed, rfl⟩ := List.mem_map.mp inside
    exact whole_append _ _ (whole_quote member.1) (whole_append [58] _ (whole_plain [58] (by decide)) (each member listed))
  exact whole_append [123] _ (whole_plain [123] (by decide)) (whole_append _ [125] joined (whole_plain [125] (by decide)))

end wholeness

end Library.JsonText
