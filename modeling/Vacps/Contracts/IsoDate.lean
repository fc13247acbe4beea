import Vacps.Library.CivilDate

/- Date#toISOString, Date.parse and the two cursor helpers of contracts/cron-next.ts. A time value
   is an Int of milliseconds; an invalid Date and NaN are none. Date.parse is fixed by ECMAScript
   only on the text toISOString writes, so its answer on any other text is a parameter. -/
set_option autoImplicit false

namespace Vacps

open Library.CivilDate

def maxTime : Int := 8640000000000000

abbrev validTime (ms : Int) : Prop := -maxTime ≤ ms ∧ ms ≤ maxTime

def timeClip (ms : Int) : Option Int := if validTime ms then some ms else none

def yearText (year : Int) : List Char :=
  if 0 ≤ year ∧ year ≤ 9999 then digits 4 year.natAbs
  else (if year < 0 then '-' else '+') :: digits 6 year.natAbs

def clockText (clock : Nat) : List Char :=
  digits 2 (clock / 3600000) ++ ':' :: digits 2 (clock / 60000 % 60) ++ ':' ::
    digits 2 (clock / 1000 % 60) ++ '.' :: digits 3 (clock % 1000) ++ ['Z']

def isoChars (ms : Int) : List Char :=
  let civil := civilOfDays (ms / 86400000)
  yearText civil.year ++ '-' :: digits 2 civil.month ++ '-' :: digits 2 civil.day ++ 'T' ::
    clockText (ms % 86400000).toNat

def toISOString (ms : Int) : String := String.ofList (isoChars ms)

def field (width : Nat) (chars : List Char) : Option (Nat × List Char) :=
  (readDigits (chars.take width)).map fun value => (value, chars.drop width)

def literal (expected : Char) : List Char → Option (List Char)
  | [] => none
  | char :: rest => if char = expected then some rest else none

def readYear (chars : List Char) : Option (Int × List Char) :=
  match literal '+' chars, literal '-' chars with
  | some rest, _ => (field 6 rest).map fun (year, rest) => ((year : Int), rest)
  | none, some rest => (field 6 rest).map fun (year, rest) => (-(year : Int), rest)
  | none, none => (field 4 chars).map fun (year, rest) => ((year : Int), rest)

def readClock (chars : List Char) : Option Nat := do
  let (hour, chars) ← field 2 chars
  let (minute, chars) ← field 2 (← literal ':' chars)
  let (second, chars) ← field 2 (← literal ':' chars)
  let (milli, _) ← field 3 (← literal '.' chars)
  pure (hour * 3600000 + minute * 60000 + second * 1000 + milli)

def readIso (chars : List Char) : Option Int := do
  let (year, chars) ← readYear chars
  let (month, chars) ← field 2 (← literal '-' chars)
  let (day, chars) ← field 2 (← literal '-' chars)
  let clock ← readClock (← literal 'T' chars)
  pure (daysOfCivil ⟨year, month, day⟩ * 86400000 + clock)

-- The reading counts only when toISOString writes the very text back; everything else is one of
-- the formats an engine may add, answered by `other`.
def dateParse (other : String → Option Int) (text : String) : Option Int :=
  match readIso text.toList with
  | some ms => if toISOString ms = text then timeClip ms else (other text).bind timeClip
  | none => (other text).bind timeClip

theorem field_of_digits (width value : Nat) (rest : List Char) (fits : value < 10 ^ width) :
    field width (digits width value ++ rest) = some (value, rest) := by
  have size := digits_length width value
  simp [field, List.take_append_of_le_length (Nat.le_of_eq size.symm),
    List.take_of_length_le (Nat.le_of_eq size), List.drop_append_of_le_length (Nat.le_of_eq size.symm),
    List.drop_of_length_le (Nat.le_of_eq size), read_digits_of_digits width value fits]

theorem literal_here (expected : Char) (rest : List Char) : literal expected (expected :: rest) = some rest := by
  simp [literal]

theorem literal_of_digit (expected : Char) (digit : Nat) (rest : List Char)
    (notDigit : digitValue expected = none) : literal expected (digitChar digit :: rest) = none := by
  have different : digitChar digit ≠ expected := by
    intro same
    have value := digit_value_of_char digit
    rw [same, notDigit] at value
    cases value
  simp [literal, different]

theorem four_digits (value : Nat) :
    digits 4 value = [digitChar (value / 10 / 10 / 10), digitChar (value / 10 / 10), digitChar (value / 10), digitChar value] := rfl

theorem read_year_of_text (year : Int) (rest : List Char) (bound : year.natAbs < 1000000) :
    readYear (yearText year ++ rest) = some (year, rest) := by
  unfold yearText
  by_cases short : 0 ≤ year ∧ year ≤ 9999
  · rw [if_pos short]
    have plus : literal '+' (digits 4 year.natAbs ++ rest) = none := by
      rw [four_digits]
      exact literal_of_digit '+' _ _ (by decide)
    have minus : literal '-' (digits 4 year.natAbs ++ rest) = none := by
      rw [four_digits]
      exact literal_of_digit '-' _ _ (by decide)
    have size : year.natAbs < 10 ^ 4 := by omega
    have value : ((year.natAbs : Nat) : Int) = year := by omega
    simp [readYear, plus, minus, field_of_digits 4 _ rest size, value]
  · rw [if_neg short]
    have size : year.natAbs < 10 ^ 6 := by omega
    by_cases negative : year < 0
    · simp [readYear, negative, literal, field_of_digits 6 _ rest size, abs_of_neg negative]
    · simp [readYear, negative, literal, field_of_digits 6 _ rest size, abs_of_nonneg (not_lt.mp negative)]

theorem read_clock_of_text (clock : Nat) (bound : clock < 86400000) : readClock (clockText clock) = some clock := by
  have hour : clock / 3600000 < 10 ^ 2 := by omega
  have minute : clock / 60000 % 60 < 10 ^ 2 := by omega
  have second : clock / 1000 % 60 < 10 ^ 2 := by omega
  have milli : clock % 1000 < 10 ^ 3 := by omega
  have parts : clock / 3600000 * 3600000 + clock / 60000 % 60 * 60000 + clock / 1000 % 60 * 1000 + clock % 1000 = clock := by
    omega
  simp only [readClock, clockText, List.append_assoc, List.cons_append, bind, pure, field_of_digits _ _ _ hour,
    field_of_digits _ _ _ minute, field_of_digits _ _ _ second, field_of_digits _ _ _ milli, literal_here,
    Option.bind_some, parts]

theorem read_iso_of_chars (ms : Int) (valid : validTime ms) : readIso (isoChars ms) = some ms := by
  unfold validTime maxTime at valid
  have year := civil_of_days_year (ms / 86400000) (by omega) (by omega)
  have bounds := civil_of_days_bounds (ms / 86400000)
  have month : (civilOfDays (ms / 86400000)).month < 10 ^ 2 := by omega
  have day : (civilOfDays (ms / 86400000)).day < 10 ^ 2 := by omega
  have clock : (ms % 86400000).toNat < 86400000 := by omega
  have date := days_of_civil_of_days (ms / 86400000)
  have parts : ms / 86400000 * 86400000 + ((ms % 86400000).toNat : Int) = ms := by omega
  simp only [readIso, isoChars, List.append_assoc, List.cons_append, bind, pure, read_year_of_text _ _ year,
    field_of_digits _ _ _ month, field_of_digits _ _ _ day, literal_here, Option.bind_some,
    read_clock_of_text _ clock, date, parts]

theorem date_parse_iso (other : String → Option Int) (ms : Int) (valid : validTime ms) :
    dateParse other (toISOString ms) = some ms := by
  have read : readIso (toISOString ms).toList = some ms := by
    simpa [toISOString] using read_iso_of_chars ms valid
  simp [dateParse, read, timeClip, valid]

theorem time_clip_valid (ms time : Int) (clipped : timeClip ms = some time) : validTime time := by
  unfold timeClip at clipped
  split at clipped
  · cases clipped
    assumption
  · cases clipped

theorem date_parse_valid (other : String → Option Int) (text : String) (ms : Int)
    (parsed : dateParse other text = some ms) : validTime ms := by
  have fallback : (other text).bind timeClip = some ms → validTime ms := by
    intro clipped
    obtain ⟨time, _, clip⟩ := Option.bind_eq_some_iff.mp clipped
    exact time_clip_valid time ms clip
  unfold dateParse at parsed
  split at parsed
  · split at parsed
    · exact time_clip_valid _ _ parsed
    · exact fallback parsed
  · exact fallback parsed

theorem to_iso_injective (a b : Int) (aValid : validTime a) (bValid : validTime b)
    (same : toISOString a = toISOString b) : a = b := by
  have parsed := date_parse_iso (fun _ => none) a aValid
  rw [same, date_parse_iso _ b bValid] at parsed
  exact (Option.some.inj parsed).symm

-- canonicalUtcIso takes a string, a number or a Date; each reaches it as its time value here.
def canonicalUtcIso (time : Option Int) : Option String := time.map toISOString

-- The empty string is falsy.
def truthy (text : Option String) : Option String := text.filter (· ≠ "")

theorem truthy_truthy (text : Option String) : truthy (truthy text) = truthy text := by
  cases text with
  | none => rfl
  | some raw => by_cases empty : raw = "" <;> simp [truthy, Option.filter, empty]

theorem truthy_iso (ms : Int) : truthy (some (toISOString ms)) = some (toISOString ms) := by
  have shown : toISOString ms ≠ "" := by
    intro empty
    have chars := congrArg String.toList empty
    simp [toISOString, isoChars] at chars
  simp [truthy, Option.filter, shown]

def laterUtcIso (other : String → Option Int) (a b : Option String) : Option String :=
  match (truthy a).bind (dateParse other), (truthy b).bind (dateParse other) with
  | some am, some bm => canonicalUtcIso (some (max am bm))
  | some am, none => canonicalUtcIso (some am)
  | none, some bm => canonicalUtcIso (some bm)
  | none, none => none

example : toISOString 1717232400000 = "2024-06-01T09:00:00.000Z" := by decide
example : dateParse (fun _ => none) "2024-06-01T09:00:00.000Z" = some 1717232400000 := by decide

end Vacps
