import Mathlib.Data.Int.Basic
import Mathlib.Data.List.Basic
import Mathlib.Tactic.IntervalCases

/- Proleptic Gregorian dates and fixed-width decimal text. Both directions of the day count are
   defined by arithmetic only, so they evaluate; the round trips are the facts a reader of date
   text needs. -/
set_option autoImplicit false

namespace Library.CivilDate

structure Civil where
  year : Int
  month : Nat
  day : Nat
deriving DecidableEq, Repr

-- Years run from the first of March, so a leap day is the last day of its year. A quadrennium
-- is then 1461 days, a century 36524 and an era of four centuries 146097.
def centuryOfEra (dayOfEra : Nat) : Nat := min 3 (dayOfEra / 36524)
def yearOfQuad (dayOfQuad : Nat) : Nat := min 3 (dayOfQuad / 365)

def yearOfEra (dayOfEra : Nat) : Nat × Nat :=
  let century := centuryOfEra dayOfEra
  let dayOfCentury := dayOfEra - century * 36524
  let year := yearOfQuad (dayOfCentury % 1461)
  (century * 100 + dayOfCentury / 1461 * 4 + year, dayOfCentury % 1461 - year * 365)

def marchMonth (dayOfYear : Nat) : Nat := (5 * dayOfYear + 2) / 153
def marchMonthStart (month : Nat) : Nat := (153 * month + 2) / 5

def civilOfMarch (year : Int) (dayOfYear : Nat) : Civil :=
  let month := marchMonth dayOfYear
  let day := dayOfYear - marchMonthStart month + 1
  if month < 10 then ⟨year, month + 3, day⟩ else ⟨year + 1, month - 9, day⟩

def civilOfDays (days : Int) : Civil :=
  let year := yearOfEra ((days + 719468) % 146097).toNat
  civilOfMarch ((days + 719468) / 146097 * 400 + year.1) year.2

def marchOfCivil (civil : Civil) : Int × Nat :=
  if civil.month ≤ 2 then (civil.year - 1, marchMonthStart (civil.month + 9) + civil.day - 1)
  else (civil.year, marchMonthStart (civil.month - 3) + civil.day - 1)

def daysOfMarch (year : Int) (dayOfYear : Nat) : Int :=
  year / 400 * 146097 + (year % 400 * 365 + year % 400 / 4 - year % 400 / 100 + dayOfYear) - 719468

def daysOfCivil (civil : Civil) : Int := daysOfMarch (marchOfCivil civil).1 (marchOfCivil civil).2

theorem century_of_era_bounds (dayOfEra : Nat) (bound : dayOfEra < 146097) :
    centuryOfEra dayOfEra ≤ 3 ∧ centuryOfEra dayOfEra * 36524 ≤ dayOfEra ∧
      dayOfEra - centuryOfEra dayOfEra * 36524 < 36525 := by
  unfold centuryOfEra
  omega

theorem year_of_quad_bounds (dayOfQuad : Nat) (bound : dayOfQuad < 1461) :
    yearOfQuad dayOfQuad ≤ 3 ∧ yearOfQuad dayOfQuad * 365 ≤ dayOfQuad ∧
      dayOfQuad - yearOfQuad dayOfQuad * 365 ≤ 365 := by
  unfold yearOfQuad
  omega

theorem year_of_era_bounds (dayOfEra : Nat) (bound : dayOfEra < 146097) :
    (yearOfEra dayOfEra).1 < 400 ∧ (yearOfEra dayOfEra).2 ≤ 365 := by
  obtain ⟨centuryBound, _, centuryEnd⟩ := century_of_era_bounds dayOfEra bound
  simp only [yearOfEra]
  generalize dayOfEra - centuryOfEra dayOfEra * 36524 = dayOfCentury at centuryEnd ⊢
  obtain ⟨yearBound, _, dayBound⟩ := year_of_quad_bounds (dayOfCentury % 1461) (by omega)
  omega

theorem day_of_era_parts (dayOfEra : Nat) (bound : dayOfEra < 146097) :
    (((yearOfEra dayOfEra).1 : Int) * 365 + ((yearOfEra dayOfEra).1 : Int) / 4 -
      ((yearOfEra dayOfEra).1 : Int) / 100 + (yearOfEra dayOfEra).2) = dayOfEra := by
  obtain ⟨centuryBound, centuryStart, centuryEnd⟩ := century_of_era_bounds dayOfEra bound
  simp only [yearOfEra]
  generalize centuryOfEra dayOfEra = century at *
  generalize centuryDay : dayOfEra - century * 36524 = dayOfCentury at *
  obtain ⟨yearBound, yearStart, _⟩ := year_of_quad_bounds (dayOfCentury % 1461) (by omega)
  generalize yearOfQuad (dayOfCentury % 1461) = year at *
  have quads : ((century * 100 + dayOfCentury / 1461 * 4 + year : Nat) : Int) / 4 =
      century * 25 + dayOfCentury / 1461 := by omega
  have centuries : ((century * 100 + dayOfCentury / 1461 * 4 + year : Nat) : Int) / 100 = century := by omega
  rw [quads, centuries]
  omega

theorem march_month_bounds (dayOfYear : Nat) (bound : dayOfYear ≤ 365) :
    marchMonth dayOfYear ≤ 11 ∧ marchMonthStart (marchMonth dayOfYear) ≤ dayOfYear ∧
      dayOfYear - marchMonthStart (marchMonth dayOfYear) ≤ 30 := by
  unfold marchMonth marchMonthStart
  omega

theorem march_of_civil_of_march (year : Int) (dayOfYear : Nat) (bound : dayOfYear ≤ 365) :
    marchOfCivil (civilOfMarch year dayOfYear) = (year, dayOfYear) := by
  obtain ⟨_, start, _⟩ := march_month_bounds dayOfYear bound
  simp only [civilOfMarch]
  by_cases early : marchMonth dayOfYear < 10
  · have march : ¬ marchMonth dayOfYear + 3 ≤ 2 := by omega
    simp only [if_pos early, marchOfCivil, if_neg march, Nat.add_sub_cancel]
    congr 1
    omega
  · have january : marchMonth dayOfYear - 9 ≤ 2 := by omega
    have back : marchMonth dayOfYear - 9 + 9 = marchMonth dayOfYear := by omega
    simp only [if_neg early, marchOfCivil, if_pos january, back]
    congr 1 <;> omega

theorem days_of_civil_of_days (days : Int) : daysOfCivil (civilOfDays days) = days := by
  have bound : ((days + 719468) % 146097).toNat < 146097 := by omega
  obtain ⟨yearBound, dayBound⟩ := year_of_era_bounds _ bound
  have parts := day_of_era_parts _ bound
  simp only [civilOfDays, daysOfCivil]
  rw [march_of_civil_of_march _ _ dayBound]
  generalize yearOfEra ((days + 719468) % 146097).toNat = year at *
  simp only [daysOfMarch]
  have era : ((days + 719468) / 146097 * 400 + (year.1 : Int)) / 400 = (days + 719468) / 146097 := by omega
  have rest : ((days + 719468) / 146097 * 400 + (year.1 : Int)) % 400 = year.1 := by omega
  rw [era, rest, parts]
  omega

example : civilOfDays 19782 = ⟨2024, 2, 29⟩ := by decide

theorem civil_of_days_bounds (days : Int) :
    (civilOfDays days).month ≤ 12 ∧ (civilOfDays days).day ≤ 31 := by
  have bound : ((days + 719468) % 146097).toNat < 146097 := by omega
  obtain ⟨_, dayBound⟩ := year_of_era_bounds _ bound
  obtain ⟨month, _, day⟩ := march_month_bounds _ dayBound
  simp only [civilOfDays, civilOfMarch]
  split <;> simp only <;> omega

theorem civil_of_days_year (days : Int) (low : -100000000 ≤ days) (high : days ≤ 100000000) :
    (civilOfDays days).year.natAbs < 1000000 := by
  have bound : ((days + 719468) % 146097).toNat < 146097 := by omega
  obtain ⟨yearBound, _⟩ := year_of_era_bounds _ bound
  simp only [civilOfDays, civilOfMarch]
  split <;> simp only <;> omega

def digitChar (digit : Nat) : Char := Char.ofNat (48 + digit % 10)

def digitValue (char : Char) : Option Nat :=
  if 48 ≤ char.toNat ∧ char.toNat ≤ 57 then some (char.toNat - 48) else none

theorem digit_value_of_char (digit : Nat) : digitValue (digitChar digit) = some (digit % 10) := by
  have bound : digit % 10 < 10 := Nat.mod_lt _ (by decide)
  unfold digitChar
  generalize digit % 10 = last at bound
  interval_cases last <;> rfl

-- The text of padStart(width, '0') for a number that fits the width.
def digits : Nat → Nat → List Char
  | 0, _ => []
  | width + 1, value => digits width (value / 10) ++ [digitChar value]

def readDigits (chars : List Char) : Option Nat :=
  chars.foldl (fun value char => value.bind fun high => (digitValue char).map fun low => high * 10 + low) (some 0)

theorem read_digits_append (chars : List Char) (char : Char) :
    readDigits (chars ++ [char]) =
      (readDigits chars).bind fun high => (digitValue char).map fun low => high * 10 + low := by
  simp only [readDigits, List.foldl_append, List.foldl_cons, List.foldl_nil]

theorem read_digits_of_digits (width value : Nat) (fits : value < 10 ^ width) :
    readDigits (digits width value) = some value := by
  induction width generalizing value with
  | zero =>
      have zero : value = 0 := by simpa using fits
      simp [digits, readDigits, zero]
  | succ width ih =>
      have high : value / 10 < 10 ^ width := by
        rw [Nat.pow_succ] at fits
        exact Nat.div_lt_of_lt_mul (by omega)
      rw [digits, read_digits_append, ih _ high, digit_value_of_char]
      simp only [Option.bind_some, Option.map_some]
      congr 1
      omega

theorem digits_length (width value : Nat) : (digits width value).length = width := by
  induction width generalizing value with
  | zero => rfl
  | succ width ih => simp [digits, ih]

end Library.CivilDate
