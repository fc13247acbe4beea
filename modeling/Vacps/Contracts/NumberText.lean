import Mathlib.Data.Nat.Prime.Basic
import Vacps.Contracts.Doubles
import Vacps.Library.JsonText

/- Number::toString of ECMAScript: the fewest decimal digits that round to the number, and the nearest of these. -/
set_option autoImplicit false

namespace Vacps

open Library Library.Utf16

structure Scientific where
  significand : Nat
  exponent : Int
deriving DecidableEq

namespace Scientific

def value (shown : Scientific) : Rat := shown.significand * powerOfTen shown.exponent

end Scientific

section shortest

def digitCount (n : Nat) : Nat := (Nat.toDigits 10 n).length

-- The denominator of a double is a power of two.
def writtenOut (x : Rat) : Scientific := ⟨x.num.natAbs * 5 ^ Nat.log2 x.den, -(Nat.log2 x.den : Int)⟩

-- The last digits left off, and what comes next on the digits that stay.
def cutDown (full : Scientific) (off : Nat) : Scientific := ⟨full.significand / 10 ^ off, full.exponent + off⟩

def cutUp (full : Scientific) (off : Nat) : Scientific :=
  let next := full.significand / 10 ^ off + 1
  if next = 10 ^ (digitCount full.significand - off) then ⟨next / 10, full.exponent + off + 1⟩
  else ⟨next, full.exponent + off⟩

def RoundsTo (x : Rat) (shown : Scientific) : Prop := nearestDouble shown.value = some x

instance (x : Rat) (shown : Scientific) : Decidable (RoundsTo x shown) :=
  inferInstanceAs (Decidable (nearestDouble shown.value = some x))

def closer (x : Rat) (down up : Scientific) : Scientific :=
  if x - down.value < up.value - x ∨ (x - down.value = up.value - x ∧ down.significand % 2 = 0) then down else up

-- The numbers with so many digits that round to x lie around it.
def withDigits (x : Rat) (count : Nat) : Option Scientific :=
  let full := writtenOut x
  let down := cutDown full (digitCount full.significand - count)
  let up := cutUp full (digitCount full.significand - count)
  if RoundsTo x down then if RoundsTo x up then some (closer x down up) else some down
  else if RoundsTo x up then some up else none

-- All digits of x are enough at the latest.
def shortest (x : Rat) : Scientific :=
  ((List.range' 1 (digitCount (writtenOut x).significand)).findSome? (withDigits x)).getD (writtenOut x)

end shortest

section printing

def exponentText (exponent : Int) : Units := 101 :: (if exponent < 0 then 45 else 43) :: JsonText.naturalText exponent.natAbs

def positiveText (shown : Scientific) : Units :=
  let digits := JsonText.naturalText shown.significand
  let point : Int := digits.length + shown.exponent
  if digits.length ≤ point ∧ point ≤ 21 then digits ++ List.replicate (point - digits.length).toNat 48
  else if 0 < point ∧ point ≤ 21 then digits.take point.toNat ++ 46 :: digits.drop point.toNat
  else if -6 < point ∧ point ≤ 0 then 48 :: 46 :: (List.replicate (-point).toNat 48 ++ digits)
  else if digits.length = 1 then digits ++ exponentText (point - 1)
  else digits.take 1 ++ 46 :: (digits.drop 1 ++ exponentText (point - 1))

-- JSON.stringify of a number; minus zero is written as zero.
def numberText (x : Rat) : Units :=
  if x = 0 then [48] else if x < 0 then 45 :: positiveText (shortest (-x)) else positiveText (shortest x)

end printing

section rounding

def IsDouble (x : Rat) : Prop := nearestDouble x = some x

theorem ten_zpow (exponent : Int) : powerOfTen exponent = (10 : Rat) ^ exponent := by
  unfold powerOfTen
  split
  · rename_i positive
    obtain ⟨n, rfl⟩ := Int.eq_ofNat_of_zero_le positive
    simp
  · rename_i negative
    obtain ⟨n, same⟩ := Int.eq_ofNat_of_zero_le (a := -exponent) (by omega)
    rw [same, show exponent = -(n : Int) by omega, zpow_neg, zpow_natCast, one_div, Int.toNat_natCast]

theorem round_neg (x : Rat) : roundHalfEven (-x) = -roundHalfEven x := by
  by_cases whole : x = x.floor
  · have negated : -x = ((-x.floor : Int) : Rat) := by
      rw [Int.cast_neg, ← whole]
    rw [negated, round_int, whole, round_int, ← whole]
  · have low : (x.floor : Rat) < x := lt_of_le_of_ne (Int.floor_le x) (Ne.symm whole)
    have high : x < x.floor + 1 := Int.lt_floor_add_one x
    have other : (-x).floor = -x.floor - 1 := by
      change ⌊-x⌋ = -x.floor - 1
      rw [Int.floor_eq_iff]
      push_cast
      constructor <;> linarith
    unfold roundHalfEven
    dsimp only
    rw [other]
    push_cast
    rcases lt_trichotomy (x - x.floor) (1 / 2) with less | half | more
    · rw [if_neg (by linarith), if_neg (by rintro ⟨same, _⟩; linarith), if_pos less]
      ring
    · have mirrored : -x - (-(x.floor : Rat) - 1) = 1 / 2 := by linarith
      rw [mirrored, half]
      by_cases even : x.floor % 2 = 0
      · rw [if_neg (lt_irrefl _), if_neg (by omega), if_neg (lt_irrefl _), if_pos ⟨rfl, even⟩]
        ring
      · rw [if_neg (lt_irrefl _), if_pos ⟨rfl, by omega⟩, if_neg (lt_irrefl _), if_neg fun both => even both.2]
        ring
    · rw [if_pos (by linarith), if_neg (by linarith), if_neg (by rintro ⟨same, _⟩; linarith)]
      ring

theorem double_neg (x : Rat) (double : IsDouble x) : IsDouble (-x) := by
  have negated : rounded (-x) = -rounded x := by
    rw [rounded, rounded, exponentOf, exponentOf, abs_neg, neg_div, round_neg]
    push_cast
    ring
  rw [IsDouble, nearest_rounded] at double ⊢
  rw [negated, abs_neg]
  split at double
  · rename_i bounded
    rw [if_pos bounded, Option.some.inj double]
  · cases double

theorem double_rounded (x : Rat) (double : IsDouble x) : rounded x = x := by
  rw [IsDouble, nearest_rounded] at double
  split at double
  · exact Option.some.inj double
  · cases double

theorem grid_den (x : Rat) (k : Nat) (grid : OnGrid (-k) x) : ∃ j, x.den = 2 ^ j := by
  obtain ⟨n, same⟩ := grid
  have divided : x = Rat.divInt n ((2 ^ k : Nat) : Int) := by
    rw [same, power_zpow, zpow_neg, zpow_natCast, Rat.divInt_eq_div]
    push_cast
    rw [div_eq_mul_inv]
  have divides : x.den ∣ 2 ^ k := by
    have known := Rat.den_dvd n ((2 ^ k : Nat) : Int)
    rw [← divided] at known
    exact_mod_cast known
  obtain ⟨j, _, power⟩ := (Nat.dvd_prime_pow Nat.prime_two).mp divides
  exact ⟨j, power⟩

theorem double_den (x : Rat) (double : IsDouble x) : ∃ j, x.den = 2 ^ j := by
  have grid := rounded_grid x
  rw [double_rounded x double] at grid
  exact grid_den x 1074 grid

theorem written_value (x : Rat) (double : IsDouble x) (positive : 0 < x) : (writtenOut x).value = x := by
  obtain ⟨j, power⟩ := double_den x double
  have whole : ((x.num.natAbs : Nat) : Rat) = (x.num : Rat) := by
    have same : (x.num.natAbs : Int) = x.num := Int.natAbs_of_nonneg (Rat.num_nonneg.mpr positive.le)
    rw [← Int.cast_natCast, same]
  have fraction : (x.num : Rat) = x * 2 ^ j := by
    rw [← Rat.mul_den_eq_num, power]
    push_cast
    rfl
  have ten : (10 : Rat) ^ j = 2 ^ j * 5 ^ j := by
    rw [← mul_pow]
    norm_num
  rw [Scientific.value, writtenOut, power, Nat.log2_two_pow, ten_zpow, zpow_neg, zpow_natCast]
  push_cast
  rw [whole, fraction, ten]
  field_simp

theorem with_digits_rounds (x : Rat) (count : Nat) (shown : Scientific) (found : withDigits x count = some shown) :
    RoundsTo x shown := by
  rw [withDigits] at found
  split at found
  · rename_i down
    split at found
    · rename_i up
      cases found
      rw [closer]
      split
      · exact down
      · exact up
    · cases found
      exact down
  · split at found
    · rename_i up
      cases found
      exact up
    · cases found

theorem shortest_rounds (x : Rat) (double : IsDouble x) (positive : 0 < x) : nearestDouble (shortest x).value = some x := by
  rw [shortest]
  cases found : (List.range' 1 (digitCount (writtenOut x).significand)).findSome? (withDigits x) with
  | none =>
      rw [Option.getD_none, written_value x double positive]
      exact double
  | some shown =>
      obtain ⟨count, _, here⟩ := List.exists_of_findSome?_eq_some found
      exact with_digits_rounds x count shown here

theorem shortest_some (x : Rat) (double : IsDouble x) (positive : 0 < x) : (shortest x).significand ≠ 0 := by
  intro zero
  have rounds := shortest_rounds x double positive
  rw [Scientific.value, zero, Nat.cast_zero, zero_mul, nearestDouble, if_pos rfl] at rounds
  exact positive.ne (Option.some.inj rounds)

end rounding

section reading

open JsonText (naturalText digitsValue EndsNumber EndsDigits)

theorem natural_lead (n : Nat) (some_ : n ≠ 0) : (naturalText n).head? ≠ some 48 := fun leads =>
  some_ (JsonText.natural_zero n leads)

theorem split_value (front back : Units) :
    (digitsValue front : Rat) + digitsValue back / 10 ^ back.length = digitsValue (front ++ back) / 10 ^ back.length := by
  rw [JsonText.digits_append]
  push_cast
  field_simp

theorem read_exponent (exponent : Int) (rest : Units) (ends : EndsNumber rest) :
    JsonText.readExponent (exponentText exponent ++ rest) = some (powerOfTen exponent, rest) := by
  have power := fun up => JsonText.read_power up exponent.natAbs rest (JsonText.ends_digits rest ends)
  rw [exponentText, powerOfTen]
  by_cases negative : exponent < 0
  · have read := power false
    rw [if_pos negative, if_neg (by omega)]
    rw [show (-exponent).toNat = exponent.natAbs by omega]
    exact read
  · have read := power true
    rw [if_neg negative, if_pos (by omega)]
    rw [show exponent.toNat = exponent.natAbs by omega]
    exact read

theorem exponent_ends (exponent : Int) (rest : Units) :
    EndsDigits (exponentText exponent ++ rest) ∧ (exponentText exponent ++ rest).head? ≠ some 46 := by
  refine ⟨?_, by simp [exponentText]⟩
  intro unit head
  cases head
  decide

theorem read_without_point (front after rest : Units) (power : Rat) (some_ : front ≠ [])
    (decimal : ∀ unit ∈ front, JsonText.isDigit unit = true) (lead : front.head? ≠ some 48)
    (ends : EndsDigits after ∧ after.head? ≠ some 46) (reads : JsonText.readExponent after = some (power, rest)) :
    JsonText.readUnsigned (front ++ after) = some (digitsValue front * power, rest) := by
  have parts := JsonText.read_parts front after after rest 0 power some_ decimal (fun leads => absurd leads lead) ends.1
    (JsonText.read_no_fraction after ends.2) reads
  rw [parts, add_zero]

theorem read_with_point (front back after rest : Units) (power : Rat) (some_ : front ≠ []) (more : back ≠ [])
    (decimal : ∀ unit ∈ front ++ back, JsonText.isDigit unit = true) (lead : front.head? = some 48 → front.length ≤ 1)
    (ends : EndsDigits after) (reads : JsonText.readExponent after = some (power, rest)) :
    JsonText.readUnsigned (front ++ 46 :: (back ++ after)) =
      some (digitsValue (front ++ back) / 10 ^ back.length * power, rest) := by
  have dot : EndsDigits (46 :: (back ++ after)) := by
    intro unit head
    cases head
    decide
  have fraction := JsonText.read_fraction back after more (fun unit member => decimal unit (by simp [member])) ends
  have parts := JsonText.read_parts front _ after rest _ power some_ (fun unit member => decimal unit (by simp [member])) lead
    dot fraction reads
  rw [parts, split_value]

theorem zeros_decimal (count : Nat) (unit : UInt16) (member : unit ∈ List.replicate count 48) :
    JsonText.isDigit unit = true := by
  rw [List.eq_of_mem_replicate member]
  decide

theorem read_positive (shown : Scientific) (rest : Units) (some_ : shown.significand ≠ 0) (ends : EndsNumber rest) :
    JsonText.readUnsigned (positiveText shown ++ rest) = some (shown.value, rest) := by
  have decimal := JsonText.natural_digits shown.significand
  have value := JsonText.natural_value shown.significand
  have lead := natural_lead shown.significand some_
  have digit := JsonText.natural_some shown.significand
  have after : EndsDigits rest ∧ rest.head? ≠ some 46 := ⟨JsonText.ends_digits rest ends, fun head => (ends 46 head).2.1 rfl⟩
  have last := JsonText.read_no_exponent rest ends
  rw [positiveText, Scientific.value, ten_zpow]
  generalize naturalText shown.significand = digits at decimal value lead digit
  have size := List.length_pos_iff.mpr digit
  split
  · rename_i integer
    obtain ⟨zeros, same⟩ := Int.eq_ofNat_of_zero_le (a := shown.exponent) (by omega)
    have padded : ∀ unit ∈ digits ++ List.replicate zeros 48, JsonText.isDigit unit = true := by
      intro unit member
      exact (List.mem_append.mp member).elim (decimal unit) (zeros_decimal zeros unit)
    rw [show ((digits.length : Int) + shown.exponent - digits.length).toNat = zeros by omega,
      read_without_point _ rest rest 1 (by simp [digit]) padded (by simpa [List.head?_append, digit] using lead) after last,
      JsonText.digits_append, JsonText.digits_zeros, value, same, zpow_natCast]
    simp
  · have front : ∀ place, place ≠ 0 → (digits.take place).head? = some 48 → (digits.take place).length ≤ 1 := by
      intro place some_ leads
      rw [List.head?_take, if_neg some_] at leads
      exact absurd leads lead
    have both : ∀ place, ∀ unit ∈ digits.take place ++ digits.drop place, JsonText.isDigit unit = true := by
      intro place
      rw [List.take_append_drop]
      exact decimal
    split
    · rename_i longer inside
      obtain ⟨place, same⟩ := Int.eq_ofNat_of_zero_le (a := digits.length + shown.exponent) (by omega)
      have split_ : digits.take place ≠ [] ∧ digits.drop place ≠ [] := by
        rw [Ne, Ne, List.take_eq_nil_iff, List.drop_eq_nil_iff]
        constructor
        · rintro (zero | none_)
          · omega
          · exact digit none_
        · omega
      rw [same, Int.toNat_natCast, List.append_assoc, List.cons_append,
        read_with_point _ _ rest rest 1 split_.1 split_.2 (both place) (front place (by omega)) after.1 last,
        List.take_append_drop, value, List.length_drop, show shown.exponent = -((digits.length - place : Nat) : Int) by omega,
        zpow_neg, zpow_natCast, mul_one, div_eq_mul_inv]
    · split
      · rename_i below
        obtain ⟨zeros, same⟩ := Int.eq_ofNat_of_zero_le (a := -(digits.length + shown.exponent)) (by omega)
        have padded : ∀ unit ∈ [48] ++ (List.replicate zeros 48 ++ digits), JsonText.isDigit unit = true := by
          intro unit member
          rw [← List.append_assoc, ← List.replicate_one, List.replicate_append_replicate, List.mem_append] at member
          exact member.elim (zeros_decimal (1 + zeros) unit) (decimal unit)
        have read := read_with_point [48] (List.replicate zeros 48 ++ digits) rest rest 1 (by simp) (by simp [digit]) padded
          (fun _ => le_refl 1) after.1 last
        rw [JsonText.digits_append, JsonText.digits_append, JsonText.digits_zeros, value, List.length_append,
          List.length_replicate] at read
        rw [same, Int.toNat_natCast, show shown.exponent = -((zeros + digits.length : Nat) : Int) by omega, zpow_neg, zpow_natCast]
        simpa [digitsValue, div_eq_mul_inv] using read
      · split
        · rename_i one
          rw [List.append_assoc, read_without_point digits _ rest _ digit decimal lead (exponent_ends _ rest)
            (read_exponent _ rest ends), value, ten_zpow, one,
            show ((1 : Nat) : Int) + shown.exponent - 1 = shown.exponent by omega]
        · rename_i many
          have rest_ : digits.take 1 ≠ [] ∧ digits.drop 1 ≠ [] := by
            rw [Ne, Ne, List.take_eq_nil_iff, List.drop_eq_nil_iff]
            exact ⟨by simp [digit], by omega⟩
          obtain ⟨more, same⟩ : ∃ more, digits.length = more + 1 := ⟨digits.length - 1, by omega⟩
          rw [List.append_assoc, List.cons_append, List.append_assoc,
            read_with_point _ _ _ rest _ rest_.1 rest_.2 (both 1) (front 1 (by omega)) (exponent_ends _ rest).1
              (read_exponent _ rest ends), List.take_append_drop, value, List.length_drop, same, ten_zpow,
            show ((more + 1 : Nat) : Int) + shown.exponent - 1 = more + shown.exponent by omega,
            zpow_add₀ (by norm_num), zpow_natCast, Nat.add_sub_cancel]
          field_simp

-- The value a number's text denotes as it stands.
def shownValue (x : Rat) : Rat := if x = 0 then 0 else if x < 0 then -(shortest (-x)).value else (shortest x).value

theorem value_pos (x : Rat) (double : IsDouble x) (positive : 0 < x) : 0 < (shortest x).value := by
  have some_ := Nat.pos_of_ne_zero (shortest_some x double positive)
  rw [Scientific.value, ten_zpow]
  positivity

theorem shown_injective (x y : Rat) (double : IsDouble x) (other : IsDouble y) (same : shownValue x = shownValue y) : x = y := by
  have signs : ∀ z, IsDouble z → (z = 0 ∧ shownValue z = 0) ∨
      (z < 0 ∧ shownValue z < 0 ∧ nearestDouble (-shownValue z) = some (-z)) ∨
      (0 < z ∧ 0 < shownValue z ∧ nearestDouble (shownValue z) = some z) := by
    intro z exact_
    rcases lt_trichotomy z 0 with negative | zero | positive
    · have mirrored : 0 < -z := by linarith
      have rounds := shortest_rounds (-z) (double_neg z exact_) mirrored
      have above := value_pos (-z) (double_neg z exact_) mirrored
      rw [shownValue, if_neg negative.ne, if_pos negative, neg_neg]
      exact Or.inr (Or.inl ⟨negative, by linarith, rounds⟩)
    · exact Or.inl ⟨zero, if_pos zero⟩
    · rw [shownValue, if_neg positive.ne', if_neg (not_lt.mpr positive.le)]
      exact Or.inr (Or.inr ⟨positive, value_pos z exact_ positive, shortest_rounds z exact_ positive⟩)
  rcases signs x double with ⟨zero, shown⟩ | ⟨negative, shown, rounds⟩ | ⟨positive, shown, rounds⟩ <;>
    rcases signs y other with ⟨zeroToo, shownToo⟩ | ⟨negativeToo, shownToo, roundsToo⟩ | ⟨positiveToo, shownToo, roundsToo⟩
  · rw [zero, zeroToo]
  · linarith
  · linarith
  · linarith
  · rw [same, roundsToo] at rounds
    exact (neg_inj.mp (Option.some.inj rounds)).symm
  · linarith
  · linarith
  · linarith
  · rw [same, roundsToo] at rounds
    exact (Option.some.inj rounds).symm

theorem read_number_text (x : Rat) (double : IsDouble x) (rest : Units) (ends : EndsNumber rest) :
    ∃ unit text, numberText x ++ rest = unit :: text ∧ (JsonText.isDigit unit = true ∨ unit = 45) ∧
      JsonText.readNumber (unit :: text) = some (shownValue x, rest) := by
  rw [numberText, shownValue]
  by_cases zero : x = 0
  · have parts := JsonText.read_parts [48] rest rest rest 0 1 (by simp) (by simp [JsonText.isDigit]) (fun _ => le_refl 1)
      (JsonText.ends_digits rest ends) (JsonText.read_no_fraction rest fun head => (ends 46 head).2.1 rfl)
      (JsonText.read_no_exponent rest ends)
    have read := JsonText.read_unsigned _ _ parts
    rw [if_pos zero, if_pos zero]
    exact ⟨48, rest, rfl, Or.inl (by decide), by simpa [digitsValue] using read⟩
  · rw [if_neg zero, if_neg zero]
    by_cases negative : x < 0
    · have mirrored : 0 < -x := by linarith
      have read := read_positive (shortest (-x)) rest (shortest_some (-x) (double_neg x double) mirrored) ends
      rw [if_pos negative, if_pos negative]
      exact ⟨45, _, List.cons_append, Or.inr rfl, by rw [JsonText.readNumber, read]; rfl⟩
    · have positive : 0 < x := lt_of_le_of_ne (not_lt.mp negative) (Ne.symm zero)
      have read := read_positive (shortest x) rest (shortest_some x double positive) ends
      obtain ⟨digit, more, starts, decimal⟩ := JsonText.unsigned_starts _ _ read
      rw [if_neg negative, if_neg negative]
      exact ⟨digit, more, starts, Or.inl decimal, by rw [← starts]; exact JsonText.read_unsigned _ _ read⟩

end reading

section wholeness

theorem positive_ascii (shown : Scientific) : ∀ unit ∈ positiveText shown, unit.toNat < 128 := by
  have digits : ∀ n, ∀ unit ∈ JsonText.naturalText n, unit.toNat < 128 := by
    intro n unit member
    have decimal := JsonText.natural_digits n unit member
    simp only [JsonText.isDigit, Bool.and_eq_true, decide_eq_true_eq] at decimal
    omega
  have exponents : ∀ exponent, ∀ unit ∈ exponentText exponent, unit.toNat < 128 := by
    intro exponent unit member
    rw [exponentText, List.mem_cons, List.mem_cons] at member
    rcases member with rfl | rfl | inside
    · decide
    · split <;> decide
    · exact digits _ unit inside
  intro unit member
  have zeros : ∀ count : Nat, ∀ unit ∈ List.replicate count (48 : UInt16), unit.toNat < 128 := by
    intro count unit member
    rw [List.eq_of_mem_replicate member]
    decide
  rw [positiveText] at member
  split at member
  · rw [List.mem_append] at member
    exact member.elim (digits _ unit) (zeros _ unit)
  · split at member
    · rw [List.mem_append, List.mem_cons] at member
      rcases member with taken | rfl | dropped
      · exact digits _ unit (List.mem_of_mem_take taken)
      · decide
      · exact digits _ unit (List.mem_of_mem_drop dropped)
    · split at member
      · rw [List.mem_cons, List.mem_cons, List.mem_append] at member
        rcases member with rfl | rfl | padding | digit
        · decide
        · decide
        · exact zeros _ unit padding
        · exact digits _ unit digit
      · split at member
        · rw [List.mem_append] at member
          exact member.elim (digits _ unit) (exponents _ unit)
        · rw [List.mem_append, List.mem_cons, List.mem_append] at member
          rcases member with taken | rfl | dropped | exponent
          · exact digits _ unit (List.mem_of_mem_take taken)
          · decide
          · exact digits _ unit (List.mem_of_mem_drop dropped)
          · exact exponents _ unit exponent

theorem whole_number (x : Rat) : JsonText.Whole (numberText x) := by
  have ascii : ∀ unit ∈ numberText x, unit.toNat < 128 := by
    intro unit member
    rw [numberText] at member
    split at member
    · rw [List.mem_singleton.mp member]
      decide
    · split at member
      · rcases List.mem_cons.mp member with rfl | inside
        · decide
        · exact positive_ascii _ unit inside
      · exact positive_ascii _ unit member
  refine JsonText.whole_plain _ (List.all_eq_true.mpr fun unit member => ?_)
  have small := ascii unit member
  simp only [JsonText.isPlain, isHigh, isLow, Bool.and_eq_true, Bool.not_eq_true', Bool.and_eq_false_iff, decide_eq_false_iff_not]
  omega

end wholeness

end Vacps
