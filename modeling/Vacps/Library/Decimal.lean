import Mathlib.Data.Nat.Basic

/- Decimal numerals as bytes: their values, and the numeral of a number. -/
set_option autoImplicit false

namespace Library.Decimal

def decimalDigit (byte : UInt8) : Bool := 0x30 ≤ byte.toNat && byte.toNat ≤ 0x39

def digitsValue (digits : List UInt8) : Nat := digits.foldl (fun value digit => 10 * value + (digit.toNat - 0x30)) 0

-- A numeral may have leading zeros.
structure Denotes (text : List UInt8) (value : Nat) : Prop where
  some_ : text ≠ []
  digits : ∀ byte ∈ text, decimalDigit byte = true
  value : digitsValue text = value

def numeral (n : Nat) : List UInt8 := (Nat.toDigits 10 n).map fun digit => UInt8.ofNat digit.toNat

theorem digit_range (digit : Char) (decimal : digit.isDigit = true) : 0x30 ≤ digit.toNat ∧ digit.toNat ≤ 0x39 := by
  rw [Char.isDigit, Bool.and_eq_true, decide_eq_true_iff, decide_eq_true_iff] at decimal
  exact ⟨decimal.1, decimal.2⟩

theorem digit_byte (digit : Char) (decimal : digit.isDigit = true) :
    (UInt8.ofNat digit.toNat).toNat = digit.toNat ∧ 0x30 ≤ digit.toNat ∧ digit.toNat ≤ 0x39 := by
  have range := digit_range digit decimal
  exact ⟨UInt8.toNat_ofNat_of_lt' (by rw [UInt8.size]; omega), range⟩

-- A fold over digits of any encoding gives their value.
theorem digits_folded {α : Type} (unit : Char → α) (read : α → Nat)
    (encoded : ∀ digit, digit.isDigit = true → read (unit digit) = digit.toNat - 0x30) (digits : List Char) (value : Nat)
    (decimal : ∀ digit ∈ digits, digit.isDigit = true) :
    (digits.map unit).foldl (fun value item => 10 * value + read item) value = Nat.ofDigitChars 10 digits value := by
  induction digits generalizing value with
  | nil => exact Nat.ofDigitChars_nil.symm
  | cons digit rest ih =>
      rw [List.forall_mem_cons] at decimal
      rw [List.map_cons, List.foldl_cons, encoded digit decimal.1, Nat.ofDigitChars_cons, ih _ decimal.2]
      rfl

theorem to_digits_decimal (n : Nat) : ∀ digit ∈ Nat.toDigits 10 n, digit.isDigit = true :=
  fun _ inside => Nat.isDigit_of_mem_toDigits (by decide) (by decide) inside

theorem numeral_reads (n : Nat) : Denotes (numeral n) n where
  some_ := by
    rw [numeral, Ne, List.map_eq_nil_iff]
    exact Nat.toDigits_ne_nil
  digits := by
    intro byte member
    obtain ⟨digit, inside, rfl⟩ := List.mem_map.mp member
    obtain ⟨same, low, high⟩ := digit_byte digit (to_digits_decimal n digit inside)
    simp [decimalDigit, same, low, high]
  value := by
    have encoded : ∀ digit : Char, digit.isDigit = true → (UInt8.ofNat digit.toNat).toNat - 0x30 = digit.toNat - 0x30 :=
      fun digit decimal => by rw [(digit_byte digit decimal).1]
    rw [digitsValue, numeral, digits_folded _ _ encoded _ _ (to_digits_decimal n)]
    exact Nat.ofDigitChars_ten_toDigits

-- A numeral starts with no sign.
theorem numeral_unsigned (text : List UInt8) (value : Nat) (reads : Denotes text value) (byte : UInt8)
    (other : decimalDigit byte = false) : text.head? ≠ some byte := by
  intro head
  rw [reads.digits byte (List.mem_of_mem_head? (Option.mem_def.mpr head))] at other
  cases other

end Library.Decimal
