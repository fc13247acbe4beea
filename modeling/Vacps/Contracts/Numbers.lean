import Mathlib.Data.Rat.Floor
import Vacps.Contracts.CronNext

/- Number(text) of ECMAScript: the grammar of StringNumericLiteral, and the double nearest to what it
   writes. NaN and the infinities are none. -/
set_option autoImplicit false

namespace Vacps

def powerOfTwo (exponent : Int) : Rat :=
  if 0 ≤ exponent then 2 ^ exponent.toNat else 1 / 2 ^ (-exponent).toNat

def roundHalfEven (x : Rat) : Int :=
  let floor := x.floor
  if x - floor < 1 / 2 then floor
  else if x - floor = 1 / 2 ∧ floor % 2 = 0 then floor else floor + 1

-- The exponent of the leading bit of a number above zero.
def leadingBit (x : Rat) : Int :=
  let guess : Int := (Nat.log2 x.num.natAbs : Int) - Nat.log2 x.den
  if powerOfTwo guess ≤ x then guess else guess - 1

def nearestDouble (x : Rat) : Option Rat :=
  if x = 0 then some 0
  else
    let unit := powerOfTwo (max (leadingBit |x| - 52) (-1074))
    let rounded := roundHalfEven (x / unit) * unit
    if |rounded| < powerOfTwo 1024 then some rounded else none

def isDigit (char : Char) : Bool := '0' ≤ char && char ≤ '9'

def digitOf (char : Char) : Option Nat :=
  if isDigit char then some (char.toNat - 48)
  else if 'a' ≤ char ∧ char ≤ 'f' then some (char.toNat - 87)
  else if 'A' ≤ char ∧ char ≤ 'F' then some (char.toNat - 55) else none

def inRadix (radix : Nat) (digits : List Char) : Option Nat :=
  digits.foldl (fun value char => do
    let digit ← digitOf char
    if digit < radix then pure ((← value) * radix + digit) else none) (if digits = [] then none else some 0)

def signed (chars : List Char) : Int × List Char :=
  match chars with
  | '+' :: rest => (1, rest)
  | '-' :: rest => (-1, rest)
  | _ => (1, chars)

def exponentPart (chars : List Char) : Option Int :=
  match chars with
  | [] => some 0
  | char :: rest =>
      if char = 'e' ∨ char = 'E' then (inRadix 10 (signed rest).2).map fun digits => (signed rest).1 * digits else none

def powerOfTen (exponent : Int) : Rat :=
  if 0 ≤ exponent then 10 ^ exponent.toNat else 1 / 10 ^ (-exponent).toNat

-- StrUnsignedDecimalLiteral; an Infinity falls out as it starts with no digit.
def unsignedDecimal (chars : List Char) : Option Rat :=
  let whole := chars.takeWhile isDigit
  let rest := chars.dropWhile isDigit
  let fraction := if rest.head? = some '.' then rest.tail.takeWhile isDigit else []
  let rest := if rest.head? = some '.' then rest.tail.dropWhile isDigit else rest
  match inRadix 10 (whole ++ fraction), exponentPart rest with
  | some digits, some exponent => some (digits * powerOfTen (exponent - fraction.length))
  | _, _ => none

def stringNumericLiteral (chars : List Char) : Option Rat :=
  match chars with
  | [] => some 0
  | '0' :: mark :: digits =>
      if mark = 'x' ∨ mark = 'X' then (inRadix 16 digits).map fun value => (value : Rat)
      else if mark = 'o' ∨ mark = 'O' then (inRadix 8 digits).map fun value => (value : Rat)
      else if mark = 'b' ∨ mark = 'B' then (inRadix 2 digits).map fun value => (value : Rat)
      else unsignedDecimal chars
  | _ => (unsignedDecimal (signed chars).2).map fun value => (signed chars).1 * value

def number (text : String) : Option Rat := (stringNumericLiteral (trim text).toList).bind nearestDouble

-- The integer of Number(text), when Number.isSafeInteger admits it.
def safeInteger (text : String) : Option Int :=
  match number text with
  | none => none
  | some value => if value.den = 1 ∧ |value.num| ≤ 9007199254740991 then some value.num else none

example : ["1760000000", " 17.6e8 ", "0x10", "1760000000.00000001", "17.5", "1e400", "Infinity", ""].map safeInteger =
    [some 1760000000, some 1760000000, some 16, some 1760000000, none, none, none, some 0] := by decide +kernel

end Vacps
