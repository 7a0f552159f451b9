/-
# Numerals

Reading whole numbers and decimal fractions from text. A numeral has at least
one digit; a sign in front is read by the callers that allow one.

Key definitions: `natOfDigits?`, `int32OfNumeral?`, `decimalOfNumeral?`.
-/
import ShadeNet.Number.Single

namespace ShadeNet

/-- The value of a hexadecimal digit in either case. -/
def hexDigit? (c : Char) : Option Nat :=
  if '0' ≤ c ∧ c ≤ '9' then some (c.toNat - '0'.toNat)
  else if 'a' ≤ c ∧ c ≤ 'f' then some (c.toNat - 'a'.toNat + 10)
  else if 'A' ≤ c ∧ c ≤ 'F' then some (c.toNat - 'A'.toNat + 10)
  else none

/-- The value of a digit of the given base, which is at most sixteen. -/
def digit? (base : Nat) (c : Char) : Option Nat :=
  (hexDigit? c).filter (· < base)

/-- The value of a row of digits after a value already read. -/
def accumulateDigits? (base : Nat) : Nat → List Char → Option Nat
  | value, [] => some value
  | value, c :: rest => (digit? base c).bind fun d => accumulateDigits? base (base * value + d) rest

/-- The value of a non-empty row of digits. -/
def natOfDigits? (base : Nat) (cs : List Char) : Option Nat :=
  if cs.isEmpty then none else accumulateDigits? base 0 cs

/-- Splits a sign off a numeral: whether it is a minus, and the rest. -/
def splitSign : List Char → Bool × List Char
  | '-' :: rest => (true, rest)
  | '+' :: rest => (false, rest)
  | cs => (false, cs)

/-- The 32-bit integer with the given sign and magnitude, if there is one. -/
def int32OfMagnitude? (negative : Bool) (magnitude : Nat) : Option Int32 :=
  let value : Int := if negative then -(magnitude : Int) else magnitude
  if Int32.minValue.toInt ≤ value ∧ value ≤ Int32.maxValue.toInt then some (Int32.ofInt value)
  else none

/-- Reads a decimal 32-bit integer, with an optional sign. -/
def int32OfNumeral? (cs : List Char) : Option Int32 :=
  let (negative, digits) := splitSign cs
  (natOfDigits? 10 digits).bind (int32OfMagnitude? negative)

/-- Whether a character is one of the ten decimal digits. -/
def isDecimalDigit (c : Char) : Bool := '0' ≤ c && c ≤ '9'

/-- Reads the exponent part of a decimal fraction: nothing, or an `e`, an
optional sign and digits. -/
def exponentOfNumeral? : List Char → Option Int
  | [] => some 0
  | c :: rest =>
    if c = 'e' ∨ c = 'E' then
      let (negative, digits) := splitSign rest
      (natOfDigits? 10 digits).map fun e => if negative then -(e : Int) else e
    else none

/-- Reads a decimal fraction without a sign: digits, a point and digits, an
exponent. At least one digit stands before or after the point. -/
def decimalOfNumeral? (cs : List Char) : Option (Nat × Int) :=
  let whole := cs.takeWhile isDecimalDigit
  let afterWhole := cs.dropWhile isDecimalDigit
  let (places, afterPlaces) :=
    match afterWhole with
    | '.' :: rest => (rest.takeWhile isDecimalDigit, rest.dropWhile isDecimalDigit)
    | _ => ([], afterWhole)
  (natOfDigits? 10 (whole ++ places)).bind fun mantissa =>
    (exponentOfNumeral? afterPlaces).map fun exponent => (mantissa, exponent - places.length)

/-- Reads a number from a decimal fraction with an optional sign. -/
def Single.ofNumeral? (cs : List Char) : Option Single :=
  let (negative, rest) := splitSign cs
  (decimalOfNumeral? rest).map fun (mantissa, exponent) => Single.ofDecimal negative mantissa exponent

end ShadeNet
