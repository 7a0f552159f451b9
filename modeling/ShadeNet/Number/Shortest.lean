/-
# The shortest decimal that reads back

A document holds a number as the decimal with the fewest digits that is read
back to the same number, written out without an exponent. One to nine digits are
tried, on either side of the exact value; the exact value itself is the last
resort, so that reading back never fails.

Key definitions: `Decimal.text`, `Single.shortest`, `Single.numeral`.
-/
import ShadeNet.Number.Fixed

namespace ShadeNet

/-- The number `mantissa * 10 ^ exponent`. -/
structure Decimal where
  /-- All digits. -/
  mantissa : Nat
  /-- The power of ten. -/
  exponent : Int
deriving DecidableEq

namespace Decimal

/-- The decimal written out, with at least one place. -/
def text (d : Decimal) : String :=
  match d.exponent with
  | .ofNat e => toString (d.mantissa * Nat.pow 10 e) ++ ".0"
  | .negSucc e => placedText (e + 1) d.mantissa

/-- The number a decimal reads as. -/
def read (d : Decimal) : Single := Single.ofDecimal false d.mantissa d.exponent

end Decimal

namespace Single

/-- The exact value of a finite number, as a decimal with 149 places. -/
def exactDecimal (x : Single) : Decimal := ⟨x.units * Nat.pow 5 149, -149⟩

/-- The decimal exponent one above that of the leading digit of a finite number
other than zero. -/
def decimalSize (x : Single) : Int :=
  (Nat.toDigits 10 (x.units * Nat.pow 10 60 / unitsPerOne)).length - 60

/-- The whole number of steps of `10 ^ exponent` in a finite number. -/
def stepsBelow (x : Single) (exponent : Int) : Nat :=
  match exponent with
  | .ofNat e => x.units / (unitsPerOne * Nat.pow 10 e)
  | .negSucc e => x.units * Nat.pow 10 (e + 1) / unitsPerOne

/-- Whether a number lies in the upper half of its step of `10 ^ exponent`. -/
def nearerAbove (x : Single) (exponent : Int) : Bool :=
  match exponent with
  | .ofNat e => (2 * x.stepsBelow exponent + 1) * (unitsPerOne * Nat.pow 10 e) < 2 * x.units
  | .negSucc e => (2 * x.stepsBelow exponent + 1) * unitsPerOne < 2 * (x.units * Nat.pow 10 (e + 1))

/-- The decimals of the given digit count around a finite number, the nearer one first. -/
def neighbours (x : Single) (digits : Nat) : List Decimal :=
  let exponent := x.decimalSize - digits
  let below : Decimal := ⟨x.stepsBelow exponent, exponent⟩
  let above : Decimal :=
    if x.stepsBelow exponent + 1 = Nat.pow 10 digits then ⟨1, x.decimalSize⟩
    else ⟨x.stepsBelow exponent + 1, exponent⟩
  if x.nearerAbove exponent then [above, below] else [below, above]

/-- The magnitude of a finite number other than zero as the shortest decimal that
reads back. -/
def shortest (x : Single) : Decimal :=
  let magnitude := ofMagnitude false (x.bits.toNat % Nat.pow 2 31)
  (((List.range 9).flatMap fun k => x.neighbours (k + 1)).find? fun d => d.read = magnitude).getD
    x.exactDecimal

/-- The text of a number in a document. -/
def numeral (x : Single) : String :=
  (if x.negative then "-" else "") ++
    if x.isNaN then "NaN"
    else if !x.isFinite then "inf"
    else if x.units = 0 then "0.0"
    else x.shortest.text

end Single

end ShadeNet
