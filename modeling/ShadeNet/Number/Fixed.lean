/-
# Numbers with a fixed count of decimal places

The text of a number in a scene file has six places. It is the exact value
rounded once, a tie going to the even last digit, and it keeps the sign of a
zero and of a number that rounds to zero.

Key definitions: `placedText`, `Single.fixed`.
-/
import ShadeNet.Number.Single

namespace ShadeNet

/-- The decimal digits of `n`, with zeros in front up to `width` digits. -/
def paddedDigits (width n : Nat) : String :=
  String.ofList (List.leftpad width '0' (Nat.toDigits 10 n))

/-- The text of `n / 10 ^ places` with that many places. -/
def placedText (places n : Nat) : String :=
  toString (n / Nat.pow 10 places) ++ "." ++ paddedDigits places (n % Nat.pow 10 places)

/-- The text of a number with `places` decimal places. What is not a number has
no sign. -/
def Single.fixed (places : Nat) (x : Single) : String :=
  if x.isNaN then "NaN"
  else
    (if x.negative then "-" else "") ++
      if x.isFinite then
        placedText places (roundHalfEven (x.units * Nat.pow 10 places) Single.unitsPerOne)
      else "inf"

end ShadeNet
