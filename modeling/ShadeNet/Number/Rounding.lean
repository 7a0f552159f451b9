/-
# Rounding a quotient to the nearest whole number

Every number text and every reading of a number text in this library is one
exact quotient, rounded once. A quotient halfway between two whole numbers goes
to the even one.

Key definitions: `roundHalfEven`.
Key theorems: `roundHalfEven_mul`, `roundHalfEven_le`.
-/

namespace ShadeNet

/-- The whole number nearest to `n / d`; of two equally near ones the even one. -/
def roundHalfEven (n d : Nat) : Nat :=
  let q := n / d
  let r := n % d
  if 2 * r < d then q
  else if d < 2 * r then q + 1
  else if q % 2 = 0 then q else q + 1

/-- A whole quotient is not changed by rounding. -/
theorem roundHalfEven_mul (q d : Nat) (h : 0 < d) : roundHalfEven (q * d) d = q := by
  simp [roundHalfEven, Nat.mul_div_cancel q h, h]

/-- Rounding goes up by one at most. -/
theorem roundHalfEven_le (n d : Nat) : roundHalfEven n d ≤ n / d + 1 := by
  unfold roundHalfEven
  simp only
  split
  · omega
  · split
    · omega
    · split <;> omega

end ShadeNet
