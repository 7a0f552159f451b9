/-
# Single-precision numbers, exactly

A `Single` is a 32-bit binary floating-point number, given by its bits. A finite
one is a whole number of units of `2 ^ -149`, so it is read, written and rounded
with whole numbers alone, and no rounding happens that is not written down here.

Key definitions: `Single.units`, `Single.ofRatio`, `Single.ofInt`,
`Single.ofDecimal`.
Key theorems: `Single.isFinite_ofInt`.
-/
import ShadeNet.Number.Rounding

namespace ShadeNet

/-- A 32-bit binary floating-point number: sign, eight bits of exponent and
twenty-three of fraction. -/
structure Single where
  /-- The bits, sign first. -/
  bits : UInt32
deriving DecidableEq

namespace Single

/-- Whether the sign bit is set, also on zeros and on what is not a number. -/
def negative (x : Single) : Bool := Nat.pow 2 31 ≤ x.bits.toNat

/-- The exponent bits. -/
def exponentField (x : Single) : Nat := x.bits.toNat / Nat.pow 2 23 % Nat.pow 2 8

/-- The fraction bits. -/
def fraction (x : Single) : Nat := x.bits.toNat % Nat.pow 2 23

/-- Whether the bits stand for a number at all that is neither infinite. -/
def isFinite (x : Single) : Bool := x.exponentField != 255

/-- Whether the bits stand for no number. -/
def isNaN (x : Single) : Bool := x.exponentField == 255 && x.fraction != 0

/-- The magnitude of a finite number, counted in units of `2 ^ -149`. -/
def units (x : Single) : Nat :=
  if x.exponentField = 0 then x.fraction
  else (Nat.pow 2 23 + x.fraction) * Nat.pow 2 (x.exponentField - 1)

/-- The number of units in one. -/
def unitsPerOne : Nat := Nat.pow 2 149

/-- The bits of positive infinity; everything finite and positive lies below. -/
def infinityBits : Nat := 255 * Nat.pow 2 23

/-- The number with the given sign whose other bits are `magnitude`, or infinity
when they would go past it. -/
def ofMagnitude (negative : Bool) (magnitude : Nat) : Single :=
  ⟨UInt32.ofNat ((if negative then Nat.pow 2 31 else 0) + min magnitude infinityBits)⟩

/-- Zero with the given sign. -/
def zero (negative : Bool) : Single := ofMagnitude negative 0

/-- Infinity with the given sign. -/
def infinity (negative : Bool) : Single := ofMagnitude negative infinityBits

/-- What is not a number, with the given sign. -/
def notANumber (negative : Bool) : Single :=
  ⟨UInt32.ofNat ((if negative then Nat.pow 2 31 else 0) + infinityBits + Nat.pow 2 22)⟩

/-- One. -/
def one : Single := ofMagnitude false (127 * Nat.pow 2 23)

/-- The number nearest to `num / den`, a tie going to the even fraction.

With `s` doublings of the unit the quotient needs at most twenty-four bits, and
the bits of `m` such doubled units are `s * 2 ^ 23 + m`, also where `m` carries
into the next exponent and where the number has no leading bit. -/
def ofRatio (negative : Bool) (num den : Nat) : Single :=
  let s := Nat.log2 (num * unitsPerOne / den) - 23
  ofMagnitude negative
    (s * Nat.pow 2 23 + roundHalfEven (num * unitsPerOne) (den * Nat.pow 2 s))

/-- The number nearest to a whole number. -/
def ofInt (i : Int) : Single := ofRatio (i < 0) i.natAbs 1

/-- The number nearest to `mantissa * 10 ^ exponent`. Exponents far outside the
range are decided by the count of digits alone. -/
def ofDecimal (negative : Bool) (mantissa : Nat) (exponent : Int) : Single :=
  let size : Int := (Nat.toDigits 10 mantissa).length + exponent
  if mantissa = 0 then zero negative
  else if 60 < size then infinity negative
  else if size < -60 then zero negative
  else match exponent with
    | .ofNat e => ofRatio negative (mantissa * Nat.pow 10 e) 1
    | .negSucc e => ofRatio negative mantissa (Nat.pow 10 (e + 1))

/-- Magnitudes below that of infinity are finite. -/
theorem isFinite_ofMagnitude (negative : Bool) {magnitude : Nat} (h : magnitude < infinityBits) :
    (ofMagnitude negative magnitude).isFinite = true := by
  have hbits : (ofMagnitude negative magnitude).bits.toNat =
      (if negative then Nat.pow 2 31 else 0) + magnitude := by
    rw [ofMagnitude, Nat.min_eq_left (Nat.le_of_lt h)]
    unfold infinityBits at h
    cases negative <;> simp at h ⊢ <;> omega
  have hne : (ofMagnitude negative magnitude).exponentField ≠ 255 := by
    rw [exponentField, hbits]
    unfold infinityBits at h
    cases negative <;> simp at h ⊢ <;> omega
  simpa [isFinite] using hne

/-- The number of a whole number of 32 bits is finite. -/
theorem isFinite_ofInt (i : Int32) : (ofInt i.toInt).isFinite = true := by
  refine isFinite_ofMagnitude _ ?_
  have hi : i.toInt.natAbs ≤ 2 ^ 31 := by
    have := i.toInt_lt
    have := i.le_toInt
    omega
  generalize hn : i.toInt.natAbs * unitsPerOne = n
  have hlog : n.log2 < 181 := by
    by_cases hz : n = 0
    · simp [hz]
    · rw [Nat.log2_lt hz, ← hn]
      simp only [unitsPerOne, Nat.pow_eq]
      omega
  have hdiv : n / 2 ^ (n.log2 - 23) < 2 ^ 24 := by
    rw [Nat.div_lt_iff_lt_mul (Nat.two_pow_pos _), ← Nat.pow_add]
    exact Nat.lt_of_lt_of_le Nat.lt_log2_self (Nat.pow_le_pow_right (by omega) (by omega))
  have hround := roundHalfEven_le n (1 * 2 ^ (n.log2 - 23))
  simp only [infinityBits, Nat.pow_eq]
  rw [Nat.div_one, Nat.one_mul] at *
  omega

end Single

end ShadeNet
