/-
# Numerals of a document

A numeral is a whole number or a fraction. A whole number may be written in one of
four bases, a mark of its width may stand behind it, and underscores may stand
between its digits. A fraction may have a mark of its precision, and infinities
and numbers that are none are spelled as words.

Key definitions: `wholeNumeral?`, `WholeNumeral.fits`, `fractionNumeral?`,
`namedSingle?`, `isNumeral`.
-/
import ShadeNet.Number.Numeral

namespace ShadeNet.Document

/-! ### Whole numbers -/

/-- A whole number as it is spelled. -/
structure WholeNumeral where
  /-- Whether a minus stands in front. -/
  negative : Bool
  /-- The base of the digits. -/
  base : Nat
  /-- The value of the digits. -/
  magnitude : Nat
  /-- What stands behind the digits. -/
  mark : String

/-- Removes the underscores from a row of digits that does not begin with one. -/
def ungroupDigits? : List Char → Option (List Char)
  | [] => none
  | '_' :: _ => none
  | digits => some (digits.filter (· ≠ '_'))

/-- Splits off the mark of a base. -/
def splitBase : List Char → Nat × List Char
  | '0' :: 'b' :: rest => (2, rest)
  | '0' :: 'o' :: rest => (8, rest)
  | '0' :: 'x' :: rest => (16, rest)
  | cs => (10, cs)

/-- Characters of a whole number, in any base. -/
def isDigitChar (c : Char) : Bool := (hexDigit? c).isSome || c == '_'

/-- Reads a whole number. -/
def wholeNumeral? (cs : List Char) : Option WholeNumeral := do
  let (negative, unsigned) := splitSign cs
  let (base, digits) := splitBase unsigned
  let ungrouped ← ungroupDigits? (digits.takeWhile isDigitChar)
  let magnitude ← natOfDigits? base ungrouped
  some ⟨negative, base, magnitude, String.ofList (digits.dropWhile isDigitChar)⟩

/-- A width of whole numbers. -/
structure Width where
  /-- Whether there are numbers below zero. -/
  signed : Bool
  /-- The number of bits. -/
  bits : Nat

namespace Width

/-- Whether a number of the width has the given sign and magnitude. -/
def holds (w : Width) (negative : Bool) (magnitude : Nat) : Bool :=
  if negative then magnitude ≤ if w.signed then Nat.pow 2 (w.bits - 1) else 0
  else magnitude < Nat.pow 2 (if w.signed then w.bits - 1 else w.bits)

/-- The widths that have a mark. -/
def marked : List (String × Width) :=
  [("i8", ⟨true, 8⟩), ("i16", ⟨true, 16⟩), ("i32", ⟨true, 32⟩), ("i64", ⟨true, 64⟩),
    ("u8", ⟨false, 8⟩), ("u16", ⟨false, 16⟩), ("u32", ⟨false, 32⟩), ("u64", ⟨false, 64⟩)]

end Width

namespace WholeNumeral

/-- Whether a mark of width may stand behind the digits. -/
def takesMark (w : WholeNumeral) : Bool := w.base = 2 || w.base = 10

/-- The width of a number that may have any. Without a mark it has 64 bits and a
sign if it is written with a minus. -/
def width? (w : WholeNumeral) : Option Width :=
  if w.mark = "" then some ⟨w.negative, 64⟩
  else if w.takesMark then Width.marked.lookup w.mark
  else none

/-- Whether a number fits in its width. -/
def fits (w : WholeNumeral) : Bool := w.width?.any (·.holds w.negative w.magnitude)

end WholeNumeral

/-! ### Fractions -/

/-- Characters of a fraction. -/
def isFractionChar (c : Char) : Bool :=
  isDecimalDigit c || c == 'e' || c == 'E' || c == '.' || c == '+' || c == '-' || c == '_'

/-- Removes the underscores from a fraction. An underscore may stand behind a
digit, an exponent mark or another underscore, signs aside. -/
def ungroupFraction? : Bool → List Char → Option (List Char)
  | _, [] => some []
  | allowed, '_' :: rest => if allowed then ungroupFraction? true rest else none
  | allowed, c :: rest =>
    let next := if c = '.' then false else if c = '+' ∨ c = '-' then allowed else true
    (ungroupFraction? next rest).map (c :: ·)

/-- A fraction and what stands behind it. -/
def fractionNumeral? (cs : List Char) : Option (Single × List Char) := do
  let ungrouped ← ungroupFraction? false (cs.takeWhile isFractionChar)
  let value ← Single.ofNumeral? ungrouped
  some (value, cs.dropWhile isFractionChar)

/-- Marks of precision behind fractions. -/
def fractionMarks : List String := ["", "f32", "f64"]

/-- A number that is spelled as a word, with an optional sign. -/
def namedSingle? (spelling : String) : Option Single :=
  match spelling with
  | "inf" | "+inf" | "inff32" | "+inff32" => some (Single.infinity false)
  | "-inf" | "-inff32" => some (Single.infinity true)
  | "NaN" | "+NaN" | "NaNf32" | "+NaNf32" => some (Single.notANumber false)
  | "-NaN" | "-NaNf32" => some (Single.notANumber true)
  | _ => none

/-- Whether a numeral is a number of any kind. A whole number beyond 64 bits is a
number all the same if it can be read as a fraction. -/
def isNumeral (spelling : String) : Bool :=
  let cs := spelling.toList
  (namedSingle? spelling).isSome ||
    ["+inff64", "-inff64", "+NaNf64", "-NaNf64"].contains spelling ||
    (wholeNumeral? cs).any (·.fits) ||
    (fractionNumeral? cs).any fun (_, rest) => fractionMarks.contains (String.ofList rest)

end ShadeNet.Document
