/-
# Spacing

The characters that the Unicode property of white space holds of, and text
without them at its ends.

Key definitions: `isSpacing`, `trimSpacing`.
-/

namespace ShadeNet

/-- The ranges of the spacing characters, with both ends. -/
def spacingRanges : List (Nat × Nat) :=
  [(0x09, 0x0D), (0x20, 0x20), (0x85, 0x85), (0xA0, 0xA0), (0x1680, 0x1680), (0x2000, 0x200A),
    (0x2028, 0x2029), (0x202F, 0x202F), (0x205F, 0x205F), (0x3000, 0x3000)]

/-- Whether a character is spacing. -/
def isSpacing (c : Char) : Bool :=
  spacingRanges.any fun (first, last) => first ≤ c.toNat && c.toNat ≤ last

/-- The characters without the spacing at both ends. -/
def trimSpacing (cs : List Char) : List Char :=
  ((cs.dropWhile isSpacing).reverse.dropWhile isSpacing).reverse

end ShadeNet
