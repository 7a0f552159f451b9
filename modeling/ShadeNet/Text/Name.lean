/-
# Instance names

A record is known by an instance name over letters, digits and underscores. The
name of a node, an object, a multi-material or a mesh is its own name behind a
tag of its kind, with every other character replaced.

Key definitions: `isWordChar`, `sanitize`, `nodeName`, `objectName`,
`multiMaterialName`, `meshName`.
Key theorems: `isWordChar_sanitizeChar`, `sanitize_sanitize`.
-/

namespace ShadeNet

/-- Letters, digits and the underscore, of the ASCII set. -/
def isWordChar (c : Char) : Bool := c.isAlphanum || c == '_'

/-- The character that stands for `c` in an instance name: signs keep a letter of
their own, everything else outside words is an underscore. -/
def sanitizeChar (c : Char) : Char :=
  if c = '+' then 'p'
  else if c = '-' then 'm'
  else if isWordChar c then c
  else '_'

/-- A name made fit to be an instance name. -/
def sanitize (name : String) : String := name.map sanitizeChar

/-- The instance name that a tree's node asks for. -/
def nodeName (tree node : String) : String := sanitize ("NT" ++ tree ++ "N" ++ node)

/-- The instance name that an object asks for. -/
def objectName (object : String) : String := sanitize ("OB" ++ object)

/-- The instance name that the multi-material of an object asks for. -/
def multiMaterialName (object : String) : String := sanitize ("OBMA" ++ object)

/-- The instance name of a mesh. -/
def meshName (mesh : String) : String := sanitize ("ME" ++ mesh)

theorem isWordChar_of_isDigit {c : Char} (h : c.isDigit = true) : isWordChar c = true := by
  simp [isWordChar, Char.isAlphanum, h]

/-- No letter is a digit. -/
theorem isDigit_eq_false_of_isAlpha {c : Char} (h : c.isAlpha = true) : c.isDigit = false := by
  have hletter : (decide ('A'.val ≤ c.val ∧ c.val ≤ 'Z'.val) ||
      (decide ('a'.val ≤ c.val) && decide (c.val ≤ 'z'.val))) = true := h
  have hrange : 65 ≤ c.toNat ∧ c.toNat ≤ 90 ∨ 97 ≤ c.toNat ∧ c.toNat ≤ 122 := by
    simpa [UInt32.le_iff_toNat_le] using hletter
  refine Bool.eq_false_iff.mpr fun hd => ?_
  have hdigit : 48 ≤ c.toNat ∧ c.toNat ≤ 57 := Char.isDigit_iff_toNat.mp hd
  omega

theorem isWordChar_sanitizeChar (c : Char) : isWordChar (sanitizeChar c) = true := by
  unfold sanitizeChar
  split
  · decide
  · split
    · decide
    · split
      · assumption
      · decide

theorem sanitizeChar_of_isWordChar {c : Char} (h : isWordChar c = true) : sanitizeChar c = c := by
  have hp : c ≠ '+' := fun e => absurd (e ▸ h) (by decide)
  have hm : c ≠ '-' := fun e => absurd (e ▸ h) (by decide)
  simp [sanitizeChar, hp, hm, h]

/-- A fit name is not changed. -/
theorem sanitize_sanitize (name : String) : sanitize (sanitize name) = sanitize name := by
  apply String.toList_inj.mp
  simp only [sanitize, String.toList_map, List.map_map]
  refine List.map_congr_left fun c _ => ?_
  exact sanitizeChar_of_isWordChar (isWordChar_sanitizeChar c)

end ShadeNet
