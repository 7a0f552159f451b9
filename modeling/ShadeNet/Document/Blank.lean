/-
# Blanks and comments

What stands between the tokens of a document. A comment reaches to the end of its
line or to its closing mark; the latter kind nests.

Key definitions: `isBlank`, `afterComment?`, `afterBlanks?`.
-/

namespace ShadeNet.Document

/-- Characters that only separate tokens. -/
def isBlank (c : Char) : Bool :=
  c == ' ' || ('\t' ≤ c && c ≤ '\r') || c == '\x85' || c == '\u200E' || c == '\u200F' ||
    c == '\u2028' || c == '\u2029'

/-- What follows a block comment that is `depth` comments deep. -/
def afterBlock? : Nat → List Char → Option (List Char)
  | 0, cs => some cs
  | _ + 1, [] => none
  | depth + 1, '*' :: '/' :: rest => afterBlock? depth rest
  | depth + 1, '/' :: '*' :: rest => afterBlock? (depth + 2) rest
  | depth + 1, _ :: rest => afterBlock? (depth + 1) rest

/-- What follows a comment after its first slash. -/
def afterComment? : List Char → Option (List Char)
  | '/' :: rest => some (rest.dropWhile (· ≠ '\n'))
  | '*' :: rest => afterBlock? 1 rest
  | _ => none

/-- What follows the blanks and comments in front of some characters, if every
comment is closed. The number bounds how many there are. -/
def afterBlanks? : Nat → List Char → Option (List Char)
  | 0, cs => some cs
  | _, [] => some []
  | n + 1, c :: rest =>
    if isBlank c then afterBlanks? n rest
    else if c = '/' then (afterComment? rest).bind (afterBlanks? n)
    else some (c :: rest)

end ShadeNet.Document
