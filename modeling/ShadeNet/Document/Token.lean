/-
# Tokens of a document

Scenes, catalogs and settings are kept as documents of nested groups. A document
is a row of tokens: brackets, separators, words, numerals and quoted texts, with
blanks and comments between them.

A numeral is kept as it is spelled, since what it may be depends on what is
wanted. Character and byte literals have no use but are tokens all the same.

Key definitions: `Token`, `Token.text`, `quoteText`.
-/
import ShadeNet.Document.Look
import ShadeNet.Text.Visible

namespace ShadeNet.Document

/-- The kinds of brackets. -/
inductive Bracket
  | round
  | square
  | curly
deriving DecidableEq

namespace Bracket

/-- The character that opens a bracket. -/
def opening : Bracket → Char
  | round => '('
  | square => '['
  | curly => '\x7b'

/-- The character that closes a bracket. -/
def closing : Bracket → Char
  | round => ')'
  | square => ']'
  | curly => '\x7d'

end Bracket

/-- A token. -/
inductive Token
  | opened (bracket : Bracket)
  | closed (bracket : Bracket)
  /-- Round brackets with nothing between them, not even a blank. -/
  | unit
  /-- The word of an optional value and its opening bracket, after a first look. -/
  | optional (look : Look)
  | comma
  | colon
  /-- The two marks that only stand before a list of extensions. -/
  | hash
  | bang
  /-- A word; one that needs it is spelled behind `r#`. -/
  | word (spelling : String)
  | numeral (spelling : String)
  | quoted (content : String)
  /-- A literal for a character or for bytes. -/
  | other
deriving DecidableEq

/-- The word in front of an optional value that is there. -/
def presentWord : String := "Some"

/-- The escape that a character is written as inside quotes, or the character. -/
def escapeChar (c : Char) : List Char :=
  if c = '\x00' then ['\\', '0']
  else if c = '\t' then ['\\', 't']
  else if c = '\n' then ['\\', 'n']
  else if c = '\r' then ['\\', 'r']
  else if c = '"' ∨ c = '\'' ∨ c = '\\' then ['\\', c]
  else if standsForItself c then [c]
  else ['\\', 'u', '\x7b'] ++ Nat.toDigits 16 c.toNat ++ ['\x7d']

/-- A text in quotes. -/
def quoteText (s : String) : List Char := '"' :: (s.toList.flatMap escapeChar ++ ['"'])

/-- A token as it is written. -/
def Token.text : Token → List Char
  | opened b => [b.opening]
  | closed b => [b.closing]
  | unit => ['(', ')']
  | optional _ => presentWord.toList ++ ['(']
  | comma => [',']
  | colon => [':']
  | hash => ['#']
  | bang => ['!']
  | word spelling => spelling.toList
  | numeral spelling => spelling.toList
  | quoted content => quoteText content
  | other => ['\'', ' ', '\'']

end ShadeNet.Document
