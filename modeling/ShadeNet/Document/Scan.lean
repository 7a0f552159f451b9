/-
# Reading tokens

Splits the characters of a document into tokens and drops blanks and comments.
There is no token where a character fits nowhere, a quote or a block comment is
not closed, or an escape is not known.

Key definitions: `scanToken`, `scan?`.
-/
import ShadeNet.Document.Token

namespace ShadeNet.Document

/-! ### Words and numerals -/

/-- Characters that begin a numeral. -/
def isNumeralStart (c : Char) : Bool := isDecimalDigit c || c == '.' || c == '+' || c == '-'

/-- A word that begins with `c`. A point or a sign right behind it is an error,
unless the word is one that may have a value behind it. -/
def scanWord (c : Char) (rest : List Char) : Option (Token × List Char) :=
  let word := String.ofList (c :: rest.takeWhile isWordContinue)
  let after := rest.dropWhile isWordContinue
  if after.head?.any isRawWordChar && word ≠ presentWord then none else some (.word word, after)

/-- A word that begins with `c`, together with the bracket behind it and a first
look into the bracket if the word is that of an optional value. -/
def scanOptional (c : Char) (rest : List Char) : Option (Token × List Char) := do
  let (token, after) ← scanWord c rest
  if token = .word presentWord then
    match afterBlanks? after.length after with
    | some ('(' :: body) => some (.optional (look body), body)
    | _ => some (token, after)
  else some (token, after)

/-- What begins with the letter `r`: a raw text, a raw word or a word. -/
def scanR (rest : List Char) : Option (Token × List Char) :=
  let hashes := (rest.takeWhile (· = '#')).length
  let after := rest.drop hashes
  match after with
  | '"' :: body => (scanRaw hashes body).map fun (content, after) =>
      (.quoted (String.ofList content), after)
  | c :: _ =>
    if hashes = 0 then scanWord 'r' rest
    else if hashes = 1 ∧ isRawWordChar c then
      some (.word (String.ofList ('r' :: '#' :: after.takeWhile isRawWordChar)),
        after.dropWhile isRawWordChar)
    else none
  | [] => if hashes = 0 then scanWord 'r' rest else none

/-- What begins with the letter `b`: a literal for bytes or a word. -/
def scanB (rest : List Char) : Option (Token × List Char) :=
  match rest with
  | '"' :: body =>
    (scanQuoted .byte body.length body).toOption.map fun (_, after) => (.other, after)
  | '\'' :: body => (afterByte? body).map fun after => (.other, after)
  | 'r' :: body =>
    let hashes := (body.takeWhile (· = '#')).length
    match body.drop hashes with
    | '"' :: body => (scanRaw hashes body).map fun (_, after) => (.other, after)
    | _ => if hashes = 0 then scanWord 'b' rest else none
  | _ => scanWord 'b' rest

/-- The token that begins with `c`, which is no blank and no slash. Whether optional
values get a first look is up to the document. -/
def scanToken (looking : Bool) (c : Char) (rest : List Char) : Option (Token × List Char) :=
  match c with
  | '(' =>
    match rest with
    | ')' :: rest => some (.unit, rest)
    | rest => some (.opened .round, rest)
  | ')' => some (.closed .round, rest)
  | '[' => some (.opened .square, rest)
  | ']' => some (.closed .square, rest)
  | '\x7b' => some (.opened .curly, rest)
  | '\x7d' => some (.closed .curly, rest)
  | ',' => some (.comma, rest)
  | ':' => some (.colon, rest)
  | '#' => some (.hash, rest)
  | '!' => some (.bang, rest)
  | '"' => (scanQuoted .part rest.length rest).toOption.map fun (content, after) =>
      (.quoted (String.ofList content), after)
  | '\'' => (afterCharacter? rest).map fun after => (.other, after)
  | 'r' => scanR rest
  | 'b' => scanB rest
  | c =>
    if isNumeralStart c then
      some (.numeral (String.ofList (c :: rest.takeWhile isRawWordChar)),
        rest.dropWhile isRawWordChar)
    else if isWordStart c then if looking then scanOptional c rest else scanWord c rest
    else none

/-- The tokens of at most so many characters. -/
def scanTokens (looking : Bool) : Nat → List Char → Option (List Token)
  | _, [] => some []
  | 0, _ => none
  | n + 1, c :: rest =>
    if isBlank c then scanTokens looking n rest
    else if c = '/' then (afterComment? rest).bind (scanTokens looking n)
    else do
      let (token, rest) ← scanToken looking c rest
      let tokens ← scanTokens looking n rest
      some (token :: tokens)

/-- The tokens of a document. -/
def scan? (looking : Bool) (document : String) : Option (List Token) :=
  scanTokens looking document.toList.length document.toList

end ShadeNet.Document
