/-
# A first look into brackets

In a document with merged wrappings the brackets of an optional value may hold the
value or the members of the value. Which of them it is has to be known before the
members are read, so it is settled by a first look at the characters: a word and a
colon in front stand for fields; else the first comma that is not inside further
brackets stands for several members, unless it is the last one.

A first look passes over literals and comments, but it takes a comment right
behind a literal for plain characters, and it does not know every literal for a
byte. What it makes of these holds all the same: a quote in such a comment opens
a text, and a text that is not closed leaves nothing to look at.

Key definitions: `Look`, `look`.
-/
import ShadeNet.Document.Blank
import ShadeNet.Document.Quoted
import ShadeNet.Text.Word

namespace ShadeNet.Document

/-- What the brackets of an optional value are taken to hold. -/
inductive Look
  /-- The value. -/
  | one
  /-- Members of the value without names. -/
  | several
  /-- Members of the value with names. -/
  | fields
  /-- There is no telling, and that is an error. -/
  | torn
deriving DecidableEq

/-! ### Passing over literals and words -/

/-- Characters of a raw word. -/
def isRawWordChar (c : Char) : Bool := isWordContinue c || c == '.' || c == '+' || c == '-'

/-- The characters without a literal for a character in front. -/
def passCharacter : List Char → List Char
  | '\'' :: rest => (afterCharacter? rest).getD ('\'' :: rest)
  | cs => cs

/-- The characters `cs` without the quoted text `body` in front of them. They stay as
they are if an escape in it is not known; there is no going on if it is not closed. -/
def passQuoted? (kind : ByteEscape) (n : Nat) (cs body : List Char) : Option (List Char) :=
  match scanQuoted kind n body with
  | .ok (_, rest) => some rest
  | .error .escape => some cs
  | .error .unclosed => none

/-- The characters `cs` without the raw text `body` in front of them. They stay as they
are if no quote opens it; there is no going on if it is not closed. -/
def passRaw? (cs body : List Char) : Option (List Char) :=
  let hashes := (body.takeWhile (· = '#')).length
  match body.drop hashes with
  | '"' :: content => (scanRaw hashes content).map Prod.snd
  | _ => some cs

/-- The characters without a text in front. -/
def passText? (n : Nat) : List Char → Option (List Char)
  | '"' :: body => passQuoted? .part n ('"' :: body) body
  | 'r' :: body => passRaw? ('r' :: body) body
  | cs => some cs

/-- The characters without a text of bytes in front. -/
def passBytes? (n : Nat) : List Char → Option (List Char)
  | 'b' :: '"' :: body => passQuoted? .byte n ('b' :: '"' :: body) body
  | 'b' :: 'r' :: body => passRaw? ('b' :: 'r' :: body) body
  | cs => some cs

/-- The characters without literals in front: one for a character, then a text, then a
text of bytes. -/
def passLiterals? (n : Nat) (cs : List Char) : Option (List Char) :=
  (passText? n (passCharacter cs)).bind (passBytes? n)

/-- What follows a word. A letter that belongs to a quote behind it is no word. -/
def afterWord? : List Char → Option (List Char)
  | 'b' :: '"' :: _ | 'b' :: '\'' :: _ | 'b' :: 'r' :: '"' :: _ | 'b' :: 'r' :: '#' :: _ => none
  | 'r' :: '"' :: _ | 'r' :: '#' :: '"' :: _ | 'r' :: '#' :: '#' :: _ => none
  | 'r' :: '#' :: rest =>
    if rest.head?.any isRawWordChar then some (rest.dropWhile isRawWordChar) else none
  | c :: rest => if isWordStart c then some (rest.dropWhile isWordContinue) else none
  | [] => none

/-! ### Looking -/

/-- What a comma between the members says, given what follows it: the last comma
says nothing. -/
def lookBehindComma (n : Nat) (cs : List Char) : Look :=
  match afterBlanks? n cs with
  | none => .torn
  | some (')' :: _) => .one
  | some _ => .several

/-- Looks for the first comma that is inside as many brackets as are given, or for
the bracket that closes the outermost of them. The first number bounds the
characters that are looked at. -/
def lookInside : Nat → Nat → List Char → Look
  | 0, _, _ => .torn
  | n + 1, depth, cs =>
    match (afterBlanks? (n + 1) cs).bind (passLiterals? n) with
    | none | some [] => .torn
    | some (c :: rest) =>
      if c = '(' ∨ c = '[' ∨ c = '\x7b' then lookInside n (depth + 1) rest
      else if c = ')' ∨ c = ']' ∨ c = '\x7d' then
        if depth = 0 then .one else lookInside n (depth - 1) rest
      else if c = ',' ∧ depth = 0 then lookBehindComma n rest
      else lookInside n depth rest

/-- What the brackets of an optional value hold, from the characters behind the
bracket that opens. -/
def look (cs : List Char) : Look :=
  let n := cs.length
  match afterBlanks? n cs with
  | none => .torn
  | some cs =>
    match afterWord? cs with
    | none => lookInside n 0 cs
    | some rest =>
      match afterBlanks? n rest with
      | none => .torn
      | some (':' :: _) => .fields
      | some rest => lookInside n 0 rest

end ShadeNet.Document
