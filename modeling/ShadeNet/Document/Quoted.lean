/-
# Quoted texts and literals

Texts, characters and bytes stand in quotes. Inside them a backslash begins an
escape, except in a raw text, which ends at a quote with as many marks behind it
as stand in front of the text.

Key definitions: `escape?`, `QuoteFault`, `scanQuoted`, `scanRaw`, `afterCharacter?`,
`afterByte?`.
-/
import ShadeNet.Number.Numeral

namespace ShadeNet.Document

/-! ### Escapes -/

/-- The value of two hexadecimal digits. -/
def hexByte? : List Char → Option (Nat × List Char)
  | a :: b :: rest => do
    let high ← hexDigit? a
    let low ← hexDigit? b
    some (16 * high + low, rest)
  | _ => none

/-- The bytes of as many escapes for one byte as follow each other. -/
def moreBytes? : Nat → List Char → Option (List Nat × List Char)
  | 0, cs => some ([], cs)
  | n + 1, '\\' :: 'x' :: rest => do
    let (byte, rest) ← hexByte? rest
    let (bytes, rest) ← moreBytes? n rest
    some (byte :: bytes, rest)
  | _ + 1, _ => none

/-- The number of bytes that follow a first byte of a character. -/
def byteCount? (first : Nat) : Option Nat :=
  if first < 0x80 then some 0
  else if 0xC2 ≤ first ∧ first < 0xE0 then some 1
  else if 0xE0 ≤ first ∧ first < 0xF0 then some 2
  else if 0xF0 ≤ first ∧ first < 0xF5 then some 3
  else none

/-- The character of the given number, if there is one. -/
def charOfNat? (n : Nat) : Option Char := if n.isValidChar then some (Char.ofNat n) else none

/-- The character of some bytes, if they are its shortest form. -/
def charOfBytes? (bytes : List Nat) : Option Char :=
  match bytes with
  | [a] => charOfNat? a
  | first :: rest =>
    if rest.all (fun b => b / 64 = 2) then
      let lead := first % Nat.pow 2 (6 - rest.length)
      let value := rest.foldl (fun v b => v * 64 + b % 64) lead
      let least := if rest.length = 1 then 0x80 else if rest.length = 2 then 0x800 else 0x10000
      if least ≤ value then charOfNat? value else none
    else none
  | [] => none

/-- What an escape for one byte may stand for. -/
inductive ByteEscape
  /-- A part of a character, with escapes for the other parts behind it. -/
  | part
  /-- A character of ASCII. -/
  | character
  /-- A byte. -/
  | byte
deriving DecidableEq

/-- The character of an escape for a byte, after its mark. A byte on its own is
given as the character of its number. -/
def byteEscape? (kind : ByteEscape) (cs : List Char) : Option (Char × List Char) := do
  let (first, rest) ← hexByte? cs
  match kind with
  | .part => do
    let count ← byteCount? first
    let (bytes, rest) ← moreBytes? count rest
    let c ← charOfBytes? (first :: bytes)
    some (c, rest)
  | .character => if first < 0x80 then some (Char.ofNat first, rest) else none
  | .byte => some (Char.ofNat first, rest)

/-- The character of an escape by number, after its opening brace. -/
def numberEscape? (cs : List Char) : Option (Char × List Char) := do
  let digits := (cs.take 6).takeWhile fun c => (hexDigit? c).isSome
  match cs.drop digits.length with
  | '\x7d' :: rest => do
    let n ← natOfDigits? 16 digits
    let c ← charOfNat? n
    some (c, rest)
  | _ => none

/-- The character of an escape, after its backslash. -/
def escape? (kind : ByteEscape) : List Char → Option (Char × List Char)
  | '0' :: rest => some ('\x00', rest)
  | 't' :: rest => some ('\t', rest)
  | 'n' :: rest => some ('\n', rest)
  | 'r' :: rest => some ('\r', rest)
  | 'x' :: rest => byteEscape? kind rest
  | 'u' :: '\x7b' :: rest => numberEscape? rest
  | c :: rest => if c = '"' ∨ c = '\'' ∨ c = '\\' then some (c, rest) else none
  | [] => none

/-! ### Literals -/

/-- Why a quoted text cannot be read. -/
inductive QuoteFault
  /-- An escape in it is not known. -/
  | escape
  /-- It is not closed. -/
  | unclosed
deriving DecidableEq

/-- The content of a quoted text and what follows its closing quote. Where no more
quotes follow, the text is not closed, whatever its escapes are. The number bounds
the characters that are read. -/
def scanQuoted (kind : ByteEscape) : Nat → List Char → Except QuoteFault (List Char × List Char)
  | _, [] => .error .unclosed
  | _, '"' :: rest => .ok ([], rest)
  | 0, _ => .error .unclosed
  | n + 1, '\\' :: rest =>
    match escape? kind rest with
    | some (c, rest) => (scanQuoted kind n rest).map fun (content, after) => (c :: content, after)
    | none => .error (if '"' ∈ rest then .escape else .unclosed)
  | n + 1, c :: rest =>
    (scanQuoted kind n rest).map fun (content, after) => (c :: content, after)

/-- The content of a raw text and what follows it: the text ends at a quote with
`hashes` marks behind it. -/
def scanRaw (hashes : Nat) : List Char → Option (List Char × List Char)
  | [] => none
  | c :: rest =>
    if c = '"' ∧ (rest.take hashes) = List.replicate hashes '#' then some ([], rest.drop hashes)
    else (scanRaw hashes rest).map fun (content, after) => (c :: content, after)

/-- What follows an escape and the quote behind it, after the backslash. -/
def afterEscape? (kind : ByteEscape) (cs : List Char) : Option (List Char) :=
  match escape? kind cs with
  | some (_, '\'' :: rest) => some rest
  | _ => none

/-- What follows a literal for a character, after its opening quote. -/
def afterCharacter? : List Char → Option (List Char)
  | '\\' :: rest => afterEscape? .character rest
  | _ :: '\'' :: rest => some rest
  | _ => none

/-- What follows a literal for a byte, after its opening quote. A byte is a
character of ASCII or an escape, but none by number. -/
def afterByte? : List Char → Option (List Char)
  | '\\' :: 'u' :: _ => none
  | '\\' :: rest => afterEscape? .byte rest
  | c :: '\'' :: rest => if c.toNat < 0x80 then some rest else none
  | _ => none

end ShadeNet.Document
