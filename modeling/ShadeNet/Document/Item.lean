/-
# Items

A document is one item. An item is a single token or a group of items in
brackets, which may have a name in front; a pair of a key and a value is an item
inside a group. What the groups and words stand for is decided by whoever wants
something from them.

Key definitions: `Item`, `parseItem`, `Item.fits`, `Extensions`, `parse?`.
-/
import ShadeNet.Document.Scan

namespace ShadeNet.Document

/-- A part of a document. -/
inductive Item
  /-- A word, a numeral, a text or a literal for bytes. -/
  | single (token : Token)
  /-- Items in brackets. -/
  | group (name : Option String) (bracket : Bracket) (members : List Item)
  /-- A key and its value. -/
  | pair (key value : Item)
  /-- An optional value that is there, in its brackets. -/
  | optional (look : Look) (members : List Item)
  /-- An optional value that is there, behind its word but not in brackets. -/
  | present (value : Item)
  /-- Nothing where a member of a group should stand in front of a comma. -/
  | gap

/-! ### Reading items from tokens -/

/-- Members in round brackets behind a word. -/
def named (look : Look) (name : String) (members : List Item) : Item :=
  if name = presentWord then .optional look members else .group (some name) .round members

mutual

/-- An item other than a pair, and the tokens behind it. -/
def parseItem : Nat → List Token → Option (Item × List Token)
  | 0, _ => none
  | n + 1, tokens =>
    match tokens with
    | .word name :: .unit :: rest => some (named .one name [], rest)
    | .word name :: .opened .round :: rest => do
      let (members, rest) ← parseMembers n .round rest
      some (named .one name members, rest)
    | .optional look :: rest => do
      let (members, rest) ← parseMembers n .round rest
      some (named look presentWord members, rest)
    | .opened bracket :: rest => do
      let (members, rest) ← parseMembers n bracket rest
      some (.group none bracket members, rest)
    | .word name :: rest =>
      if name = presentWord then
        match parseItem n rest with
        | some (value, rest) => some (.present value, rest)
        | none => some (.single (.word name), rest)
      else some (.single (.word name), rest)
    | .unit :: rest => some (.single .unit, rest)
    | .numeral spelling :: rest => some (.single (.numeral spelling), rest)
    | .quoted content :: rest => some (.single (.quoted content), rest)
    | .other :: rest => some (.single .other, rest)
    | _ => none

/-- A member of a group: an item, or a pair of items around a colon. -/
def parseMember : Nat → List Token → Option (Item × List Token)
  | 0, _ => none
  | n + 1, tokens => do
    let (item, rest) ← parseItem n tokens
    match rest with
    | .colon :: rest => do
      let (value, rest) ← parseItem n rest
      some (.pair item value, rest)
    | rest => some (item, rest)

/-- The members of a group up to its closing bracket. Commas stand between
members, and one may stand behind the last; any other comma stands behind a gap. -/
def parseMembers : Nat → Bracket → List Token → Option (List Item × List Token)
  | 0, _, _ => none
  | n + 1, bracket, tokens =>
    match tokens with
    | .closed b :: rest => if b = bracket then some ([], rest) else none
    | .comma :: rest => do
      let (members, rest) ← parseMembers n bracket rest
      some (.gap :: members, rest)
    | tokens => do
      let (member, rest) ← parseMember n tokens
      match rest with
      | .comma :: rest => do
        let (members, rest) ← parseMembers n bracket rest
        some (member :: members, rest)
      | .closed b :: rest => if b = bracket then some ([member], rest) else none
      | _ => none

end

/-! ### Members of groups -/

namespace Item

/-- Whether an item is a pair. -/
def isPair : Item → Bool
  | pair _ _ => true
  | _ => false

/-- Whether an item is a pair with a word for its key. -/
def isField : Item → Bool
  | pair (single (.word _)) _ => true
  | _ => false

/-- The only member of a group, which is no pair. -/
def only? : List Item → Option Item
  | [pair _ _] => none
  | [item] => some item
  | _ => none

/-- Whether the members of a group go together: values in square brackets, pairs
in curly ones, values or fields in round ones. -/
def fits (bracket : Bracket) (members : List Item) : Bool :=
  match bracket with
  | .square => members.all fun m => !m.isPair
  | .curly => members.all isPair
  | .round => members.all (fun m => !m.isPair) || members.all isField

/-- Whether the members of an optional value are what a first look took them for. -/
def fitsLook (look : Look) (members : List Item) : Bool :=
  match look with
  | .one => (only? members).isSome
  | .several => members.all fun m => !m.isPair
  | .fields => members.all isField
  | .torn => false

end Item

/-! ### Whole documents -/

/-- Liberties that a document may ask for. -/
structure Extensions where
  /-- A wrapped value is written without its wrapping. -/
  bareWrapped : Bool := false
  /-- An optional value may be written without brackets, with its word or without. -/
  bareOptional : Bool := false
  /-- The members of a wrapped group stand directly in the brackets of the wrapping. -/
  mergedWrapped : Bool := false
  /-- Structures are always named. -/
  namedStructures : Bool := false
deriving DecidableEq

namespace Extensions

/-- The extensions with one more, by name. -/
def enable? (x : Extensions) : String → Option Extensions
  | "unwrap_newtypes" => some { x with bareWrapped := true }
  | "implicit_some" => some { x with bareOptional := true }
  | "unwrap_variant_newtypes" => some { x with mergedWrapped := true }
  | "explicit_struct_names" => some { x with namedStructures := true }
  | _ => none

end Extensions

/-- The name that a word spells. -/
def plainName (spelling : String) : String :=
  match spelling.toList with
  | 'r' :: '#' :: name => String.ofList name
  | _ => spelling

/-- Names of extensions, with commas between them, up to the end of their list. -/
def parseExtensions : Extensions → List Token → Option (Extensions × List Token)
  | x, .word name :: .comma :: .closed .round :: .closed .square :: rest =>
    (x.enable? (plainName name)).map fun x => (x, rest)
  | x, .word name :: .closed .round :: .closed .square :: rest =>
    (x.enable? (plainName name)).map fun x => (x, rest)
  | x, .word name :: .comma :: rest =>
    (x.enable? (plainName name)).bind fun x => parseExtensions x rest
  | _, _ => none

/-- The lists of extensions at the head of a document. -/
def parseHeader : Nat → Extensions → List Token → Option (Extensions × List Token)
  | n + 1, x, .hash :: .bang :: .opened .square :: .word "enable" :: .opened .round :: rest => do
    let (x, rest) ← parseExtensions x rest
    parseHeader n x rest
  | _, x, tokens => some (x, tokens)

/-- The extensions of a document and the tokens behind them. -/
def scanHeader? (looking : Bool) (document : String) : Option (Extensions × List Token) := do
  let tokens ← scan? looking document
  parseHeader tokens.length {} tokens

/-- The extensions of a document and its item. Optional values need a first look if
wrappings are merged. Tokens behind the item are an error. -/
def parse? (document : String) : Option (Extensions × Item) := do
  let (x, tokens) ← scanHeader? false document
  let (x, tokens) ← if x.mergedWrapped then scanHeader? true document else some (x, tokens)
  let (item, rest) ← parseItem (3 * tokens.length) tokens
  if rest.isEmpty then some (x, item) else none

end ShadeNet.Document
