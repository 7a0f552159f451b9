/-
# Reading data from items

What an item stands for depends on what is wanted: the same numeral may be a
whole number or a fraction, the same group a structure or a variant. Each shape
accepts exactly the items that its data may be written as, at the place where
they stand.

Fields of a structure may stand in any order. A field that is not known is
skipped; one that is known may stand once.

Key definitions: `Reader`, `readInt32`, `readSingle`, `readOption`, `readList`,
`readKnown`, `wrappedRow?`, `readData`.
-/
import ShadeNet.Document.Data
import ShadeNet.Document.Skip

namespace ShadeNet.Document

variable {α : Type}

/-- A way to read a value from an item that stands at a place. -/
abbrev Reader (α : Type) := Place → Item → Option α

/-! ### Numbers -/

/-- Reads a 32-bit integer. -/
def readInt32 : Reader Int32
  | _, .single (.numeral spelling) => do
    let w ← wholeNumeral? spelling.toList
    if w.mark = "" ∨ w.takesMark ∧ w.mark = "i32" then int32OfMagnitude? w.negative w.magnitude
    else none
  | _, _ => none

/-- Reads a single-precision number. -/
def readSingle : Reader Single
  | _, .single (.word spelling) => namedSingle? spelling
  | _, .single (.numeral spelling) =>
    match namedSingle? spelling with
    | some value => some value
    | none => do
      let (value, rest) ← fractionNumeral? spelling.toList
      if rest = [] ∨ rest = ['f', '3', '2'] then some value else none
  | _, _ => none

/-! ### Words and texts -/

/-- Reads a switch. -/
def readBool : Reader Bool
  | _, .single (.word "true") => some true
  | _, .single (.word "false") => some false
  | _, _ => none

/-- Reads a text. -/
def readText : Reader String
  | _, .single (.quoted content) => some content
  | _, _ => none

/-! ### Groups -/

/-- Reads a list in square brackets. -/
def readList (read : Reader α) : Reader (List α)
  | p, .group none .square members => readAll (read (p.deeper 2)) members
  | _, _ => none

/-- Reads an entry of a map. -/
def readEntry (read : Reader α) : Reader (String × α)
  | p, .pair key value => do
    let key ← readText p key
    let value ← read p value
    some (key, value)
  | _, _ => none

/-- Reads the entries of a map in curly brackets. -/
def readEntries (read : Reader α) : Reader (List (String × α))
  | p, .group none .curly members => readAll (readEntry read (p.deeper 2)) members
  | _, _ => none

/-- Reads a value that may be absent. -/
def readOption (read : Reader α) : Reader (Option α)
  | _, .single (.word "None") => some none
  | p, .optional _ members => do
    let value ← Item.only? members
    (read (p.deeper 1) value).map some
  | p, .present value =>
    if p.extensions.bareOptional then (read (p.deeper 1) value).map some else none
  | p, item => if p.extensions.bareOptional then (read (p.deeper 1) item).map some else none

/-- The members of a row of values in round brackets. -/
def tupleMembers? : Item → Option (List Item)
  | .group none .round members => some members
  | _ => none

/-- The members of a merged row: the row and the brackets around it may each have
a comma at the end, so there may be a gap between the two. -/
def mergedRow (members : List Item) : List Item :=
  match members.getLast? with
  | some .gap => members.dropLast
  | _ => members

/-- The members of the row that a variant wraps. A document may ask for the
brackets of the row to be left out. -/
def wrappedRow? (p : Place) (members : List Item) : Option (List Item) :=
  if p.extensions.mergedWrapped then some (mergedRow members)
  else (Item.only? members).bind tupleMembers?

/-! ### Structures -/

/-- Reads the known fields among the members of a structure. A field that stands
twice is an error, and so is one that is not known and cannot be skipped. -/
def readKnown (read : String → Reader α) (known : List String) (p : Place) :
    List Item → Option (List (String × α))
  | [] => some []
  | .pair (.single (.word spelling)) value :: rest => do
    let fields ← readKnown read known p rest
    let name := plainName spelling
    if known.contains name then
      if (fields.map Prod.fst).contains name then none
      else (read name p value).map fun a => (name, a) :: fields
    else if p.canSkip value then some fields
    else none
  | _ => none

/-- Whether the name in front of a structure is the right one; it may be left out
unless structures are always named. -/
def isNameFor (x : Extensions) (expected : String) : Option String → Bool
  | none => !x.namedStructures
  | some spelling => plainName spelling == expected

/-- The members of a structure. -/
def structureMembers? (expected : String) (p : Place) : Item → Option (List Item)
  | .group name .round members =>
    if isNameFor p.extensions expected name then some members else none
  | .single .unit => if isNameFor p.extensions expected none then some [] else none
  | _ => none

/-- Reads a wrapped value, in brackets unless a document asks for it bare. -/
def readWrapped (expected : String) (read : Reader α) : Reader α := fun p item =>
  if p.extensions.bareWrapped then read p item
  else match item with
    | .group name .round members =>
      if isNameFor p.extensions expected name then (Item.only? members).bind (read (p.deeper 1))
      else none
    | _ => none

/-! ### Data of a shape -/

/-- The name of a choice. -/
def Item.choiceName? : Item → Option String
  | .single (.word spelling) => some (plainName spelling)
  | .group (some spelling) .round _ => some (plainName spelling)
  | _ => none

mutual

/-- Reads data of a shape. -/
def readData : Shape → Reader Data
  | .bool => fun p item => (readBool p item).map .bool
  | .int => fun p item => (readInt32 p item).map .int
  | .single => fun p item => (readSingle p item).map .single
  | .text => fun p item => (readText p item).map .text
  | .option shape => fun p item => (readOption (readData shape) p item).map (Data.ofOption id)
  | .list shape => fun p item => (readList (readData shape) p item).map .list
  | .map shape => fun p item => (readEntries (readData shape) p item).map .map
  | .tuple shapes => fun p item =>
    ((tupleMembers? item).bind (readRow shapes (p.deeper 2))).map .tuple
  | .struct name known => fun p item =>
    ((structureMembers? name p item).bind
      (readKnown (readField known) (known.map Prod.fst) (p.deeper 2))).map (.struct name)
  | .wrapped name shape => fun p item =>
    (readWrapped name (readData shape) p item).map (.wrapped name)
  | .choice variants => fun p item =>
    item.choiceName?.bind fun name => readVariant variants name p item

/-- Reads a row of data. -/
def readRow : List Shape → Place → List Item → Option (List Data)
  | [], _, [] => some []
  | shape :: shapes, p, item :: items => do
    let value ← readData shape p item
    let others ← readRow shapes p items
    some (value :: others)
  | _, _, _ => none

/-- Reads the data of a known field. -/
def readField : List (String × Shape) → String → Reader Data
  | [], _, _, _ => none
  | (name, shape) :: known, wanted, p, item =>
    if name = wanted then readData shape p item else readField known wanted p item

/-- Reads a choice by its name. -/
def readVariant : List (String × Content) → String → Reader Data
  | [], _, _, _ => none
  | (name, content) :: variants, chosen, p, item =>
    if name = chosen then readContent content name p item else readVariant variants chosen p item

/-- Reads what stands behind the name of a choice. -/
def readContent : Content → String → Reader Data
  | .nothing, name, _, .single (.word _) => some (.variant name)
  | .value (.tuple shapes), name, p, .group _ .round members =>
    ((wrappedRow? p members).bind (readRow shapes ((p.deeper 2).deeper 2))).map fun values =>
      .variantOf name (.tuple values)
  | .value shape, name, p, .group _ .round members =>
    ((Item.only? members).bind (readData shape (p.deeper 2))).map (.variantOf name)
  | .fields known, name, p, .group _ .round members =>
    (readKnown (readField known) (known.map Prod.fst) ((p.deeper 1).deeper 2) members).map
      (.variantWith name)
  | _, _, _, _ => none

end

end ShadeNet.Document
