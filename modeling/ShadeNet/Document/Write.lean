/-
# Writing data as items

A document is written with every pair on a line of its own, four blanks deeper
than the group around it; members that are no pairs stand on one line.

Key definitions: `Item.render`, `Item.text`, `Data.toItem`.
-/
import ShadeNet.Document.Data
import ShadeNet.Document.Item
import ShadeNet.Number.Shortest

namespace ShadeNet.Document

/-! ### The text of an item -/

/-- A new line at the given depth. -/
def newLine (depth : Nat) : List Char := '\n' :: List.replicate (4 * depth) ' '

mutual

/-- The text of an item at the given depth. -/
def Item.render : Nat → Item → List Char
  | _, .single token => token.text
  | depth, .pair key value => key.render depth ++ [':', ' '] ++ value.render depth
  | depth, .optional look members =>
    (Token.optional look).text ++ renderRow depth members ++ [Bracket.round.closing]
  | depth, .present value => presentWord.toList ++ ' ' :: value.render depth
  | _, .gap => []
  | depth, .group name bracket members =>
    (name.getD "").toList ++ [bracket.opening] ++
      (if members.any Item.isPair then renderLines (depth + 1) members ++ newLine depth
        else renderRow depth members) ++
      [bracket.closing]

/-- Items on lines of their own. -/
def renderLines : Nat → List Item → List Char
  | _, [] => []
  | depth, item :: rest => newLine depth ++ item.render depth ++ [','] ++ renderLines depth rest

/-- Items on one line. -/
def renderRow : Nat → List Item → List Char
  | _, [] => []
  | depth, [item] => item.render depth
  | depth, item :: rest => item.render depth ++ [',', ' '] ++ renderRow depth rest

end

/-- The document of an item. -/
def Item.text (item : Item) : String := String.ofList (item.render 0)

/-! ### Items for data -/

/-- A word. -/
def wordItem (spelling : String) : Item := .single (.word spelling)

/-- A text. -/
def textItem (content : String) : Item := .single (.quoted content)

/-- A switch. -/
def boolItem (b : Bool) : Item := wordItem (if b then "true" else "false")

/-- A 32-bit integer. -/
def int32Item (i : Int32) : Item := .single (.numeral (toString i.toInt))

/-- A number. -/
def singleItem (x : Single) : Item :=
  if x.isFinite || x.negative then .single (.numeral x.numeral) else wordItem x.numeral

/-- Members in round brackets, with a name in front if there is one. Brackets with
nothing in front of them and nothing between them are a literal. -/
def roundItem (name : Option String) (members : List Item) : Item :=
  if name.isNone && members.isEmpty then .single .unit else .group name .round members

mutual

/-- The item that data are written as, with the names of structures or without. -/
def Data.toItem (named : Bool) : Data → Item
  | .bool b => boolItem b
  | .int i => int32Item i
  | .single x => singleItem x
  | .text s => textItem s
  | .absent => wordItem "None"
  | .present value => .optional .one [value.toItem named]
  | .list values => .group none .square (dataItems named values)
  | .map entries => .group none .curly (entryItems named textItem entries)
  | .tuple values => roundItem none (dataItems named values)
  | .struct name fields =>
    roundItem (if named then some name else none) (entryItems named wordItem fields)
  | .wrapped name value => roundItem (if named then some name else none) [value.toItem named]
  | .variant name => wordItem name
  | .variantOf name value => .group (some name) .round [value.toItem named]
  | .variantWith name fields => .group (some name) .round (entryItems named wordItem fields)

/-- The items of data. -/
def dataItems (named : Bool) : List Data → List Item
  | [] => []
  | value :: rest => value.toItem named :: dataItems named rest

/-- The pairs of keys and data. -/
def entryItems (named : Bool) (key : String → Item) : List (String × Data) → List Item
  | [] => []
  | (name, value) :: rest => .pair (key name) (value.toItem named) :: entryItems named key rest

end

end ShadeNet.Document
