/-
# Data

Between a value and its document stand its data: switches, numbers and texts, and
what is made of them. Every kind of value says which data it is written as, and
what it is when it is made of data again.

How data become a text, and which data of a wanted shape a text stands for, is
decided by the format of documents, and the two can be put together with any
format.

Key definitions: `Data`, `Shape`, `Ron`, `Data.option?`, `Data.list?`,
`Data.map?`, `Data.fields?`, `Fields.get`, `Fields.getOr`.
-/
import ShadeNet.Number.Single
import ShadeNet.OrderedMap

namespace ShadeNet.Document

/-- What a document says about a value. -/
inductive Data
  | bool (b : Bool)
  | int (i : Int32)
  | single (x : Single)
  | text (s : String)
  /-- An optional value that is not there. -/
  | absent
  /-- An optional value that is there. -/
  | present (value : Data)
  | list (values : List Data)
  | map (entries : List (String × Data))
  /-- A row of values that stand for something together. -/
  | tuple (values : List Data)
  /-- Named fields. -/
  | struct (name : String) (fields : List (String × Data))
  /-- A value as one of another kind. -/
  | wrapped (name : String) (value : Data)
  /-- A choice by its name alone. -/
  | variant (name : String)
  /-- A choice with a value. -/
  | variantOf (name : String) (value : Data)
  /-- A choice with fields. -/
  | variantWith (name : String) (fields : List (String × Data))

mutual

/-- Which data are wanted. Of the fields of a structure all those may stand in a
document that have a name, and others are passed over. -/
inductive Shape
  | bool
  | int
  | single
  | text
  | option (value : Shape)
  | list (value : Shape)
  | map (value : Shape)
  | tuple (values : List Shape)
  | struct (name : String) (fields : List (String × Shape))
  | wrapped (name : String) (value : Shape)
  | choice (variants : List (String × Content))

/-- What is wanted behind the name of a choice. -/
inductive Content
  | nothing
  | value (value : Shape)
  | fields (fields : List (String × Shape))

end

/-- A choice between names. -/
def Shape.names (names : List String) : Shape := .choice (names.map fun name => (name, .nothing))

/-! ### The format of documents -/

/-- A format of documents. -/
structure Ron where
  /-- The document of data, with the names of structures in front of them or without. -/
  write : Bool → Data → String
  /-- The data of the wanted shape that a document stands for. -/
  read? : Shape → String → Option Data

/-! ### Values of data -/

variable {α β : Type}

/-- Makes a value of each member of a list. -/
def readAll (read : β → Option α) : List β → Option (List α)
  | [] => some []
  | first :: rest => do
    let value ← read first
    let others ← readAll read rest
    some (value :: others)

/-- The fields of a structure. -/
abbrev Fields := List (String × Data)

namespace Fields

/-- The value of a field that has to be there. -/
def get (fields : Fields) (name : String) (make : Data → Option α) : Option α :=
  (OrderedMap.lookupEntry name fields).bind make

/-- The value of a field that stands for `absent` when it is not there. -/
def getOr (fields : Fields) (name : String) (absent : α) (make : Data → Option α) : Option α :=
  match OrderedMap.lookupEntry name fields with
  | none => some absent
  | some value => make value

end Fields

namespace Data

/-- A switch. -/
def bool? : Data → Option Bool
  | bool b => some b
  | _ => none

/-- A 32-bit integer. -/
def int? : Data → Option Int32
  | int i => some i
  | _ => none

/-- A number. -/
def single? : Data → Option Single
  | single x => some x
  | _ => none

/-- A text. -/
def text? : Data → Option String
  | text s => some s
  | _ => none

/-- A value that may be absent. -/
def option? (make : Data → Option α) : Data → Option (Option α)
  | absent => some none
  | present value => (make value).map some
  | _ => none

/-- A list. -/
def list? (make : Data → Option α) : Data → Option (List α)
  | list values => readAll make values
  | _ => none

/-- A map. Of two entries with one key the later value stands in the earlier place. -/
def map? (make : Data → Option α) : Data → Option (OrderedMap String α)
  | map entries =>
    (readAll (fun e => (make e.2).map fun a => (e.1, a)) entries).map OrderedMap.ofList
  | _ => none

/-- The fields of a structure. -/
def fields? : Data → Option Fields
  | .struct _ fields => some fields
  | _ => none

/-- One of several choices that go by their names. -/
def choice? (choices : List α) (name : α → String) : Data → Option α
  | variant spelled => choices.find? fun a => name a = spelled
  | _ => none

/-! ### Data of values -/

/-- The data of a value that may be absent. -/
def ofOption (data : α → Data) : Option α → Data
  | none => absent
  | some a => present (data a)

/-- The data of a list. -/
def ofList (data : α → Data) (values : List α) : Data := list (values.map data)

/-- The data of a map. -/
def ofMap (data : α → Data) (values : OrderedMap String α) : Data :=
  map (values.entries.map fun e => (e.1, data e.2))

end Data

end ShadeNet.Document
