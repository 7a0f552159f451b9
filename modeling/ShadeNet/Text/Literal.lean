/-
# Literals in scene text

How a literal is spelled in the value of an attribute: constructors with their
arguments in brackets, numbers with six places, quoted strings in which a
backslash and a quote stand behind a backslash.

Key definitions: `quote`, `Value.text`, `listText`, `interpolateText`.
-/
import ShadeNet.Number.Fixed
import ShadeNet.Scene.Value

namespace ShadeNet

/-- A character inside quotes. -/
def quoteChar (c : Char) : List Char :=
  if c = '\\' ∨ c = '"' then ['\\', c] else [c]

/-- A string in quotes. -/
def quote (s : String) : String :=
  "\"" ++ String.ofList (s.toList.flatMap quoteChar) ++ "\""

/-- The name of a constructor with its arguments. -/
def callText (constructor : String) (arguments : List String) : String :=
  constructor ++ "(" ++ String.intercalate "," arguments ++ ")"

/-- A number with six places. -/
def numberText (x : Single) : String := x.fixed 6

/-- A switch. -/
def boolText (b : Bool) : String := if b then "1" else "0"

namespace Triple

/-- The three numbers. -/
def texts (t : Triple) : List String := [numberText t.x, numberText t.y, numberText t.z]

/-- Three numbers as a vector. -/
def vectorText (t : Triple) : String := callText "Vector" t.texts

end Triple

/-- A transform as a matrix of three vectors and an offset. -/
def Transform.text (t : Transform) : String :=
  callText "Transform"
    [callText "Matrix" [t.x.vectorText, t.y.vectorText, t.z.vectorText], t.offset.vectorText]

/-- A literal. -/
def Value.text : Value → String
  | .bool b => boolText b
  | .int i => toString i.toInt
  | .enum i => toString i.toInt
  | .float x => numberText x
  | .color c => callText "Color" c.texts
  | .aColor c a => callText "AColor" (c.texts ++ [numberText a])
  | .vector v => v.vectorText
  | .transform t => t.text
  | .string s => quote s
  | .path s => quote s

/-- What a list holds. -/
inductive ListKind
  | references
  | ints
  | floats
deriving DecidableEq

/-- The constructor of a list. -/
def ListKind.constructor : ListKind → String
  | .references => "List"
  | .ints => "ListInt"
  | .floats => "ListFloat"

/-- A list of items that are spelled already. -/
def listText (kind : ListKind) (items : List String) : String := callText kind.constructor items

/-- A spelled value keyed to a frame. -/
def interpolateText (frame : Int32) (value : String) : String :=
  "interpolate((" ++ toString frame.toInt ++ "," ++ value ++ "))"

end ShadeNet
