/-
# Literal values and the types of sockets

A socket carries one of eighteen types and may hold a literal of one of ten
shapes. Which output may feed which input is a fixed table.

Key definitions: `SocketType`, `SocketType.feeds`, `Value`, `Value.type`,
`Value.scalar?`.
-/
import ShadeNet.Number.Single

namespace ShadeNet

/-- What flows through a socket. -/
inductive SocketType
  | bool
  | int
  | enum
  | float
  | color
  | aColor
  | vector
  | transform
  | string
  | texture
  | floatTexture
  | brdf
  | material
  | geometry
  | uvwgen
  | plugin
  | objects
  | any
deriving DecidableEq

namespace SocketType

/-- Every type of socket. -/
def all : List SocketType :=
  [bool, int, enum, float, color, aColor, vector, transform, string, texture, floatTexture, brdf,
    material, geometry, uvwgen, plugin, objects, any]

/-- The name of a type in documents and messages. -/
def name : SocketType → String
  | bool => "Bool"
  | int => "Int"
  | enum => "Enum"
  | float => "Float"
  | color => "Color"
  | aColor => "AColor"
  | vector => "Vector"
  | transform => "Transform"
  | string => "String"
  | texture => "Texture"
  | floatTexture => "FloatTexture"
  | brdf => "Brdf"
  | material => "Material"
  | geometry => "Geometry"
  | uvwgen => "Uvwgen"
  | plugin => "Plugin"
  | objects => "Objects"
  | any => "Any"

/-- Whether values of a type are references to a plugin of one kind. -/
def isPluginKind : SocketType → Bool
  | texture | floatTexture | brdf | material | geometry | uvwgen => true
  | _ => false

/-- Pairs of different types that convert into each other without a node between. -/
def converts : SocketType → SocketType → Bool
  | int, float | enum, float | bool, float | float, int => true
  | texture, color | texture, aColor | color, texture | aColor, texture => true
  | floatTexture, float | float, floatTexture => true
  | texture, floatTexture | floatTexture, texture => true
  | color, aColor | aColor, color => true
  | a, plugin => a.isPluginKind
  | plugin, b => b.isPluginKind
  | _, _ => false

/-- Whether an output of type `a` may feed an input of type `b`. -/
def feeds (a b : SocketType) : Bool :=
  a == any || b == any || a == b || converts a b

end SocketType

/-- Three numbers: a colour, a direction, a row of a matrix. -/
structure Triple where
  /-- The first number. -/
  x : Single
  /-- The second number. -/
  y : Single
  /-- The third number. -/
  z : Single
deriving DecidableEq

/-- Three rows of rotation and scale, and an offset. -/
structure Transform where
  /-- The first row. -/
  x : Triple
  /-- The second row. -/
  y : Triple
  /-- The third row. -/
  z : Triple
  /-- The offset. -/
  offset : Triple
deriving DecidableEq

/-- The transform that moves nothing. -/
def Transform.identity : Transform :=
  let o := Single.zero false
  let i := Single.one
  ⟨⟨i, o, o⟩, ⟨o, i, o⟩, ⟨o, o, i⟩, ⟨o, o, o⟩⟩

/-- A literal on a socket or in the parameters of a node. -/
inductive Value
  | bool (value : Bool)
  | int (value : Int32)
  | enum (index : Int32)
  | float (value : Single)
  | color (rgb : Triple)
  | aColor (rgb : Triple) (alpha : Single)
  | vector (value : Triple)
  | transform (value : Transform)
  | string (text : String)
  | path (text : String)
deriving DecidableEq

namespace Value

/-- The type of socket a literal belongs to; a path is a string. -/
def type : Value → SocketType
  | bool _ => .bool
  | int _ => .int
  | enum _ => .enum
  | float _ => .float
  | color _ => .color
  | aColor _ _ => .aColor
  | vector _ => .vector
  | transform _ => .transform
  | string _ => .string
  | path _ => .string

/-- The number a literal stands for, if it stands for a single one. -/
def scalar? : Value → Option Single
  | float x => some x
  | int i => some (Single.ofInt i.toInt)
  | enum i => some (Single.ofInt i.toInt)
  | bool b => some (if b then Single.one else Single.zero false)
  | _ => none

end Value

end ShadeNet
