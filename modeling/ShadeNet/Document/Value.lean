/-
# Data of values

Key definitions: `Value.shape`, `Value.toData`, `Value.ofData?`,
`Transform.shape`, `Transform.toData`, `Transform.ofData?`.
-/
import ShadeNet.Document.Data
import ShadeNet.Scene.Value

namespace ShadeNet

open Document

/-! ### Shapes -/

/-- The shape of three numbers. -/
def Triple.shape : Shape := .tuple [.single, .single, .single]

/-- The shape of a transform. -/
def Transform.shape : Shape := .tuple [Triple.shape, Triple.shape, Triple.shape, Triple.shape]

/-- What a literal may be. -/
def Value.variants : List (String × Content) := [
  ("Bool", .value .bool),
  ("Int", .value .int),
  ("Enum", .value .int),
  ("Float", .value .single),
  ("Color", .value Triple.shape),
  ("AColor", .value (.tuple [.single, .single, .single, .single])),
  ("Vector", .value Triple.shape),
  ("Transform", .value Transform.shape),
  ("String", .value .text),
  ("Path", .value .text)]

/-- The shape of a literal. -/
def Value.shape : Shape := .choice variants

/-! ### Data of values -/

/-- The data of three numbers. -/
def Triple.toData (t : Triple) : Data := .tuple [.single t.x, .single t.y, .single t.z]

/-- The data of a transform. -/
def Transform.toData (t : Transform) : Data :=
  .tuple [t.x.toData, t.y.toData, t.z.toData, t.offset.toData]

/-- The data of a literal. -/
def Value.toData : Value → Data
  | .bool b => .variantOf "Bool" (.bool b)
  | .int i => .variantOf "Int" (.int i)
  | .enum i => .variantOf "Enum" (.int i)
  | .float v => .variantOf "Float" (.single v)
  | .color c => .variantOf "Color" c.toData
  | .aColor c a => .variantOf "AColor" (.tuple [.single c.x, .single c.y, .single c.z, .single a])
  | .vector v => .variantOf "Vector" v.toData
  | .transform t => .variantOf "Transform" t.toData
  | .string s => .variantOf "String" (.text s)
  | .path s => .variantOf "Path" (.text s)

/-! ### Values of data -/

/-- Three numbers made of data. -/
def Triple.ofData? : Data → Option Triple
  | .tuple [a, b, c] => do
    let x ← a.single?
    let y ← b.single?
    let z ← c.single?
    some ⟨x, y, z⟩
  | _ => none

/-- A transform made of data. -/
def Transform.ofData? : Data → Option Transform
  | .tuple [a, b, c, d] => do
    let x ← Triple.ofData? a
    let y ← Triple.ofData? b
    let z ← Triple.ofData? c
    let offset ← Triple.ofData? d
    some ⟨x, y, z, offset⟩
  | _ => none

/-- A colour with an opacity, made of data. -/
def Value.alphaColorOf? : Data → Option Value
  | .tuple [a, b, c, d] => do
    let color ← Triple.ofData? (.tuple [a, b, c])
    let alpha ← d.single?
    some (.aColor color alpha)
  | _ => none

/-- A literal made of data. -/
def Value.ofData? : Data → Option Value
  | .variantOf name data =>
    match name with
    | "Bool" => data.bool?.map .bool
    | "Int" => data.int?.map .int
    | "Enum" => data.int?.map .enum
    | "Float" => data.single?.map .float
    | "Color" => (Triple.ofData? data).map .color
    | "AColor" => Value.alphaColorOf? data
    | "Vector" => (Triple.ofData? data).map .vector
    | "Transform" => (Transform.ofData? data).map .transform
    | "String" => data.text?.map .string
    | "Path" => data.text?.map .path
    | _ => none
  | _ => none

end ShadeNet
