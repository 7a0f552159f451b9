/-
# Plugin schemas

A catalog describes the plugins that a scene may use. The type of a parameter
says how the parameter is written: outputs never, references only from a link,
lists and transforms only when a value is supplied, all others from the node's
parameters or the default.

Key definitions: `ParamType`, `ParamDesc`, `PluginDesc`, `Catalog`,
`PluginDesc.sortedParams`, `Catalog.extend`.
Key theorems: `PluginDesc.mem_sortedParams`.
-/
import ShadeNet.Scene.Node

namespace ShadeNet

/-- The type of a plugin parameter. -/
inductive ParamType
  | bool
  | int
  | enum
  | float
  | color
  | aColor
  | vector
  | string
  | transform
  | list
  | listInt
  | listFloat
  | plugin
  | brdf
  | material
  | geometry
  | uvwgen
  | texture
  | floatTexture
  | intTexture
  | outputPlugin
  | outputTexture
  | outputFloatTexture
  | outputColor
deriving DecidableEq

namespace ParamType

/-- Every type of parameter. -/
def all : List ParamType :=
  [bool, int, enum, float, color, aColor, vector, string, transform, list, listInt, listFloat,
    plugin, brdf, material, geometry, uvwgen, texture, floatTexture, intTexture, outputPlugin,
    outputTexture, outputFloatTexture, outputColor]

/-- The name of a type in documents and messages. -/
def name : ParamType → String
  | bool => "Bool"
  | int => "Int"
  | enum => "Enum"
  | float => "Float"
  | color => "Color"
  | aColor => "AColor"
  | vector => "Vector"
  | string => "String"
  | transform => "Transform"
  | list => "List"
  | listInt => "ListInt"
  | listFloat => "ListFloat"
  | plugin => "Plugin"
  | brdf => "Brdf"
  | material => "Material"
  | geometry => "Geometry"
  | uvwgen => "Uvwgen"
  | texture => "Texture"
  | floatTexture => "FloatTexture"
  | intTexture => "IntTexture"
  | outputPlugin => "OutputPlugin"
  | outputTexture => "OutputTexture"
  | outputFloatTexture => "OutputFloatTexture"
  | outputColor => "OutputColor"

/-- Produced by the plugin, never given to it. -/
def isOutput : ParamType → Bool
  | outputPlugin | outputTexture | outputFloatTexture | outputColor => true
  | _ => false

/-- Comes from a linked socket only. -/
def needsLink : ParamType → Bool
  | plugin | brdf | material | geometry | uvwgen | texture | floatTexture | intTexture => true
  | _ => false

/-- Written only when a value is supplied for it. -/
def needsValue : ParamType → Bool
  | list | listInt | listFloat | transform => true
  | _ => false

/-- A text given for it is a reference and is written without quotes. -/
def isReference : ParamType → Bool
  | plugin | brdf | material | geometry | uvwgen | list | listInt | listFloat => true
  | _ => false

/-- Whether a literal of the given socket type may stand for a parameter. -/
def accepts : ParamType → SocketType → Bool
  | bool, t | int, t | enum, t => t == .bool || t == .int || t == .enum
  | float, t | floatTexture, t | intTexture, t => t == .float || t == .int || t == .bool
  | color, t | aColor, t | texture, t => t == .color || t == .aColor
  | vector, t => t == .vector
  | transform, t => t == .transform
  | string, t => t == .string
  | _, _ => true

end ParamType

/-- What a string parameter names. -/
inductive PathKind
  | file
  | directory
deriving DecidableEq

/-- The name of a kind of path in documents. -/
def PathKind.name : PathKind → String
  | .file => "FilePath"
  | .directory => "DirPath"

/-- One parameter of a plugin. -/
structure ParamDesc where
  /-- The name of the attribute. -/
  attr : String
  /-- The type. -/
  type : ParamType
  /-- What the string names, if it is a path. -/
  pathKind : Option PathKind := none
  /-- Never written unless a value is supplied. -/
  skip : Bool := false
  /-- The literal for a node that has none. -/
  literal : Option Value := none
deriving DecidableEq

namespace ParamDesc

/-- Whether a parameter is left out unless a value is supplied for it. -/
def isSkipped (p : ParamDesc) : Bool := p.skip || p.type.needsValue

/-- Whether a parameter is left out when no socket supplies a value for it. -/
def needsSupply (p : ParamDesc) : Bool := p.isSkipped || p.type.needsLink

/-- Whether a parameter is a path. -/
def isPath (p : ParamDesc) : Bool := p.pathKind.isSome

end ParamDesc

/-- One plugin. -/
structure PluginDesc where
  /-- The name of the plugin. -/
  id : String
  /-- The family of its records. -/
  category : Category
  /-- Its parameters, as declared. -/
  params : List ParamDesc
deriving DecidableEq

namespace PluginDesc

/-- The first parameter with the given attribute. -/
def param? (d : PluginDesc) (attr : String) : Option ParamDesc := d.params.find? (·.attr = attr)

/-- Puts a parameter into a sorted list, before those whose name is not smaller. -/
def insertParam (p : ParamDesc) : List ParamDesc → List ParamDesc
  | [] => [p]
  | q :: rest => if p.attr ≤ q.attr then p :: q :: rest else q :: insertParam p rest

/-- The parameters by attribute name; equal names keep the declared order. -/
def sortedParams (d : PluginDesc) : List ParamDesc := d.params.foldr insertParam []

theorem mem_insertParam {p q : ParamDesc} : ∀ {ps : List ParamDesc},
    q ∈ insertParam p ps ↔ q = p ∨ q ∈ ps
  | [] => by simp [insertParam]
  | r :: rest => by
    rw [insertParam]
    split
    · rw [List.mem_cons]
    · rw [List.mem_cons, mem_insertParam, List.mem_cons]
      exact or_left_comm

/-- Sorting leaves out no parameter and adds none. -/
theorem mem_sortedParams {d : PluginDesc} {q : ParamDesc} : q ∈ d.sortedParams ↔ q ∈ d.params := by
  unfold sortedParams
  induction d.params with
  | nil => exact Iff.rfl
  | cons p rest ih => rw [List.foldr_cons, mem_insertParam, ih, List.mem_cons]

end PluginDesc

/-- The plugins that are known. -/
structure Catalog where
  /-- Descriptions, each under the name it was registered or loaded with. -/
  plugins : OrderedMap String PluginDesc := ∅
deriving DecidableEq

namespace Catalog

/-- Adds a plugin under its own name, in place of one that has the name already. -/
def register (c : Catalog) (desc : PluginDesc) : Catalog := ⟨c.plugins.insert desc.id desc⟩

/-- The plugin of the given name. -/
def get? (c : Catalog) (id : String) : Option PluginDesc := c.plugins.get? id

/-- All plugins in order. -/
def toList (c : Catalog) : List PluginDesc := c.plugins.values

/-- The plugins of one category in order. -/
def inCategory (c : Catalog) (category : Category) : List PluginDesc :=
  c.toList.filter (·.category = category)

/-- Registers plugins one after another. -/
def registerAll (c : Catalog) (descs : List PluginDesc) : Catalog := descs.foldl register c

/-- Registers every plugin of another catalog, each under its own name. -/
def extend (c other : Catalog) : Catalog := c.registerAll other.toList

end Catalog

end ShadeNet
