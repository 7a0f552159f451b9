/-
# Nodes of a tree

A node has a name, a kind that says what it compiles to, sockets on either side
and literal parameters of its plugin.

Key definitions: `Category`, `Socket`, `NodeKind`, `Node`.
-/
import ShadeNet.OrderedMap
import ShadeNet.Scene.Value

namespace ShadeNet

/-- The family of records that a plugin belongs to. -/
inductive Category
  | brdf
  | material
  | texture
  | uvwgen
  | geometry
  | light
  | camera
  | object
  | settings
  | effect
  | renderChannel
deriving DecidableEq

namespace Category

/-- Every category. -/
def all : List Category :=
  [brdf, material, texture, uvwgen, geometry, light, camera, object, settings, effect,
    renderChannel]

/-- The name of a category in documents. -/
def name : Category → String
  | brdf => "Brdf"
  | material => "Material"
  | texture => "Texture"
  | uvwgen => "Uvwgen"
  | geometry => "Geometry"
  | light => "Light"
  | camera => "Camera"
  | object => "Object"
  | settings => "Settings"
  | effect => "Effect"
  | renderChannel => "RenderChannel"

/-- The heading that a category has in comments. -/
def heading : Category → String
  | brdf => "BRDF"
  | material => "MATERIAL"
  | texture => "TEXTURE"
  | uvwgen => "UVWGEN"
  | geometry => "GEOMETRY"
  | light => "LIGHT"
  | camera => "CAMERA"
  | object => "OBJECT"
  | settings => "SETTINGS"
  | effect => "EFFECT"
  | renderChannel => "RENDERCHANNEL"

end Category

/-- The side of a node that a socket says it is for. -/
inductive Direction
  | input
  | output
deriving DecidableEq

/-- The name of a direction in documents. -/
def Direction.name : Direction → String
  | .input => "Input"
  | .output => "Output"

/-- A socket of a node. -/
structure Socket where
  /-- The name, by which links find the socket on its side of the node. -/
  name : String
  /-- The side that the socket says it is for. -/
  direction : Direction
  /-- What flows through it. -/
  type : SocketType
  /-- The attribute of the plugin that it stands for. -/
  attr : Option String := none
  /-- The literal it has while it is not linked. -/
  literal : Option Value := none
deriving DecidableEq

/-- Whether two sockets may be joined, seen from the first. -/
def Socket.joins (a b : Socket) : Bool :=
  a.direction != b.direction && a.type.feeds b.type

/-- What a node compiles to. -/
inductive NodeKind
  /-- A record of a plugin from the catalog. -/
  | plugin (category : Category) (id : String)
  /-- Nothing yet. -/
  | unset
  /-- A blend of the textures at its inputs. -/
  | layeredTexture
  /-- A blend of the shading models at its inputs, by weight or as a sum. -/
  | layeredBrdf (additive : Bool)
  /-- The records of one object of the scene. -/
  | selectObject (object : Option String)
  /-- The records of the objects of a group. -/
  | selectGroup (group : Option String)
  /-- The geometry of the object that is being compiled. -/
  | objectGeometry
  /-- The material of the object that is being compiled. -/
  | objectMaterial
  /-- The end of a material tree, which may refuse the global override. -/
  | materialOutput (dontOverride : Bool)
  /-- The end of an object tree. -/
  | objectOutput
deriving DecidableEq

namespace NodeKind

/-- The name of a kind in messages; a plugin node goes by its plugin. -/
def label : NodeKind → String
  | plugin _ id => id
  | unset => "Unset"
  | layeredTexture => "TexLayered"
  | layeredBrdf _ => "BRDFLayered"
  | selectObject _ => "SelectObject"
  | selectGroup _ => "SelectGroup"
  | objectGeometry => "OutputGeometry"
  | objectMaterial => "OutputMaterial"
  | materialOutput _ => "MaterialOutput"
  | objectOutput => "ObjectOutput"

/-- Whether a node of this kind ends a material tree. -/
def isMaterialOutput : NodeKind → Bool
  | materialOutput _ => true
  | _ => false

/-- Whether a node of this kind ends an object tree. -/
def isObjectOutput : NodeKind → Bool
  | objectOutput => true
  | _ => false

end NodeKind

/-- A node of a tree. -/
structure Node where
  /-- The name, unique in its tree. -/
  name : String
  /-- What the node compiles to. -/
  kind : NodeKind
  /-- The sockets on the input side. -/
  inputs : List Socket := []
  /-- The sockets on the output side. -/
  outputs : List Socket := []
  /-- The literals of the node's plugin, by attribute. -/
  params : OrderedMap String Value := ∅
deriving DecidableEq

namespace Node

/-- The first input socket of the given name. -/
def input? (n : Node) (name : String) : Option Socket := n.inputs.find? (·.name = name)

/-- The first output socket of the given name. -/
def output? (n : Node) (name : String) : Option Socket := n.outputs.find? (·.name = name)

/-- All sockets, inputs first. -/
def sockets (n : Node) : List Socket := n.inputs ++ n.outputs

/-- Whether a socket stands on the side of the node it does not belong to. -/
def misplacesSocket (n : Node) : Bool :=
  n.inputs.any (·.direction != .input) || n.outputs.any (·.direction != .output)

end Node

end ShadeNet
