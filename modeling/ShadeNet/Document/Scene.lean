/-
# Scenes as documents

The nodes of a tree are written as a list and found by name again when they are
read. A link without an identity gets one that no other link of its tree has.

Key definitions: `Uuid`, `LinkId.text`, `LinkId.ofText?`, `Scene.shape`,
`Scene.toData`, `Scene.ofData?`, `Scene.write`, `Scene.read?`.
-/
import ShadeNet.Document.Catalog
import ShadeNet.Scene.Basic

namespace ShadeNet

open Document

/-! ### Identities of links -/

/-- A way to spell identities. -/
structure Uuid where
  /-- The text of an identity. -/
  text : LinkId → String
  /-- The identity that a text spells. -/
  ofText? : String → Option LinkId

namespace LinkId

/-- The number of digits between the hyphens of an identity. -/
def groupSizes : List Nat := [8, 4, 4, 4, 12]

/-- Digits in groups with hyphens between them. -/
def hyphenate : List Nat → List Char → List Char
  | [], digits => digits
  | [_], digits => digits
  | n :: m :: sizes, digits => digits.take n ++ '-' :: hyphenate (m :: sizes) (digits.drop n)

/-- The digits of groups of the given sizes with hyphens between them. -/
def unhyphenate? : List Nat → List Char → Option (List Char)
  | [], cs => if cs.isEmpty then some [] else none
  | [n], cs => if cs.length = n then some cs else none
  | n :: m :: sizes, cs =>
    match cs.drop n with
    | '-' :: rest => (unhyphenate? (m :: sizes) rest).map (cs.take n ++ ·)
    | _ => none

/-- The text of an identity: thirty-two hexadecimal digits in five groups. -/
def text (id : LinkId) : String :=
  String.ofList (hyphenate groupSizes (List.leftpad 32 '0' (Nat.toDigits 16 id.bits.toNat)))

/-- Whether characters are the given small letters and marks, in either case. -/
def spells (mark : String) (cs : List Char) : Bool := cs.map Char.toLower = mark.toList

/-- The digits and hyphens of an identity without what they may be wrapped in. -/
def unwrap (cs : List Char) : List Char :=
  if cs.length = 38 ∧ cs.head? = some '\x7b' ∧ cs.getLast? = some '\x7d' then cs.tail.dropLast
  else if cs.length = 45 ∧ spells "urn:uuid:" (cs.take 9) then cs.drop 9
  else cs

/-- Reads an identity: its digits alone, in groups, or in groups inside braces or
behind the mark of its kind. -/
def ofText? (s : String) : Option LinkId := do
  let cs := s.toList
  let digits ← if cs.length = 32 then some cs else unhyphenate? groupSizes (unwrap cs)
  let value ← natOfDigits? 16 digits
  some ⟨BitVec.ofNat 128 value⟩

/-- Identities as they are spelled here. -/
def uuid : Uuid := ⟨text, ofText?⟩

/-- The first identity by number, from `index` on, that is not in use. Of so many
identities as are in use, and one more, one is free. -/
def firstFree (used : List LinkId) : Nat → Nat → LinkId
  | 0, index => ⟨BitVec.ofNat 128 index⟩
  | more + 1, index =>
    if ⟨BitVec.ofNat 128 index⟩ ∈ used then firstFree used more (index + 1)
    else ⟨BitVec.ofNat 128 index⟩

/-- An identity that is not in use. -/
def fresh (used : List LinkId) : LinkId := firstFree used used.length 0

end LinkId

/-- A link that may lack an identity. -/
structure LooseLink where
  /-- The identity, if it is given. -/
  id : Option LinkId
  /-- The output socket it starts at. -/
  source : Endpoint
  /-- The input socket it ends at. -/
  target : Endpoint

/-- Gives an identity to the links that lack one. -/
def identify : List LinkId → List LooseLink → List Link
  | _, [] => []
  | used, l :: rest =>
    match l.id with
    | some id => ⟨id, l.source, l.target⟩ :: identify used rest
    | none =>
      let id := LinkId.fresh used
      ⟨id, l.source, l.target⟩ :: identify (id :: used) rest

/-! ### Shapes -/

/-- The directions of sockets. -/
def Direction.all : List Direction := [.input, .output]

/-- The shape of a socket. -/
def Socket.shape : Shape := .struct "Port" [
  ("name", .text),
  ("direction", .names (Direction.all.map Direction.name)),
  ("port_type", .names (SocketType.all.map SocketType.name)),
  ("attr", .option .text),
  ("default_value", .option Value.shape)]

/-- What a kind of node may be. -/
def NodeKind.variants : List (String × Content) := [
  ("Plugin", .fields [("category", Category.shape), ("plugin", .text)]),
  ("Unset", .nothing),
  ("TexLayered", .nothing),
  ("BrdfLayered", .fields [("additive_mode", .bool)]),
  ("SelectObject", .fields [("object", .option .text)]),
  ("SelectGroup", .fields [("group", .option .text)]),
  ("OutputGeometry", .nothing),
  ("OutputMaterial", .nothing),
  ("MaterialOutput", .fields [("dont_override", .bool)]),
  ("ObjectOutput", .nothing)]

/-- The shape of a kind of node. -/
def NodeKind.shape : Shape := .choice variants

/-- The shape of a node. -/
def Node.shape : Shape := .struct "Node" [
  ("name", .text),
  ("kind", NodeKind.shape),
  ("inputs", .list Socket.shape),
  ("outputs", .list Socket.shape),
  ("params", .map Value.shape)]

/-- The shape of a link. -/
def Link.shape : Shape := .struct "Link" [
  ("id", .wrapped "LinkId" .text),
  ("from_node", .text),
  ("from_port", .text),
  ("to_node", .text),
  ("to_port", .text)]

/-- The shape of a tree. -/
def NodeTree.shape : Shape := .struct "NodeTree" [
  ("name", .text),
  ("nodes", .list Node.shape),
  ("links", .list Link.shape)]

/-- The shape of a material. -/
def Material.shape : Shape := .struct "Material" [("node_tree", .option .text)]

/-- The shape of an object. -/
def SceneObject.shape : Shape := .struct "SceneObject" [
  ("mesh", .option .text),
  ("material_slots", .list (.option .text)),
  ("node_tree", .option .text),
  ("transform", Transform.shape),
  ("visible", .bool)]

/-- The shape of a group. -/
def Group.shape : Shape := .struct "Group" [("objects", .list .text)]

/-- The shape of a scene. -/
def Scene.shape : Shape := .struct "Scene" [
  ("name", .text),
  ("node_trees", .map NodeTree.shape),
  ("materials", .map Material.shape),
  ("objects", .map SceneObject.shape),
  ("groups", .map Group.shape)]

/-! ### Data of scenes -/

/-- The data of a socket. -/
def Socket.toData (s : Socket) : Data := .struct "Port" [
  ("name", .text s.name),
  ("direction", .variant s.direction.name),
  ("port_type", .variant s.type.name),
  ("attr", .ofOption .text s.attr),
  ("default_value", .ofOption Value.toData s.literal)]

/-- The data of a kind of node. -/
def NodeKind.toData : NodeKind → Data
  | .plugin category id => .variantWith "Plugin" [("category", category.toData), ("plugin", .text id)]
  | .unset => .variant "Unset"
  | .layeredTexture => .variant "TexLayered"
  | .layeredBrdf additive => .variantWith "BrdfLayered" [("additive_mode", .bool additive)]
  | .selectObject object => .variantWith "SelectObject" [("object", .ofOption .text object)]
  | .selectGroup group => .variantWith "SelectGroup" [("group", .ofOption .text group)]
  | .objectGeometry => .variant "OutputGeometry"
  | .objectMaterial => .variant "OutputMaterial"
  | .materialOutput dontOverride =>
    .variantWith "MaterialOutput" [("dont_override", .bool dontOverride)]
  | .objectOutput => .variant "ObjectOutput"

/-- The data of a node. -/
def Node.toData (n : Node) : Data := .struct "Node" [
  ("name", .text n.name),
  ("kind", n.kind.toData),
  ("inputs", .ofList Socket.toData n.inputs),
  ("outputs", .ofList Socket.toData n.outputs),
  ("params", .ofMap Value.toData n.params)]

/-- The data of a link. -/
def Link.toData (uuid : Uuid) (l : Link) : Data := .struct "Link" [
  ("id", .wrapped "LinkId" (.text (uuid.text l.id))),
  ("from_node", .text l.source.node),
  ("from_port", .text l.source.socket),
  ("to_node", .text l.target.node),
  ("to_port", .text l.target.socket)]

/-- The data of a tree. -/
def NodeTree.toData (uuid : Uuid) (t : NodeTree) : Data := .struct "NodeTree" [
  ("name", .text t.name),
  ("nodes", .ofList Node.toData t.nodes.values),
  ("links", .ofList (Link.toData uuid) t.links)]

/-- The data of a material. -/
def Material.toData (m : Material) : Data :=
  .struct "Material" [("node_tree", .ofOption .text m.tree)]

/-- The data of an object. -/
def SceneObject.toData (o : SceneObject) : Data := .struct "SceneObject" [
  ("mesh", .ofOption .text o.mesh),
  ("material_slots", .ofList (.ofOption .text) o.slots),
  ("node_tree", .ofOption .text o.tree),
  ("transform", o.transform.toData),
  ("visible", .bool o.visible)]

/-- The data of a group. -/
def Group.toData (g : Group) : Data := .struct "Group" [("objects", .ofList .text g.objects)]

/-- The data of a scene. -/
def Scene.toData (uuid : Uuid) (s : Scene) : Data := .struct "Scene" [
  ("name", .text s.name),
  ("node_trees", .ofMap (NodeTree.toData uuid) s.trees),
  ("materials", .ofMap Material.toData s.materials),
  ("objects", .ofMap SceneObject.toData s.objects),
  ("groups", .ofMap Group.toData s.groups)]

/-! ### Scenes of data -/

/-- A socket made of data. -/
def Socket.ofData? (data : Data) : Option Socket := do
  let fields ← data.fields?
  let name ← fields.get "name" Data.text?
  let direction ← fields.get "direction" (Data.choice? Direction.all Direction.name)
  let type ← fields.get "port_type" (Data.choice? SocketType.all SocketType.name)
  let attr ← fields.getOr "attr" none (Data.option? Data.text?)
  let literal ← fields.getOr "default_value" none (Data.option? Value.ofData?)
  some ⟨name, direction, type, attr, literal⟩

/-- A kind of node without fields, by its name. -/
def NodeKind.ofName? : String → Option NodeKind
  | "Unset" => some .unset
  | "TexLayered" => some .layeredTexture
  | "OutputGeometry" => some .objectGeometry
  | "OutputMaterial" => some .objectMaterial
  | "ObjectOutput" => some .objectOutput
  | _ => none

/-- A kind of node with fields, by its name. -/
def NodeKind.ofFields? (name : String) (fields : Fields) : Option NodeKind :=
  match name with
  | "Plugin" => do
    let category ← fields.get "category" Category.ofData?
    let id ← fields.get "plugin" Data.text?
    some (.plugin category id)
  | "BrdfLayered" => (fields.getOr "additive_mode" false Data.bool?).map .layeredBrdf
  | "SelectObject" => (fields.getOr "object" none (Data.option? Data.text?)).map .selectObject
  | "SelectGroup" => (fields.getOr "group" none (Data.option? Data.text?)).map .selectGroup
  | "MaterialOutput" => (fields.getOr "dont_override" false Data.bool?).map .materialOutput
  | _ => none

/-- A kind of node made of data. -/
def NodeKind.ofData? : Data → Option NodeKind
  | .variant name => ofName? name
  | .variantWith name fields => ofFields? name fields
  | _ => none

/-- A node made of data. -/
def Node.ofData? (data : Data) : Option Node := do
  let fields ← data.fields?
  let name ← fields.get "name" Data.text?
  let kind ← fields.get "kind" NodeKind.ofData?
  let inputs ← fields.getOr "inputs" [] (Data.list? Socket.ofData?)
  let outputs ← fields.getOr "outputs" [] (Data.list? Socket.ofData?)
  let params ← fields.getOr "params" ∅ (Data.map? Value.ofData?)
  some ⟨name, kind, inputs, outputs, params⟩

/-- An identity made of data. -/
def LinkId.ofData? (uuid : Uuid) : Data → Option LinkId
  | .wrapped _ data => data.text?.bind uuid.ofText?
  | _ => none

/-- A link made of data. -/
def LooseLink.ofData? (uuid : Uuid) (data : Data) : Option LooseLink := do
  let fields ← data.fields?
  let id ← fields.getOr "id" none fun data => (LinkId.ofData? uuid data).map some
  let fromNode ← fields.get "from_node" Data.text?
  let fromSocket ← fields.get "from_port" Data.text?
  let toNode ← fields.get "to_node" Data.text?
  let toSocket ← fields.get "to_port" Data.text?
  some ⟨id, ⟨fromNode, fromSocket⟩, ⟨toNode, toSocket⟩⟩

/-- A tree made of data. -/
def NodeTree.ofData? (uuid : Uuid) (data : Data) : Option NodeTree := do
  let fields ← data.fields?
  let name ← fields.get "name" Data.text?
  let nodes ← fields.getOr "nodes" [] (Data.list? Node.ofData?)
  let links ← fields.getOr "links" [] (Data.list? (LooseLink.ofData? uuid))
  some (NodeTree.ofParts name nodes (identify (links.filterMap LooseLink.id) links))

/-- A material made of data. -/
def Material.ofData? (data : Data) : Option Material := do
  let fields ← data.fields?
  let tree ← fields.getOr "node_tree" none (Data.option? Data.text?)
  some ⟨tree⟩

/-- An object made of data. -/
def SceneObject.ofData? (data : Data) : Option SceneObject := do
  let fields ← data.fields?
  let mesh ← fields.getOr "mesh" none (Data.option? Data.text?)
  let slots ← fields.getOr "material_slots" [] (Data.list? (Data.option? Data.text?))
  let tree ← fields.getOr "node_tree" none (Data.option? Data.text?)
  let transform ← fields.getOr "transform" Transform.identity Transform.ofData?
  let visible ← fields.getOr "visible" true Data.bool?
  some ⟨mesh, slots, tree, transform, visible⟩

/-- A group made of data. -/
def Group.ofData? (data : Data) : Option Group := do
  let fields ← data.fields?
  let objects ← fields.get "objects" (Data.list? Data.text?)
  some ⟨objects⟩

namespace Scene

/-- A scene made of data. -/
def ofData? (uuid : Uuid) (data : Data) : Option Scene := do
  let fields ← data.fields?
  let name ← fields.get "name" Data.text?
  let trees ← fields.getOr "node_trees" ∅ (Data.map? (NodeTree.ofData? uuid))
  let materials ← fields.getOr "materials" ∅ (Data.map? Material.ofData?)
  let objects ← fields.getOr "objects" ∅ (Data.map? SceneObject.ofData?)
  let groups ← fields.getOr "groups" ∅ (Data.map? Group.ofData?)
  some ⟨name, trees, materials, objects, groups⟩

/-! ### Documents -/

/-- The document that keeps a scene, with the names of structures or without. -/
def write (ron : Ron) (uuid : Uuid) (named : Bool) (s : Scene) : String :=
  ron.write named (s.toData uuid)

/-- The scene of a document. -/
def read? (ron : Ron) (uuid : Uuid) (document : String) : Option Scene :=
  (ron.read? shape document).bind (ofData? uuid)

/-- The document of a scene in the format that is used here. -/
def text (s : Scene) : String := s.write ron LinkId.uuid false

/-- The scene of a document in the format that is used here. -/
def ofText? (document : String) : Option Scene := read? ron LinkId.uuid document

end Scene

end ShadeNet
