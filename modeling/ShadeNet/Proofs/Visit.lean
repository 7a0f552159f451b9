/-
# The calls of a pass

A pass compiles by calls: of a node, of the tree of a material, of the material of the
object in scope, of an object. A visit is a call with the state it is made in. The visits
of a step are read off its run: those of what it begins with, and then those of what it
goes on with, in the state that is left. A call stands before the calls it makes.

Key definitions: `Call`, `Visit`, `Visit.run`, `Trace`, `Pass.nodeTrace`,
`Pass.ownMaterialTrace`, `Pass.objectTrace`, `Call.trace`, `Visit.calls`, `Pass.visits`.
-/
import ShadeNet.Proofs.Upstream

namespace ShadeNet

variable {α β : Type}

/-- What is called. -/
inductive Call
  /-- A node of a tree, with the switch for literals on sockets that are not linked. -/
  | node (tree : NodeTree) (node : Node) (useLiterals : Bool)
  /-- The tree of a material. -/
  | material (tree : NodeTree)
  /-- The material of the object in scope. -/
  | ownMaterial
  /-- An object. -/
  | object (name : String)
deriving DecidableEq

/-- A call, with what it is given and the state it is made in. -/
structure Visit where
  /-- What is called. -/
  call : Call
  /-- The depth of the walk that compiles the nodes. -/
  depth : Nat
  /-- The state. -/
  state : PassState

/-- What a call compiles to. -/
def Call.compile (pass : Pass) (compile : NodeCompiler) : Call → Compile (Option Resolved)
  | .node tree n useLiterals => compile tree n useLiterals
  | .material tree => do
    let token ← writeMaterialTree compile tree
    return some (.reference token)
  | .ownMaterial => do
    let token ← pass.writeObjectMaterial compile
    return some (.reference token)
  | .object name => do
    let token ← pass.writeObject compile name
    return token.map .reference

/-- The run of a visit. -/
def Visit.run (pass : Pass) (v : Visit) : Except Failure (Option Resolved) × PassState :=
  (v.call.compile pass (pass.walk v.depth)).runOn v.state

/-! ### Traces -/

/-- The visits that a step makes, from the state it is run on. -/
abbrev Trace := PassState → List Visit

namespace Trace

/-- Nothing is called. -/
def none : Trace := fun _ => []

/-- A call and the calls it makes. -/
def call (call : Call) (depth : Nat) (below : Trace) : Trace := fun s => ⟨call, depth, s⟩ :: below s

/-- The visits of a step and of what is done with its result. -/
def bind (c : Compile α) (first : Trace) (rest : α → Trace) : Trace := fun s =>
  first s ++ match c.runOn s with
    | (.ok a, t) => rest a t
    | (.error _, _) => []

theorem bind_none (c : Compile α) (first : Trace) :
    bind c first (fun _ => .none) = first := by
  funext s
  unfold bind
  rcases c.runOn s with ⟨e | a, t⟩ <;> exact List.append_nil _

/-- The visits of a step for each member of a list. -/
def collect (f : α → Compile β) (first : α → Trace) : List α → Trace
  | [] => none
  | a :: rest => bind (f a) (first a) fun _ => collect f first rest

end Trace

/-! ### Sockets -/

section Traces

variable (pass : Pass) (depth : Nat) (trace : NodeTree → Node → Bool → Trace)

/-- The visits of an input socket: those of the node that feeds it. -/
def socketTrace (tree : NodeTree) (node : Node) (socket : Socket) (useLiterals : Bool) : Trace :=
  match tree.source? node socket with
  | none => .none
  | some source => trace tree source useLiterals

/-- The visits of the input socket of the given name. -/
def inputTrace (tree : NodeTree) (node : Node) (name : String) (useLiterals : Bool) : Trace :=
  match node.input? name with
  | none => .none
  | some socket => socketTrace trace tree node socket useLiterals

/-- The visits of the build of a node, if it is built. -/
def onceTrace (tree : NodeTree) (node : Node) (build : Trace) : Trace := fun s =>
  match s.ledger.node? (s.treeKey tree.name) node.name with
  | some _ => []
  | none => build (s.mark (s.treeKey tree.name) node.name)

/-- The visits of an input socket that stands for an attribute. -/
def supplyTrace (tree : NodeTree) (node : Node) (useLiterals : Bool) (socket : Socket) : Trace :=
  match socket.attr with
  | none => .none
  | some _ => socketTrace trace tree node socket useLiterals

/-- The visits of a layer of a texture. -/
def textureLayerTrace (tree : NodeTree) (node : Node) (socket : Socket) : Trace :=
  if tree.isLinked ⟨node.name, socket.name⟩ then socketTrace trace tree node socket true else .none

/-- The visits of the node that feeds a weight. -/
def weightTrace (tree : NodeTree) (node : Node) (socket : String) : Trace :=
  match tree.linkedSource? ⟨node.name, socket⟩ with
  | none => .none
  | some (source, _) => trace tree source false

/-- The visits of a material tree, unless the override stands for it. -/
def materialTrace (tree : NodeTree) : Trace :=
  match tree.materialOutput? with
  | none => .none
  | some output => fun s =>
    match if output.kind = .materialOutput true then none else s.overrideToken with
    | some _ => []
    | none =>
      if tree.isLinked ⟨output.name, "Material"⟩ then inputTrace trace tree output "Material" true s
      else []

namespace Pass

/-- The visits of the build of a plugin node. -/
def pluginTrace (tree : NodeTree) (node : Node) (plugin : String) (useLiterals : Bool) : Trace :=
  match pass.catalog.get? plugin with
  | none => .none
  | some _ => Trace.collect (supply (pass.walk depth) tree node useLiterals)
      (supplyTrace trace tree node useLiterals) node.inputs

/-- The visits of a layer of a shading model: the model, and its weight if there is one. -/
def brdfLayerTrace (tree : NodeTree) (node : Node) (layer : Nat) : Trace :=
  match node.input? ("BRDF " ++ toString layer) with
  | none => .none
  | some socket =>
    if tree.isLinked ⟨node.name, socket.name⟩ then
      .bind (resolveSocket (pass.walk depth) tree node socket true)
        (socketTrace trace tree node socket true) fun value =>
          match value.bind (·.token?) with
          | none => .none
          | some _ => weightTrace trace tree node ("Weight " ++ toString layer)
    else .none

/-- The visits of a slot. -/
def slotTrace (slot : Option String) : Trace :=
  match slot.bind pass.scene.materialTree? with
  | none => .none
  | some tree => .call (.material tree) depth (materialTrace trace tree)

/-- The visits of the slots of the object in scope, unless its material is there. -/
def slotsTrace : Trace := fun s =>
  match s.scope with
  | none => []
  | some scope =>
    match pass.scene.object? scope.name with
    | none => []
    | some object =>
      match s.ledger.synthesized? (multiMaterialName scope.name) with
      | some _ => []
      | none => Trace.collect (pass.slotMaterial (pass.walk depth)) (pass.slotTrace depth trace)
          object.slots s

/-- The visits of the material of the object in scope. -/
def ownMaterialTrace : Trace := .call .ownMaterial depth (pass.slotsTrace depth trace)

/-- The visits of the build of an object. -/
def buildTrace (object : SceneObject) : Trace :=
  match object.tree with
  | none =>
    match pass.catalog.get? "Node" with
    | none => .none
    | some _ => .bind pass.writeGeometry .none fun geometry =>
        match geometry with
        | none => .none
        | some _ => pass.ownMaterialTrace depth trace
  | some key =>
    match pass.scene.tree? key with
    | none => .none
    | some tree =>
      match tree.objectOutput? with
      | none => .none
      | some output => inputTrace trace tree output "Object" true

/-- The visits of an object. -/
def objectTrace (name : String) : Trace := .call (.object name) depth fun s =>
  match s.ledger.object? name with
  | some _ => []
  | none =>
    match pass.scene.object? name with
    | none => []
    | some object =>
      if object.visible then pass.buildTrace depth trace object (s.enter name object) else []

/-- The visits of the objects that a selector picks. -/
def selectTrace (tree : NodeTree) (node : Node) (names : List String) : Trace :=
  .collect (pass.selectMember (pass.walk depth) tree node)
    (fun name s => if s.ledger.object? name = some .resolving then []
      else pass.objectTrace depth trace name s) names

/-- The visits below a node, by its kind. -/
def kindTrace (tree : NodeTree) (node : Node) (useLiterals : Bool) : Trace :=
  match node.kind with
  | .plugin _ plugin =>
    onceTrace tree node (pass.pluginTrace depth trace tree node plugin useLiterals)
  | .unset => .none
  | .layeredTexture => onceTrace tree node
      (.collect (textureLayer (pass.walk depth) tree node) (textureLayerTrace trace tree node)
        node.inputs)
  | .layeredBrdf _ => onceTrace tree node
      (.collect (pass.brdfLayer (pass.walk depth) tree node)
        (pass.brdfLayerTrace depth trace tree node) (List.range' 1 (node.inputs.length / 2)))
  | .selectObject object => pass.selectTrace depth trace tree node
      (object.toList.filter fun name => (pass.scene.object? name).isSome)
  | .selectGroup group => pass.selectTrace depth trace tree node
      (((group.bind pass.scene.group?).map Group.objects).getD [])
  | .objectGeometry => .none
  | .objectMaterial => pass.ownMaterialTrace depth trace
  | .materialOutput _ => inputTrace trace tree node "Material" useLiterals
  | .objectOutput => inputTrace trace tree node "Object" useLiterals

end Pass

end Traces

namespace Pass

variable (pass : Pass)

/-- The visits of a node. -/
def nodeTrace : Nat → NodeTree → Node → Bool → Trace
  | 0, tree, node, useLiterals => .call (.node tree node useLiterals) 0 .none
  | depth + 1, tree, node, useLiterals => .call (.node tree node useLiterals) (depth + 1)
      (pass.kindTrace depth (nodeTrace depth) tree node useLiterals)

end Pass

/-- The visits of a call, with the call itself. -/
def Call.trace (pass : Pass) (depth : Nat) : Call → Trace
  | .node tree n useLiterals => pass.nodeTrace depth tree n useLiterals
  | .material tree => .call (.material tree) depth (materialTrace (pass.nodeTrace depth) tree)
  | .ownMaterial => pass.ownMaterialTrace depth (pass.nodeTrace depth)
  | .object name => pass.objectTrace depth (pass.nodeTrace depth) name

/-- The calls that a visit makes, and those that they make. -/
def Visit.calls (pass : Pass) (v : Visit) : List Visit := (v.call.trace pass v.depth v.state).tail

/-- A call stands before the calls it makes. -/
theorem Visit.trace_eq (pass : Pass) (v : Visit) :
    v.call.trace pass v.depth v.state = v :: v.calls pass := by
  obtain ⟨call, depth, state⟩ := v
  cases call with
  | node => cases depth <;> rfl
  | material | ownMaterial | object => rfl

namespace Pass

variable (pass : Pass)

/-- The visits of the tree of a material of the scene, if it has one. -/
def sceneMaterialTrace (material : String) : Trace :=
  pass.slotTrace pass.scene.walkDepth (pass.nodeTrace pass.scene.walkDepth) (some material)

/-- The visits of an object of the scene. -/
def sceneObjectTrace (name : String) : Trace :=
  pass.objectTrace pass.scene.walkDepth (pass.nodeTrace pass.scene.walkDepth) name

/-- The visits of the material that overrides others. -/
def overrideTrace : Trace :=
  match pass.settings.overrideMaterial with
  | none => .none
  | some material => pass.sceneMaterialTrace material

/-- The visits of what a pass does behind its head. -/
def bodyTrace : Trace :=
  .bind pass.opening (.bind pass.writeDefaults .none fun _ => pass.overrideTrace) fun _ =>
    .bind (pass.scene.materials.keys.forM pass.writeMaterial)
      (.collect pass.writeMaterial pass.sceneMaterialTrace pass.scene.materials.keys) fun _ =>
        .collect pass.writeSceneObject pass.sceneObjectTrace pass.scene.objects.keys

/-- The visits of a pass, in the order in which they are made. A pass whose head cannot be
written has none. -/
def visits (s : PassState) : List Visit :=
  if (s.sink.write pass.header).2 then pass.bodyTrace (pass.headed s) else []

end Pass

end ShadeNet
