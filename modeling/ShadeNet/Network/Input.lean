/-
# From a socket to the node that feeds it

Everything that a node takes from other nodes comes through its input sockets.
The steps here are given the function that compiles a node, so each of them is
one step of the walk and the walk itself is tied elsewhere.

Key definitions: `NodeCompiler`, `selectOutput`, `resolveSocket`, `once`,
`Pass.writePluginNode`.
-/
import ShadeNet.Network.Attribute

namespace ShadeNet

/-- Compiles a node of a tree; the switch says whether sockets that are not linked
give their literals. Nothing is returned for a node without a record. -/
abbrev NodeCompiler := NodeTree → Node → Bool → Compile (Option Resolved)

/-- Outputs that go by the instance name alone. -/
def bareOutputs : List String := ["uvwgen", "bitmap"]

/-- The selector of an output of a node: fluid caches name their channels in a way
of their own. -/
def outputSelector (kind : NodeKind) (attr : String) : String :=
  match kind, attr with
  | .plugin _ "TexMayaFluid", "out_flame" => "@Flame"
  | .plugin _ "TexMayaFluid", "out_density" => "@Density"
  | .plugin _ "TexMayaFluid", "out_fuel" => "@Fuel"
  | _, attr => "::" ++ attr

/-- The value of a node as seen through one of its outputs. -/
def selectOutput (source : Node) (attr : Option String) : Resolved → Resolved
  | .reference token =>
    match attr with
    | some attr =>
      if attr ∈ bareOutputs then .reference token
      else .reference (token ++ outputSelector source.kind attr)
    | none => .reference token
  | value => value

/-- The value of an input socket. -/
def resolveSocket (compile : NodeCompiler) (tree : NodeTree) (node : Node) (socket : Socket)
    (useLiterals : Bool) : Compile (Option Resolved) :=
  match tree.linkTo? ⟨node.name, socket.name⟩ with
  | none => return if useLiterals then socket.literal.map .literal else none
  | some link =>
    match tree.node? link.source.node with
    | none => do
      report (.sourceMissing tree.name ⟨node.name, socket.name⟩ link.source.node)
      return none
    | some source => do
      let attr := (source.output? link.source.socket).bind (·.attr)
      let value ← compile tree source useLiterals
      return value.map (selectOutput source attr)

/-- The value of the input socket of the given name. -/
def resolveInput (compile : NodeCompiler) (tree : NodeTree) (node : Node) (name : String)
    (useLiterals : Bool) : Compile (Option Resolved) :=
  match node.input? name with
  | none => do
    report (.socketMissing tree.name node.name name)
    return none
  | some socket => resolveSocket compile tree node socket useLiterals

/-- Builds the value of a node unless the ledger has it. A node that is met while
it is being resolved needs itself. -/
def once (tree : NodeTree) (node : Node) (build : Compile (Option Resolved)) :
    Compile (Option Resolved) := do
  let s ← get
  let key := s.treeKey tree.name
  match s.ledger.node? key node.name with
  | some (.done value) => return some value
  | some .resolving => throw (.cycle tree.name node.name)
  | none => do
    modifyLedger (·.setNode key node.name .resolving)
    match ← attempt build with
    | .ok (some value) => do
      modifyLedger (·.setNode key node.name (.done value))
      return some value
    | .ok none => do
      modifyLedger (·.abandonNode key node.name)
      return none
    | .error failure => do
      modifyLedger (·.abandonNode key node.name)
      throw failure

/-- What an input socket supplies to the attribute it stands for. -/
def supply (compile : NodeCompiler) (tree : NodeTree) (node : Node) (useLiterals : Bool)
    (socket : Socket) : Compile (Option (String × Resolved)) :=
  match socket.attr with
  | none => return none
  | some attr => do
    let value ← resolveSocket compile tree node socket useLiterals
    return value.map fun v => (attr, v)

/-- Compiles a node of a plugin from the catalog: first everything it is linked
from, then its own record. -/
def Pass.writePluginNode (pass : Pass) (compile : NodeCompiler) (tree : NodeTree) (node : Node)
    (plugin : String) (useLiterals : Bool) : Compile (Option Resolved) :=
  match pass.catalog.get? plugin with
  | none => do
    report (.pluginUnknown tree.name node.name plugin)
    return none
  | some desc => do
    let supplied ← collect (supply compile tree node useLiterals) node.inputs
    let name ← claimName (nodeName tree.name node.name)
    let token ← pass.writePlugin desc name node.params (OrderedMap.ofList supplied)
    return some (.reference token)

end ShadeNet
