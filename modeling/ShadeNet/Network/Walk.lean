/-
# The walk

A node compiles by its kind, and what it needs compiles by the same rule. The
walk is bounded: every node that is marked, every object that is entered and
every run of nodes that only pass something on is a step down, and a scene has
only so many of each.

Key definitions: `Pass.compileNode`, `Pass.walk`, `Scene.walkDepth`,
`Pass.compiler`.
-/
import ShadeNet.Network.Instance
import ShadeNet.Network.Layers

namespace ShadeNet

/-- Compiles one node by its kind. -/
def Pass.compileNode (pass : Pass) (compile : NodeCompiler) : NodeCompiler :=
  fun tree node useLiterals =>
    match node.kind with
    | .plugin _ plugin =>
      once tree node (pass.writePluginNode compile tree node plugin useLiterals)
    | .unset => return none
    | .layeredTexture => once tree node (pass.writeLayeredTexture compile tree node)
    | .layeredBrdf additive => once tree node (pass.writeLayeredBrdf compile tree node additive)
    | .selectObject object => do
      let value ← pass.selectObject compile tree node object
      return some value
    | .selectGroup group => do
      let value ← pass.selectGroup compile tree node group
      return some value
    | .objectGeometry => pass.writeGeometry
    | .objectMaterial => do
      let token ← pass.writeObjectMaterial compile
      return some (.reference token)
    | .materialOutput _ => resolveInput compile tree node "Material" useLiterals
    | .objectOutput => resolveInput compile tree node "Object" useLiterals

/-- Compiles a node, going at most `depth` nodes deep. -/
def Pass.walk (pass : Pass) : Nat → NodeCompiler
  | 0 => fun _ _ _ => throw .depthExceeded
  | depth + 1 => pass.compileNode (pass.walk depth)

/-- The number of nodes of all trees. -/
def Scene.nodeCount (s : Scene) : Nat := (s.trees.values.flatMap (·.nodes.values)).length

/-- A depth that no walk exceeds in which no node that only passes something on
comes back to itself. A node can be marked once outside objects, once in the scope
that was there at the start and once in the scope of each object; between two
marks there are at most all nodes. -/
def Scene.walkDepth (s : Scene) : Nat :=
  (s.nodeCount * (s.objects.size + 2) + s.objects.size + 1) * (s.nodeCount + 1) + 1

/-- Compiles the nodes of the trees of the scene. -/
def Pass.compiler (pass : Pass) : NodeCompiler := pass.walk pass.scene.walkDepth

end ShadeNet
