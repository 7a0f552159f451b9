/-
# Dependency order of a tree

The nodes of a tree, each after everything it is linked from. The walk goes up
the links from every node in turn; meeting a name that is still being walked is
a cycle.

Key definitions: `NodeTree.visit`, `NodeTree.dependencyOrder`.
-/
import ShadeNet.Scene.Tree

namespace ShadeNet

/-- A node that depends on itself through links. -/
structure CycleError where
  /-- The name that was met again. -/
  node : String
deriving DecidableEq

/-- The wording of a cycle. -/
def CycleError.message (e : CycleError) : String :=
  "Node tree contains a cycle through " ++ e.node

namespace NodeTree

/-- The names that feed a node, one for each link, in link order. -/
def feeders (t : NodeTree) (name : String) : List String :=
  (t.links.filter (·.target.node = name)).map (·.source.node)

/-- Adds `name` to the order after everything that feeds it. `path` holds the
names that are being walked; one more than the names of the tree and its links
is depth enough. -/
def visit (t : NodeTree) : Nat → List String → List String → String → Except CycleError (List String)
  | 0, _, _, name => .error ⟨name⟩
  | depth + 1, path, order, name =>
    if name ∈ path then .error ⟨name⟩
    else if name ∈ order then .ok order
    else do
      let order ← (t.feeders name).foldlM (t.visit depth (name :: path)) order
      return order ++ [name]

/-- A depth that no walk without a repetition exceeds. -/
def walkDepth (t : NodeTree) : Nat := t.nodes.size + t.links.length + 1

/-- All node names, sources first, or a node on a cycle. A name that only links
mention is listed before the node it feeds. -/
def dependencyOrder (t : NodeTree) : Except CycleError (List String) :=
  t.nodes.keys.foldlM (t.visit t.walkDepth []) []

end NodeTree

end ShadeNet
