/-
# Objects

An object compiles to the record at the end of its own tree, or to a plain node
with its geometry, material and transform. Objects are compiled where they are
first needed, and what is being compiled around them is kept.

Key definitions: `Pass.writeObject`, `Pass.select`.
-/
import ShadeNet.Network.Surface

namespace ShadeNet

/-- The token of an object from the value at the end of its tree. A tree that
needs itself gives none. -/
def objectToken : Except Failure (Option Resolved) → Compile (Option String)
  | .ok value => return value.bind (·.token?)
  | .error (.cycle tree node) => do
    report (.objectCycle tree node)
    return none
  | .error failure => throw failure

/-- Compiles the tree of an object. -/
def writeObjectTree (compile : NodeCompiler) (tree : NodeTree) : Compile (Option String) :=
  match tree.objectOutput? with
  | none => do
    report (.objectOutputMissing tree.name)
    return none
  | some output => do
    let value ← attempt (resolveInput compile tree output "Object" true)
    objectToken value

namespace Pass

/-- What the record of an object without a tree is supplied with. -/
def objectSupply (geometry : Resolved) (material : String) (object : SceneObject) :
    OrderedMap String Resolved :=
  OrderedMap.ofList [
    ("geometry", geometry),
    ("material", .reference material),
    ("transform", .literal (.transform object.transform))]

/-- Compiles an object without a tree. -/
def writePlainObject (pass : Pass) (compile : NodeCompiler) (name : String)
    (object : SceneObject) : Compile (Option String) :=
  match pass.catalog.get? "Node" with
  | none => do
    report .objectPluginMissing
    return none
  | some desc => do
    match ← pass.writeGeometry with
    | none => return none
    | some geometry => do
      let material ← pass.writeObjectMaterial compile
      let instanceName ← claimName (objectName name)
      let token ← pass.writePlugin desc instanceName ∅ (objectSupply geometry material object)
      return some token

/-- Compiles an object in its own scope. -/
def buildObject (pass : Pass) (compile : NodeCompiler) (name : String) (object : SceneObject) :
    Compile (Option String) :=
  match object.tree with
  | none => pass.writePlainObject compile name object
  | some key =>
    match pass.scene.tree? key with
    | some tree => writeObjectTree compile tree
    | none => do
      report (.objectTreeMissing name key)
      return none

/-- The token of an object's record, which is written the first time it is asked
for. Objects that are hidden, unknown or without a record have none. -/
def writeObject (pass : Pass) (compile : NodeCompiler) (name : String) :
    Compile (Option String) := do
  let s ← get
  match s.ledger.object? name with
  | some (.done token) => return token
  | some .resolving => do
    report (.objectBeingWritten name)
    return none
  | none =>
    match pass.scene.object? name with
    | none => return none
    | some object =>
      if object.visible then
        modifyLedger (·.setObject name .resolving)
        let previous ← replaceScope (some ⟨name, object.mesh, object.tree⟩)
        let result ← attempt (pass.buildObject compile name object)
        let _ ← replaceScope previous
        match result with
        | .ok token => do
          modifyLedger (·.setObject name (.done token))
          return token
        | .error failure => do
          modifyLedger (·.abandonObject name)
          throw failure
      else
        modifyLedger (·.setObject name (.done none))
        return none

/-- The token of an object that a selector picks; an object whose record is being
compiled needs the selector itself. -/
def selectMember (pass : Pass) (compile : NodeCompiler) (tree : NodeTree) (node : Node)
    (name : String) : Compile (Option String) := do
  let s ← get
  if s.ledger.object? name = some .resolving then throw (.cycle tree.name node.name)
  else pass.writeObject compile name

/-- The records of the named objects, in order. -/
def select (pass : Pass) (compile : NodeCompiler) (tree : NodeTree) (node : Node)
    (names : List String) : Compile Resolved := do
  let tokens ← collect (pass.selectMember compile tree node) names
  return .objects tokens

/-- The records of an object of the scene. -/
def selectObject (pass : Pass) (compile : NodeCompiler) (tree : NodeTree) (node : Node)
    (object : Option String) : Compile Resolved :=
  pass.select compile tree node
    (object.toList.filter fun name => (pass.scene.object? name).isSome)

/-- The records of a group of the scene. -/
def selectGroup (pass : Pass) (compile : NodeCompiler) (tree : NodeTree) (node : Node)
    (group : Option String) : Compile Resolved :=
  pass.select compile tree node
    (((group.bind pass.scene.group?).map Group.objects).getD [])

end Pass

end ShadeNet
