/-
# Materials and geometry

The material of a tree, the material and the geometry of the object that is being
compiled, and the default material that stands in wherever a tree gives none.

Key definitions: `Pass.writeDefaults`, `writeMaterialTree`,
`Pass.writeGeometry`, `Pass.writeObjectMaterial`.
-/
import ShadeNet.Network.Input

namespace ShadeNet

/-- The instance name of the default material. -/
def defaultMaterial : String := "Material_no_material"

/-- The instance name of the shading model of the default material. -/
def defaultBrdf : String := "BRDFDiffuse_no_material"

/-- The shading model of the default material: mid grey. -/
def defaultBrdfRecord : Record where
  plugin := "BRDFDiffuse"
  name := defaultBrdf
  category := .brdf
  attrs := [("color",
    (Value.color (let half := Single.ofRatio false 1 2; ⟨half, half, half⟩)).text)]

/-- The default material. -/
def defaultMaterialRecord : Record where
  plugin := "MtlSingleBRDF"
  name := defaultMaterial
  category := .material
  attrs := [("brdf", defaultBrdf)]

/-- The material of a tree from the value at its end. Whatever is no reference
gives the default material, and so does a tree that needs itself. -/
def materialToken (tree : NodeTree) : Except Failure (Option Resolved) → Compile String
  | .ok (some (.reference token)) => return token
  | .ok _ => do
    report (.materialEmpty tree.name)
    return defaultMaterial
  | .error (.cycle name node) => do
    report (.materialCycle name node)
    return defaultMaterial
  | .error failure => throw failure

/-- Compiles a material tree and gives the token of its material. The override
wins before anything in the tree is looked at, unless the tree's end refuses it. -/
def writeMaterialTree (compile : NodeCompiler) (tree : NodeTree) : Compile String :=
  match tree.materialOutput? with
  | none => do
    report (.materialOutputMissing tree.name)
    return defaultMaterial
  | some output => do
    let s ← get
    match if output.kind = .materialOutput true then none else s.overrideToken with
    | some token => return token
    | none =>
      if tree.isLinked ⟨output.name, "Material"⟩ then
        let value ← attempt (resolveInput compile tree output "Material" true)
        materialToken tree value
      else
        report (.materialNotConnected tree.name output.name)
        return defaultMaterial

namespace Pass

/-- Writes the default material, unless its name is taken. -/
def writeDefaults (pass : Pass) : Compile Unit := do
  let s ← get
  if s.ledger.isTaken defaultMaterial then return ()
  else
    let _ ← pass.emit defaultBrdfRecord
    let _ ← pass.emit defaultMaterialRecord
    return ()

/-- The geometry of the object that is being compiled. Its mesh is handed to the
geometry exporter the first time it is met. -/
def writeGeometry (pass : Pass) : Compile (Option Resolved) := do
  let s ← get
  match s.scope with
  | none => do
    report .geometryOutsideObject
    return none
  | some scope =>
    match scope.mesh with
    | none => do
      report (.objectWithoutMesh scope.name)
      return none
    | some mesh =>
      let name := meshName mesh
      if pass.settings.autoMeshes && !s.ledger.hasMesh name then
        modifyLedger fun l => (l.addMesh name).reserve name
        pass.exportMesh ⟨scope.name, mesh, name⟩
      return some (.reference name)

/-- The material of one slot, if the slot is filled and the material has a tree. -/
def slotMaterial (pass : Pass) (compile : NodeCompiler) (slot : Option String) :
    Compile (Option String) :=
  match slot.bind pass.scene.materialTree? with
  | none => return none
  | some tree => do
    let token ← writeMaterialTree compile tree
    return some token

/-- The record that gathers several materials, numbered from one. -/
def multiMaterialRecord (name : String) (materials : List String) : Record where
  plugin := "MtlMulti"
  name := name
  category := .material
  attrs := [
    ("mtls_list", listText .references materials),
    ("ids_list", listText .ints ((List.range' 1 materials.length).map toString))]

/-- One material for the materials of the slots of an object. -/
def combineMaterials (pass : Pass) (key : String) : List String → Compile String
  | [] => return defaultMaterial
  | [material] => return material
  | materials => do
    let name ← claimName key
    pass.emit (multiMaterialRecord name materials)

/-- The material of the object that is being compiled, from its slots in order. -/
def writeObjectMaterial (pass : Pass) (compile : NodeCompiler) : Compile String := do
  let s ← get
  match s.scope with
  | none => do
    report .materialOutsideObject
    return defaultMaterial
  | some scope =>
    match pass.scene.object? scope.name with
    | none => return defaultMaterial
    | some object =>
      let key := multiMaterialName scope.name
      match s.ledger.synthesized? key with
      | some token => return token
      | none => do
        let materials ← collect (pass.slotMaterial compile) object.slots
        let token ← pass.combineMaterials key materials
        modifyLedger (·.setSynthesized key token)
        return token

end Pass

end ShadeNet
