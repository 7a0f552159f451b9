/-
# Exporting a scene

An export is one pass, or one for each frame of a range. A pass starts with an
empty ledger and writes the default material, the material that overrides others,
every material with a tree and every object, each group in the order of the scene.

Key definitions: `Pass.run`, `Job.check`, `Job.warnings`, `Job.exportFrame`,
`Job.exportFrames`.
-/
import ShadeNet.Network.Walk

namespace ShadeNet

/-- What a pass has written. -/
structure Summary where
  /-- The frame. -/
  frame : Int32
  /-- The number of records that were counted. -/
  records : Nat
  /-- The number of compiled nodes. -/
  nodes : Nat
deriving DecidableEq

/-- The comment at the head of a pass. -/
def headerText (scene : String) (frame : Int32) : String :=
  "// vrscene_export 0.1.0\n// Scene: " ++ scene ++ " Frame: " ++ toString frame.toInt ++ "\n"

namespace Pass

/-- Compiles the material that stands for all others, if the settings name one. -/
def writeOverride (pass : Pass) : Compile Unit :=
  match pass.settings.overrideMaterial with
  | none => return ()
  | some material =>
    match pass.scene.materialTree? material with
    | none => report (.overrideWithoutTree material)
    | some tree => do
      let token ← writeMaterialTree pass.compiler tree
      report (.overriding token)
      modify fun s => { s with overrideToken := some token }

/-- Compiles the tree of a material, if it has one. -/
def writeMaterial (pass : Pass) (material : String) : Compile Unit :=
  match pass.scene.materialTree? material with
  | none => return ()
  | some tree => do
    let _ ← writeMaterialTree pass.compiler tree
    return ()

/-- Compiles an object. -/
def writeSceneObject (pass : Pass) (object : String) : Compile Unit := do
  let _ ← pass.writeObject pass.compiler object
  return ()

/-- Everything a pass writes. -/
def writeScene (pass : Pass) : Compile Unit := do
  writeRemark (headerText pass.scene.name pass.frame)
  pass.writeDefaults
  pass.writeOverride
  pass.scene.materials.keys.forM pass.writeMaterial
  pass.scene.objects.keys.forM pass.writeSceneObject

/-- Runs a pass. -/
def run (pass : Pass) : Compile Summary := do
  report (.exporting pass.scene.name pass.frame)
  modify fun s => { s with ledger := {}, scope := none, overrideToken := none }
  pass.writeScene
  let s ← get
  let summary : Summary := ⟨pass.frame, s.ledger.records, s.ledger.compiledNodes⟩
  report (.exported summary.frame summary.records summary.nodes)
  return summary

end Pass

/-- The frames from `first` to `last`, none if `last` comes before `first`. -/
def frameRange (first last : Int32) : List Int32 :=
  (List.range (last.toInt - first.toInt + 1).toNat).map fun k : Nat => Int32.ofInt (first.toInt + k)

namespace Job

/-- What is wrong with the trees of the scene. -/
def check (job : Job) : List SchemaError :=
  job.scene.trees.values.flatMap fun tree => tree.check job.catalog

/-- What is reported about a job before anything is exported: what is wrong with
the trees, and the trees that have cycles. -/
def warnings (job : Job) : List LogLine :=
  job.check.map .schema ++ job.scene.trees.values.filterMap fun tree =>
    match tree.dependencyOrder with
    | .error cause => some (.treeCycle tree.name cause)
    | .ok _ => none

/-- One pass at a frame. -/
def exportFrame (job : Job) (outside : Surroundings) (frame : Int32) : Compile Summary :=
  Pass.run { toJob := job, toSurroundings := outside, frame := frame }

/-- One pass for each frame. -/
def exportFrames (job : Job) (outside : Surroundings) : List Int32 → Compile (List Summary)
  | [] => return []
  | frame :: rest => do
    let first ← job.exportFrame outside frame
    let others ← job.exportFrames outside rest
    return first :: others

end Job

end ShadeNet
