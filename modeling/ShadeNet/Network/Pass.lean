/-
# The state of a pass and its steps

A pass compiles a scene at one frame. What it is given does not change while it
runs (`Pass`); what it does changes the state (`PassState`). A step that fails
keeps the state it has reached: records that were written stay written.

Key definitions: `Pass`, `PassState`, `Compile`, `attempt`, `collect`, `Pass.emit`.
-/
import ShadeNet.Network.Ledger
import ShadeNet.Network.Log
import ShadeNet.Network.Sink
import ShadeNet.Scene.Basic
import ShadeNet.Settings
import ShadeNet.Text.Literal
import ShadeNet.Text.Name

namespace ShadeNet

/-- A mesh that is to be written as the instance `name`. -/
structure MeshRequest where
  /-- The object that has the mesh. -/
  object : String
  /-- The mesh. -/
  mesh : String
  /-- The instance name of the mesh. -/
  name : String
deriving DecidableEq

/-- What a geometry exporter does for one mesh: it writes to the sink, and then ends
well or with a failure of its own. -/
structure MeshAnswer where
  /-- What it writes: records, and text that is no record. -/
  entries : List Entry := []
  /-- The failure that it ends with. -/
  failure : Option String := none
deriving DecidableEq

/-- The records that are written for a mesh. -/
def MeshAnswer.records (answer : MeshAnswer) : List Record := recordsOf answer.entries

/-- Writes meshes; what it does for a mesh may depend on the meshes before. -/
structure GeometryExporter where
  /-- The answer to a request after earlier requests. -/
  answer : List MeshRequest → MeshRequest → MeshAnswer

/-- Meshes are in a file of their own: nothing is written for them. -/
def GeometryExporter.external : GeometryExporter := ⟨fun _ _ => {}⟩

/-- What is exported, and how. -/
structure Job where
  /-- The scene. -/
  scene : Scene
  /-- The known plugins. -/
  catalog : Catalog
  /-- The settings. -/
  settings : Settings

/-- What the outside does during an export. -/
structure Surroundings where
  /-- Writes the meshes. -/
  geometry : GeometryExporter
  /-- The record writes, counted from zero, that the destination refuses. -/
  refuses : Nat → Bool := fun _ => false
  /-- The files that exist. -/
  fileExists : String → Bool := fun _ => false

/-- A job at one frame. -/
structure Pass extends Job, Surroundings where
  /-- The frame that literals are keyed to. -/
  frame : Int32

/-- The object that is being compiled. -/
structure ObjectScope where
  /-- The name of the object. -/
  name : String
  /-- The mesh of the object. -/
  mesh : Option String := none
  /-- The key of the object's own tree. -/
  tree : Option String := none
deriving DecidableEq

/-- What a pass has come to. -/
structure PassState where
  /-- What is compiled. -/
  ledger : Ledger := {}
  /-- The object that is being compiled. -/
  scope : Option ObjectScope := none
  /-- The token that stands for every material that allows it. -/
  overrideToken : Option String := none
  /-- What is written. -/
  sink : Sink := .records {}
  /-- The records whose writing was tried, oldest first. -/
  sent : List Record := []
  /-- The meshes that were handed out. -/
  meshes : List MeshRequest := []
  /-- What was reported. -/
  log : List LogLine := []
deriving DecidableEq

/-- The key of a tree in the ledger: an object's own tree has a key for each object. -/
def PassState.treeKey (s : PassState) (tree : String) : String :=
  match s.scope with
  | some scope => if scope.tree = some tree then tree ++ "@" ++ scope.name else tree
  | none => tree

/-- Why a step ended without a result. -/
inductive Failure
  /-- Something could not be written. -/
  | io (message : String)
  /-- A node needs itself. -/
  | cycle (tree node : String)
  /-- The walk went deeper than any walk without a ring of pass-through nodes. -/
  | depthExceeded
deriving DecidableEq

namespace Failure

/-- The destination takes no more. -/
def sinkFull : Failure := io "sink full"

/-- The wording of a failure. -/
def message : Failure → String
  | io message => "I/O error: " ++ message
  | cycle tree node => "Cycle detected at node " ++ node ++ " in tree " ++ tree
  | depthExceeded => "Recursion limit exceeded"

end Failure

/-- A step of a pass. -/
abbrev Compile := ExceptT Failure (StateM PassState)

variable {α β : Type}

/-- Runs a step on a state. -/
def Compile.runOn (c : Compile α) (s : PassState) : Except Failure α × PassState := c.run s

/-- Runs a step and gives its failure as a result. -/
def attempt (c : Compile α) : Compile (Except Failure α) := ExceptT.lift c.run

/-- Runs a step for each member of a list and gathers the results there are. -/
def collect (f : α → Compile (Option β)) : List α → Compile (List β)
  | [] => pure []
  | a :: rest => do
    let first ← f a
    let others ← collect f rest
    return first.toList ++ others

/-- Reports something. -/
def report (line : LogLine) : Compile Unit :=
  modify fun s => { s with log := s.log ++ [line] }

/-- Changes the ledger. -/
def modifyLedger (f : Ledger → Ledger) : Compile Unit :=
  modify fun s => { s with ledger := f s.ledger }

/-- Takes a free instance name derived from `base`. -/
def claimName (base : String) : Compile String :=
  modifyGet fun s => ((s.ledger.claim base).1, { s with ledger := (s.ledger.claim base).2 })

/-- Makes another object the one that is being compiled, and gives the one before. -/
def replaceScope (scope : Option ObjectScope) : Compile (Option ObjectScope) :=
  modifyGet fun s => (s.scope, { s with scope := scope })

/-- Writes an entry to the sink. -/
def writeEntry (e : Entry) : Compile Unit := do
  let s ← get
  let (sink, done) := s.sink.write e
  set { s with sink := sink }
  if done then return () else throw Failure.sinkFull

/-- Writes text that is no record. -/
def writeRemark (text : String) : Compile Unit := writeEntry (.remark text)

namespace Pass

/-- Writes a record to the sink, unless the destination refuses it. -/
def writeRecord (pass : Pass) (r : Record) : Compile Unit := do
  let s ← get
  set { s with sent := s.sent ++ [r] }
  if pass.refuses s.sent.length then throw Failure.sinkFull else writeEntry (.record r)

/-- Writes a record, counts it and gives its instance name. -/
def emit (pass : Pass) (r : Record) : Compile String := do
  pass.writeRecord r
  let s ← get
  if s.ledger.isWritten r.name then report (.writtenTwice r.name)
  modifyLedger (·.countRecord r.name)
  return r.name

/-- Writes an entry for the geometry exporter. -/
def writeOut (pass : Pass) : Entry → Compile Unit
  | .record r => pass.writeRecord r
  | .remark text => writeRemark text

/-- Hands a mesh to the geometry exporter. -/
def exportMesh (pass : Pass) (request : MeshRequest) : Compile Unit := do
  let s ← get
  set { s with meshes := s.meshes ++ [request] }
  let answer := pass.geometry.answer s.meshes request
  answer.entries.forM pass.writeOut
  match answer.failure with
  | some message => throw (.io message)
  | none => return ()

/-- A spelled value, keyed to the frame if the settings ask for it. -/
def animatedText (pass : Pass) (value : String) : String :=
  if pass.settings.animation then interpolateText pass.frame value else value

/-- A literal as the value of an attribute. -/
def literalText (pass : Pass) (value : Value) : String := pass.animatedText value.text

end Pass

end ShadeNet
