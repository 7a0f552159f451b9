/-
# Running the command

The command loads the scene, the catalogs and the settings, in this order, and
touches its output only when all are loaded. It runs on any file system: the one
of the machine, or a `Directory`.

Key definitions: `FileSystem`, `Directory.fileSystem`, `FileSystem.load`,
`FileSystem.exportJob`, `FileSystem.runCommand`.
-/
import ShadeNet.Command.Arguments
import ShadeNet.Command.Directory
import ShadeNet.Document.Scene
import ShadeNet.Document.Settings
import ShadeNet.Export
import ShadeNet.Schema.Builtin

namespace ShadeNet

/-- What the command needs from the files around it. -/
structure FileSystem (m : Type → Type) where
  /-- The text of a file that can be read. -/
  read? : String → m (Option String)
  /-- A test for entries that can be relied on for the given paths. -/
  entries : List String → m (String → Bool)
  /-- Makes a file or replaces its text, and whether that went well. -/
  write : String → String → m Bool

/-- A directory as a file system. -/
def Directory.fileSystem : FileSystem (StateM Directory) where
  read? path := return (← get).read? path
  entries _ := return (← get).hasEntry
  write path text := do
    match (← get).write? path text with
    | some d => set d; return true
    | none => return false

/-- Why the command gave up after its arguments were read. -/
inductive CommandError
  /-- A file cannot be read. -/
  | unreadable (path : String)
  /-- A file is not the document that it should be. -/
  | malformed (path : String)
  /-- The output cannot be written. -/
  | unwritable (path : String)
  /-- The export failed. -/
  | failed (cause : Failure)
deriving DecidableEq

/-- The wording of an error. -/
def CommandError.message : CommandError → String
  | unreadable path => "I/O error: cannot read " ++ path
  | malformed path => "parse error in " ++ path
  | unwritable path => "I/O error: cannot write " ++ path
  | failed cause => cause.message

/-- How the command ended. -/
inductive CommandResult
  | exported
  | refused (cause : UsageError)
  | gaveUp (cause : CommandError)
deriving DecidableEq

/-- The exit code of the command. -/
def CommandResult.exitCode : CommandResult → Nat
  | exported => 0
  | gaveUp _ => 1
  | refused _ => 2

/-- The end of the command, and what it reported on the way. -/
structure CommandOutcome where
  /-- How it ended. -/
  result : CommandResult
  /-- What was reported. -/
  log : List LogLine := []
deriving DecidableEq

/-! ### What an export asks about -/

/-- The text of a value that may be a path. -/
def Value.pathText? : Value → Option String
  | .string text | .path text => some text
  | _ => none

/-- The values that a tree holds. -/
def NodeTree.literals (tree : NodeTree) : List Value :=
  tree.nodes.values.flatMap fun node => node.params.values ++ node.sockets.filterMap (·.literal)

/-- The paths that an export may look for. -/
def Job.paths (job : Job) : List String :=
  let values := job.scene.trees.values.flatMap NodeTree.literals ++
    job.catalog.toList.flatMap fun desc => desc.params.filterMap (·.literal)
  (values.filterMap Value.pathText?).map (normalizePath · job.settings.baseDir)

/-! ### Loading -/

/-- The name of the settings file that is looked for beside a scene. -/
def settingsFileName : String := "vrscene_export.ron"

/-- The directory of the scene. -/
def Arguments.sceneDirectory (arguments : Arguments) : String :=
  (parentPath? arguments.scene).getD "."

/-- The settings file beside the scene. -/
def Arguments.neighbouringSettings (arguments : Arguments) : String :=
  joinPath arguments.sceneDirectory settingsFileName

/-- Settings whose base directory is the given one unless they have one. -/
def Settings.withBaseDir (settings : Settings) (directory : String) : Settings :=
  { settings with baseDir := some (settings.baseDir.getD directory) }

/-- The frames that are asked for, or the one of the settings. -/
def Arguments.framesOf (arguments : Arguments) (settings : Settings) : List Int32 :=
  match arguments.frames with
  | some range => frameRange range.first range.last
  | none => [settings.frame]

namespace FileSystem

variable {m : Type → Type} [Monad m] {α : Type}

/-- Loads one document. -/
def loadDocument (files : FileSystem m) (path : String) (parse? : String → Option α) :
    ExceptT CommandError m α := do
  match ← files.read? path with
  | none => throw (.unreadable path)
  | some text =>
    match parse? text with
    | none => throw (.malformed path)
    | some value => return value

/-- Loads catalogs, each over the ones before. -/
def loadCatalogs (files : FileSystem m) (catalog : Catalog) :
    List String → ExceptT CommandError m Catalog
  | [] => return catalog
  | path :: rest => do
    let next ← files.loadDocument path Catalog.ofText?
    files.loadCatalogs (catalog.extend next) rest

/-- Loads the settings that are given, or those beside the scene if there are any. -/
def loadSettings (files : FileSystem m) (arguments : Arguments) :
    ExceptT CommandError m Settings := do
  match arguments.settings with
  | some path => files.loadDocument path Settings.ofText?
  | none =>
    let path := arguments.neighbouringSettings
    let hasEntry ← files.entries [path]
    if hasEntry path then files.loadDocument path Settings.ofText? else return {}

/-- Loads all that is to be exported. -/
def load (files : FileSystem m) (arguments : Arguments) : ExceptT CommandError m Job := do
  let scene ← files.loadDocument arguments.scene Scene.ofText?
  let catalog ← files.loadCatalogs Catalog.builtin arguments.catalogs
  let settings ← files.loadSettings arguments
  return ⟨scene, catalog, settings.withBaseDir arguments.sceneDirectory⟩

/-! ### Exporting -/

/-- Exports a job to the output file, which is there and empty before the export
begins; what an export that fails has written stays. -/
def exportJob (files : FileSystem m) (arguments : Arguments) (job : Job) : m CommandOutcome := do
  let scene := job.scene
  let before := .loaded arguments.scene scene.trees.size scene.materials.size scene.objects.size ::
    job.warnings
  let giveUp (log : List LogLine) (cause : CommandError) : CommandOutcome :=
    ⟨.gaveUp cause, log ++ [.failed cause.message]⟩
  if ← files.write arguments.output "" then
    let hasEntry ← files.entries (if job.settings.checkPaths then job.paths else [])
    let (result, state) := (job.exportFrames { geometry := .external, fileExists := hasEntry }
      (arguments.framesOf job.settings)).runOn { sink := .text {} }
    let log := before ++ state.log
    if ← files.write arguments.output state.sink.writtenText then
      match result with
      | .ok _ => return ⟨.exported, log ++ [.wrote state.sink.recordCount arguments.output]⟩
      | .error cause => return giveUp log (.failed cause)
    else return giveUp log (.unwritable arguments.output)
  else return giveUp before (.unwritable arguments.output)

/-- Runs the command. -/
def runCommand (files : FileSystem m) (arguments : List String) : m CommandOutcome := do
  match Arguments.ofList arguments with
  | .error cause => return ⟨.refused cause, []⟩
  | .ok arguments =>
    match ← (files.load arguments).run with
    | .error cause => return ⟨.gaveUp cause, [.failed cause.message]⟩
    | .ok job => files.exportJob arguments job

end FileSystem

end ShadeNet
