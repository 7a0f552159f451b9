/-
# Arguments of the command

The command takes a scene file and an output file, in this order, and options,
each with a value, anywhere between them. The value of an option is the argument
after it, whatever that is. Of settings and frames the last ones count; catalogs
add up.

Key definitions: `FrameRange`, `FrameRange.ofText?`, `Arguments`, `UsageError`,
`Arguments.ofList`.
-/
import ShadeNet.Number.Numeral
import ShadeNet.Text.Spacing

namespace ShadeNet

/-! ### Frames -/

/-- A range of frames that is not empty. -/
structure FrameRange where
  /-- The first frame. -/
  first : Int32
  /-- The last frame. -/
  last : Int32
  /-- The range is not empty. -/
  first_le_last : first ≤ last
deriving DecidableEq

/-- The text before and after the first two points in a row. -/
def splitDots? : List Char → Option (List Char × List Char)
  | '.' :: '.' :: rest => some ([], rest)
  | c :: rest => (splitDots? rest).map fun (before, after) => (c :: before, after)
  | [] => none

/-- Reads one end of a range. -/
def frameOfText? (cs : List Char) : Option Int32 := int32OfNumeral? (trimSpacing cs)

/-- Reads a range: two frames with two points between them. -/
def FrameRange.ofText? (text : String) : Option FrameRange := do
  let (before, after) ← splitDots? text.toList
  let first ← frameOfText? before
  let last ← frameOfText? after
  if h : first ≤ last then some ⟨first, last, h⟩ else none

/-! ### Arguments -/

/-- The options. -/
inductive Flag
  | settings
  | catalog
  | frames
deriving DecidableEq

namespace Flag

/-- An option as it is spelled. -/
def name : Flag → String
  | settings => "--settings"
  | catalog => "--catalog"
  | frames => "--frames"

/-- The option with the given spelling. -/
def ofName? (text : String) : Option Flag := [settings, catalog, frames].find? (·.name = text)

end Flag

/-- Why arguments are refused. -/
inductive UsageError
  | valueMissing (flag : Flag)
  | framesInvalid (text : String)
  | argumentUnknown (text : String)
  | filesExpected
deriving DecidableEq

/-- How the command is to be called. -/
def usageText : String :=
  "usage: vrscene <scene.ron> <out.vrscene> [--settings <file>] [--catalog <file>] " ++
    "[--frames <start>..<end>]"

namespace UsageError

/-- The wording of the cause. -/
def cause : UsageError → String
  | valueMissing flag => "missing value for " ++ flag.name
  | framesInvalid text => "invalid frame range: " ++ text
  | argumentUnknown text => "unknown argument: " ++ text
  | filesExpected => "expected a scene file and an output file"

/-- The cause, and how the command is to be called. -/
def message (e : UsageError) : String := e.cause ++ "\n" ++ usageText

end UsageError

/-- What the command is asked to do. -/
structure Arguments where
  /-- The file of the scene. -/
  scene : String
  /-- The file that is written. -/
  output : String
  /-- The file of the settings. -/
  settings : Option String := none
  /-- The files of the catalogs that extend the builtin one. -/
  catalogs : List String := []
  /-- The frames that are written. -/
  frames : Option FrameRange := none
deriving DecidableEq

/-- The arguments read so far. -/
structure ArgumentDraft where
  /-- The arguments that belong to no option. -/
  files : List String := []
  /-- The last file of settings. -/
  settings : Option String := none
  /-- The files of catalogs. -/
  catalogs : List String := []
  /-- The last range of frames. -/
  frames : Option FrameRange := none
deriving DecidableEq

namespace ArgumentDraft

/-- Adds an option with its value. -/
def addFlag (d : ArgumentDraft) (value : String) : Flag → Except UsageError ArgumentDraft
  | .settings => .ok { d with settings := some value }
  | .catalog => .ok { d with catalogs := d.catalogs ++ [value] }
  | .frames =>
    match FrameRange.ofText? value with
    | some range => .ok { d with frames := some range }
    | none => .error (.framesInvalid value)

/-- Adds an argument that belongs to no option. -/
def addFile (d : ArgumentDraft) (argument : String) : Except UsageError ArgumentDraft :=
  match argument.toList with
  | '-' :: '-' :: _ => .error (.argumentUnknown argument)
  | _ => .ok { d with files := d.files ++ [argument] }

/-- Adds arguments from left to right, up to the first error. -/
def addAll (d : ArgumentDraft) : List String → Except UsageError ArgumentDraft
  | [] => .ok d
  | [argument] =>
    match Flag.ofName? argument with
    | some flag => .error (.valueMissing flag)
    | none => d.addFile argument
  | argument :: next :: rest =>
    match Flag.ofName? argument with
    | some flag => do
      let d ← d.addFlag next flag
      d.addAll rest
    | none => do
      let d ← d.addFile argument
      d.addAll (next :: rest)

/-- The finished arguments, if there are exactly two files. -/
def finish (d : ArgumentDraft) : Except UsageError Arguments :=
  match d.files with
  | [scene, output] => .ok ⟨scene, output, d.settings, d.catalogs, d.frames⟩
  | _ => .error .filesExpected

end ArgumentDraft

/-- Reads the arguments of the command. -/
def Arguments.ofList (arguments : List String) : Except UsageError Arguments := do
  let d ← ArgumentDraft.addAll {} arguments
  d.finish

end ShadeNet
