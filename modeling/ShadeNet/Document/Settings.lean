/-
# Settings as a document

Every field of the settings may be left out and then has its default.

Key definitions: `Settings.shape`, `Settings.toData`, `Settings.ofData?`,
`Settings.write`, `Settings.read?`.
-/
import ShadeNet.Document.Ron
import ShadeNet.Settings

namespace ShadeNet

open Document

namespace Settings

/-- The shape of settings. -/
def shape : Shape := .struct "ExportSettings" [
  ("frame_current", .int),
  ("animation", .bool),
  ("auto_meshes", .bool),
  ("material_override", .option .text),
  ("check_paths", .bool),
  ("base_dir", .option .text)]

/-- The data of settings. -/
def toData (s : Settings) : Data := .struct "ExportSettings" [
  ("frame_current", .int s.frame),
  ("animation", .bool s.animation),
  ("auto_meshes", .bool s.autoMeshes),
  ("material_override", .ofOption .text s.overrideMaterial),
  ("check_paths", .bool s.checkPaths),
  ("base_dir", .ofOption .text s.baseDir)]

/-- Settings made of data. -/
def ofData? (data : Data) : Option Settings := do
  let fields ← data.fields?
  let absent : Settings := {}
  let frame ← fields.getOr "frame_current" absent.frame Data.int?
  let animation ← fields.getOr "animation" absent.animation Data.bool?
  let autoMeshes ← fields.getOr "auto_meshes" absent.autoMeshes Data.bool?
  let overrideMaterial ←
    fields.getOr "material_override" absent.overrideMaterial (Data.option? Data.text?)
  let checkPaths ← fields.getOr "check_paths" absent.checkPaths Data.bool?
  let baseDir ← fields.getOr "base_dir" absent.baseDir (Data.option? Data.text?)
  some ⟨frame, animation, autoMeshes, overrideMaterial, checkPaths, baseDir⟩

/-- The document that settings are saved as. -/
def write (ron : Ron) (s : Settings) : String := ron.write true s.toData

/-- The settings of a document. -/
def read? (ron : Ron) (document : String) : Option Settings :=
  (ron.read? shape document).bind ofData?

/-- The document of settings in the format that is used here. -/
def text (s : Settings) : String := s.write ron

/-- The settings of a document in the format that is used here. -/
def ofText? (document : String) : Option Settings := read? ron document

end Settings

end ShadeNet
