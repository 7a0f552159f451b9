/-
# Settings of an export

Key definitions: `Settings`.
-/

namespace ShadeNet

/-- What an export is told apart from the scene. -/
structure Settings where
  /-- The frame that is written when no frame is asked for. -/
  frame : Int32 := 1
  /-- Whether literals are keyed to their frame. -/
  animation : Bool := false
  /-- Whether meshes are handed to the geometry exporter. -/
  autoMeshes : Bool := true
  /-- The material that stands for every material that allows it. -/
  overrideMaterial : Option String := none
  /-- Whether the attribute of a file that does not exist is left out. -/
  checkPaths : Bool := false
  /-- The directory of paths that start with two slashes. -/
  baseDir : Option String := none
deriving DecidableEq

end ShadeNet
