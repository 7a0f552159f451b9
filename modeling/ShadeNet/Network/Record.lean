/-
# Records

A compiled network is a list of records. A record is one instance of a plugin
with its attributes, and its text is a block of assignments.

Key definitions: `Record`, `Record.text`.
-/
import ShadeNet.Scene.Node

namespace ShadeNet

/-- One instance of a plugin. -/
structure Record where
  /-- The plugin. -/
  plugin : String
  /-- The name of the instance. -/
  name : String
  /-- The family of the plugin. -/
  category : Category
  /-- Attributes and their spelled values, in the order of writing. -/
  attrs : List (String × String) := []
deriving DecidableEq

namespace Record

/-- The value of the first attribute of the given name. -/
def attr? (r : Record) (attr : String) : Option String :=
  (r.attrs.find? (·.1 = attr)).map Prod.snd

/-- One assignment. -/
def assignmentText (attr : String × String) : String := "\n\t" ++ attr.1 ++ "=" ++ attr.2 ++ ";"

/-- A record as it stands in a file, with an empty line in front. -/
def text (r : Record) : String :=
  "\n" ++ r.plugin ++ " " ++ r.name ++ " \x7b" ++ String.join (r.attrs.map assignmentText) ++
    "\n\x7d\n"

end Record

end ShadeNet
