/-
# Directories

Files as they are seen from a working directory. A path is walked from left to
right: what stands before a slash must be a directory, so a name after a slash
can only be looked up or made where the directory is already there.

Key definitions: `Location`, `Directory`, `Directory.locate?`, `Directory.read?`,
`Directory.hasEntry`, `Directory.write?`.
-/
import ShadeNet.OrderedMap

namespace ShadeNet

/-- Where names are counted from. -/
inductive Anchor
  | root
  /-- So many levels above the working directory. -/
  | above (levels : Nat)
deriving DecidableEq

/-- A place for a file or a directory. -/
structure Location where
  /-- The directory that the names start in. -/
  anchor : Anchor := .above 0
  /-- The names on the way, the last one first. -/
  names : List String := []
deriving DecidableEq

namespace Location

/-- The directory that holds a place; the root holds itself. -/
def parent (l : Location) : Location :=
  match l.names, l.anchor with
  | _ :: outer, anchor => ⟨anchor, outer⟩
  | [], .root => l
  | [], .above levels => ⟨.above (levels + 1), []⟩

/-- The place that one name leads to. An empty name and a dot lead nowhere else,
two dots lead outwards. -/
def enter (l : Location) (name : String) : Location :=
  if name = "" ∨ name = "." then l
  else if name = ".." then l.parent
  else { l with names := name :: l.names }

/-- The places on the way along some names, without the last one. -/
def through : Location → List String → List Location
  | l, name :: more :: names => l.enter name :: through (l.enter name) (more :: names)
  | _, _ => []

/-- Whether a place lies somewhere inside a directory. -/
def isInside (l directory : Location) : Bool :=
  l.anchor = directory.anchor && directory.names != l.names && directory.names.isSuffixOf l.names

end Location

/-- The names between the slashes of a path. -/
def pathNames : List Char → List (List Char)
  | [] => [[]]
  | '/' :: rest => [] :: pathNames rest
  | c :: rest =>
    match pathNames rest with
    | name :: names => (c :: name) :: names
    | [] => [[c]]

/-- The place that a path starts from. -/
def pathAnchor (path : String) : Location :=
  match path.toList with
  | '/' :: _ => ⟨.root, []⟩
  | _ => {}

/-- The place of a path whose directories are all there. -/
def Location.ofPath (path : String) : Location :=
  ((pathNames path.toList).map String.ofList).foldl enter (pathAnchor path)

/-- The files around a working directory. -/
structure Directory where
  /-- The texts of the files. -/
  files : OrderedMap Location String := ∅
  /-- Directories that need not hold a file. -/
  folders : List Location := []
deriving DecidableEq

namespace Directory

/-- The directory with the given files and folders and all directories on the way
to the files, also those that the way leads out of again. -/
def ofFiles (files : List (String × String)) (folders : List String := []) : Directory where
  files := OrderedMap.ofList (files.map fun (path, text) => (Location.ofPath path, text))
  folders := folders.map Location.ofPath ++ files.flatMap fun (path, _) =>
    (pathAnchor path).through ((pathNames path.toList).map String.ofList)

/-- Whether there is a directory at a place. -/
def isFolder (d : Directory) (l : Location) : Bool :=
  l.names.isEmpty || d.folders.contains l || (d.folders ++ d.files.keys).any (·.isInside l)

/-- Walks one name. It has at most 255 bytes and can only be walked in a directory. -/
def walk? (d : Directory) (l : Location) (name : String) : Option Location :=
  if d.isFolder l ∧ name.utf8ByteSize ≤ 255 then some (l.enter name) else none

/-- The place that a path leads to. The empty path leads nowhere, and so does one
of 4096 bytes or more. -/
def locate? (d : Directory) (path : String) : Option Location :=
  if path = "" ∨ 4096 ≤ path.utf8ByteSize then none
  else ((pathNames path.toList).map String.ofList).foldlM d.walk? (pathAnchor path)

/-- The text of a file. -/
def read? (d : Directory) (path : String) : Option String :=
  (d.locate? path).bind d.files.get?

/-- Whether a path leads to a file or to a directory. -/
def hasEntry (d : Directory) (path : String) : Bool :=
  (d.locate? path).any fun l => d.files.contains l || d.isFolder l

/-- Writes a file, which is new or takes the place of the one before; a directory
cannot be written. -/
def write? (d : Directory) (path text : String) : Option Directory :=
  match d.locate? path with
  | none => none
  | some l => if d.isFolder l then none else some { d with files := d.files.insert l text }

end Directory

end ShadeNet
