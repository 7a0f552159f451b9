/-
# Paths

Paths in scene text use forward slashes. A path that starts with two slashes is
relative to the directory of the scene; that directory is found from the path of
the scene file alone.

Key definitions: `normalizePath`, `parentPath?`, `joinPath`.
-/

namespace ShadeNet

/-- A character of a path with forward slashes. -/
def slashChar (c : Char) : Char := if c = '\\' then '/' else c

/-- The characters without the slashes at their end. -/
def trimSlashes (cs : List Char) : List Char :=
  (cs.reverse.dropWhile (· = '/')).reverse

/-- A path with forward slashes, put into the base directory if it starts with
two slashes and there is a base. -/
def normalizePath (path : String) (base : Option String) : String :=
  let unified := path.toList.map slashChar
  match unified, base with
  | '/' :: '/' :: relative, some base =>
    String.ofList (trimSlashes (base.toList.map slashChar) ++ '/' :: relative)
  | _, _ => String.ofList unified

/-- Drops what names nothing at the end of a path, read from its end: slashes and
single dots. -/
def trimTail : List Char → List Char
  | '/' :: rest => trimTail rest
  | ['.'] => []
  | '.' :: '/' :: rest => trimTail rest
  | cs => cs

/-- Splits a path into its anchor, which is a root slash, a leading single dot or
nothing, and the rest. -/
def splitAnchor : List Char → List Char × List Char
  | '/' :: rest => (['/'], rest)
  | ['.'] => (['.'], [])
  | '.' :: '/' :: rest => (['.'], '/' :: rest)
  | cs => ([], cs)

/-- The directory that holds a path: the path without its last name. A root and
the empty path have none; a lone dot and a single name are held by the empty
path. -/
def parentPath? (path : String) : Option String :=
  let (anchor, rest) := splitAnchor path.toList
  match trimTail rest.reverse with
  | [] => if anchor = ['.'] then some "" else none
  | named =>
    some (String.ofList (anchor ++ (trimTail (named.dropWhile (· ≠ '/'))).reverse))

/-- A name inside a directory; the empty path is the directory one is in. -/
def joinPath (directory name : String) : String :=
  if directory.toList.getLast?.all (· = '/') then directory ++ name
  else directory ++ "/" ++ name

end ShadeNet
