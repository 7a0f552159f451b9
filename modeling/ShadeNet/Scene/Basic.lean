/-
# Scenes

A scene names its node trees, materials, objects and groups. The key of a tree
need not be the tree's own name: materials and objects refer to keys, while
names of records come from the tree.

Key definitions: `SceneObject`, `Scene`, `Scene.materialTree?`.
-/
import ShadeNet.Scene.Tree

namespace ShadeNet

/-- A material, which may have a node tree. -/
structure Material where
  /-- The key of the material's tree. -/
  tree : Option String := none
deriving DecidableEq

/-- An object of the scene. -/
structure SceneObject where
  /-- The name of its mesh. -/
  mesh : Option String := none
  /-- The materials in its slots; a slot may be empty. -/
  slots : List (Option String) := []
  /-- The key of its node tree. -/
  tree : Option String := none
  /-- Where it stands. -/
  transform : Transform := Transform.identity
  /-- Whether it is rendered. -/
  visible : Bool := true
deriving DecidableEq

/-- A named collection of objects. -/
structure Group where
  /-- The names of the objects. -/
  objects : List String
deriving DecidableEq

/-- Everything that is exported. -/
structure Scene where
  /-- The name of the scene. -/
  name : String := "Scene"
  /-- Node trees by key. -/
  trees : OrderedMap String NodeTree := ∅
  /-- Materials by name. -/
  materials : OrderedMap String Material := ∅
  /-- Objects by name. -/
  objects : OrderedMap String SceneObject := ∅
  /-- Groups by name. -/
  groups : OrderedMap String Group := ∅
deriving DecidableEq

namespace Scene

/-- Adds a tree under its own name. -/
def addTree (s : Scene) (tree : NodeTree) : Scene :=
  { s with trees := s.trees.insert tree.name tree }

/-- Adds a material. -/
def addMaterial (s : Scene) (name : String) (material : Material) : Scene :=
  { s with materials := s.materials.insert name material }

/-- Adds an object. -/
def addObject (s : Scene) (name : String) (object : SceneObject) : Scene :=
  { s with objects := s.objects.insert name object }

/-- Adds a group. -/
def addGroup (s : Scene) (name : String) (group : Group) : Scene :=
  { s with groups := s.groups.insert name group }

/-- The tree under a key. -/
def tree? (s : Scene) (key : String) : Option NodeTree := s.trees.get? key

/-- The tree of a material, if the material exists, names one and that exists. -/
def materialTree? (s : Scene) (material : String) : Option NodeTree :=
  ((s.materials.get? material).bind (·.tree)).bind s.tree?

/-- The object of the given name. -/
def object? (s : Scene) (name : String) : Option SceneObject := s.objects.get? name

/-- The group of the given name. -/
def group? (s : Scene) (name : String) : Option Group := s.groups.get? name

end Scene

end ShadeNet
