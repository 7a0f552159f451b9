/-
# The ledger of a pass

A pass compiles every node and every object at most once. The ledger says how far
each has come, which meshes were handed out, which instance names are taken and
which of them have a record.

A node is entered under the key of its tree, which tells the objects that share a
tree apart. While its inputs are compiled a node is marked as being resolved;
that mark is gone when it ends, with a value or without one.

Key definitions: `Resolved`, `Progress`, `Ledger`, `Ledger.claim`.
-/
import ShadeNet.OrderedMap
import ShadeNet.Scene.Value

namespace ShadeNet

/-- What a socket or a node stands for. -/
inductive Resolved
  /-- The literal of a socket that is not linked. -/
  | literal (value : Value)
  /-- The name of a record, with the selector of an output if there is one. -/
  | reference (token : String)
  /-- The records of the objects that a selector picks. -/
  | objects (tokens : List String)
deriving DecidableEq

/-- The token of a reference. -/
def Resolved.token? : Resolved → Option String
  | reference token => some token
  | _ => none

/-- How far something that is compiled once has come. -/
inductive Progress (α : Type)
  /-- Something it needs is being compiled. -/
  | resolving
  /-- It is compiled. -/
  | done (value : α)
deriving DecidableEq

namespace Progress

variable {α : Type}

/-- Whether it is compiled. -/
def isDone : Progress α → Bool
  | resolving => false
  | done _ => true

end Progress

/-- What a pass has compiled so far. -/
structure Ledger where
  /-- Nodes, by the key of their tree and their name. -/
  nodes : OrderedMap (String × String) (Progress Resolved) := ∅
  /-- Objects by name, with the token of their record if they have one. -/
  objects : OrderedMap String (Progress (Option String)) := ∅
  /-- Instance names of the meshes that were handed out. -/
  meshes : List String := []
  /-- Tokens of records that belong to no node, by the name they asked for. -/
  synthesized : OrderedMap String String := ∅
  /-- Instance names that are taken. -/
  names : List String := []
  /-- Instance names that have a record. -/
  written : List String := []
  /-- The number of records that were counted. -/
  records : Nat := 0
deriving DecidableEq

/-- A list without repetition with one more member. -/
def addMember (names : List String) (name : String) : List String :=
  if name ∈ names then names else names ++ [name]

theorem mem_addMember {names : List String} {name other : String} :
    other ∈ addMember names name ↔ other ∈ names ∨ other = name := by
  unfold addMember
  split
  · rename_i h
    exact ⟨Or.inl, fun ho => ho.elim id fun he => he ▸ h⟩
  · simp

/-- The `index`th name derived from `base`. -/
def numberedName (base : String) (index : Nat) : String := base ++ "_" ++ toString index

/-- The first name derived from `base`, from `index` on, that is not taken. Of so
many names as are taken, and one more, one is free. -/
def firstFreeName (taken : List String) (base : String) : Nat → Nat → String
  | 0, index => numberedName base index
  | more + 1, index =>
    if numberedName base index ∈ taken then firstFreeName taken base more (index + 1)
    else numberedName base index

/-- The name itself if it is free, or else the first free one derived from it. -/
def freeName (taken : List String) (base : String) : String :=
  if base ∈ taken then firstFreeName taken base taken.length 1 else base

namespace Ledger

/-- How far a node has come, if it was reached. -/
def node? (l : Ledger) (key node : String) : Option (Progress Resolved) := l.nodes.get? (key, node)

/-- Enters how far a node has come. -/
def setNode (l : Ledger) (key node : String) (progress : Progress Resolved) : Ledger :=
  { l with nodes := l.nodes.insert (key, node) progress }

/-- Forgets a node that has no value. -/
def abandonNode (l : Ledger) (key node : String) : Ledger :=
  { l with nodes := l.nodes.erase (key, node) }

/-- The number of compiled nodes. -/
def compiledNodes (l : Ledger) : Nat := l.nodes.values.countP (·.isDone)

/-- How far an object has come, if it was reached. -/
def object? (l : Ledger) (object : String) : Option (Progress (Option String)) :=
  l.objects.get? object

/-- Enters how far an object has come. -/
def setObject (l : Ledger) (object : String) (progress : Progress (Option String)) : Ledger :=
  { l with objects := l.objects.insert object progress }

/-- Forgets an object whose compilation failed. -/
def abandonObject (l : Ledger) (object : String) : Ledger :=
  { l with objects := l.objects.erase object }

/-- Whether a mesh was handed out. -/
def hasMesh (l : Ledger) (mesh : String) : Bool := l.meshes.contains mesh

/-- Enters a mesh as handed out. -/
def addMesh (l : Ledger) (mesh : String) : Ledger := { l with meshes := addMember l.meshes mesh }

/-- The token of the record that asked for the name `key`. -/
def synthesized? (l : Ledger) (key : String) : Option String := l.synthesized.get? key

/-- Enters the token of a record that asked for the name `key`. -/
def setSynthesized (l : Ledger) (key token : String) : Ledger :=
  { l with synthesized := l.synthesized.insert key token }

/-- Whether an instance name is taken. -/
def isTaken (l : Ledger) (name : String) : Bool := l.names.contains name

/-- Takes exactly this instance name. -/
def reserve (l : Ledger) (name : String) : Ledger := { l with names := addMember l.names name }

/-- Takes a free instance name derived from `base`. -/
def claim (l : Ledger) (base : String) : String × Ledger :=
  let name := freeName l.names base
  (name, l.reserve name)

/-- Whether an instance name has a record. -/
def isWritten (l : Ledger) (name : String) : Bool := l.written.contains name

/-- Counts a record, which takes its instance name. -/
def countRecord (l : Ledger) (name : String) : Ledger :=
  { l with
    names := addMember l.names name
    written := addMember l.written name
    records := l.records + 1 }

end Ledger

end ShadeNet
