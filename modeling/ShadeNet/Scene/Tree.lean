/-
# Node trees

A tree holds nodes by name and links from output sockets to input sockets.
Editing keeps links on existing sockets and at most one link on each input; a
tree that comes from a document may break both rules, and everything that reads
a tree takes it as it is.

Key definitions: `NodeTree`, `NodeTree.addNode`, `NodeTree.removeNode`,
`NodeTree.connect`, `NodeTree.disconnect`, `NodeTree.linkTo?`,
`NodeTree.linkedSource?`.
-/
import ShadeNet.Scene.Node

namespace ShadeNet

/-- The identity of a link, which lasts while its ends are renamed. -/
structure LinkId where
  /-- The 128 bits of the identity. -/
  bits : BitVec 128
deriving DecidableEq

/-- A socket of a node, both by name. -/
structure Endpoint where
  /-- The name of the node. -/
  node : String
  /-- The name of the socket. -/
  socket : String
deriving DecidableEq

/-- An endpoint as messages show it. -/
def Endpoint.text (e : Endpoint) : String := e.node ++ "." ++ e.socket

/-- A link from an output socket to an input socket. -/
structure Link where
  /-- The identity of the link. -/
  id : LinkId
  /-- The output socket it starts at. -/
  source : Endpoint
  /-- The input socket it ends at. -/
  target : Endpoint
deriving DecidableEq

/-- Whether a link starts or ends at a node. -/
def Link.involves (l : Link) (node : String) : Bool :=
  l.source.node == node || l.target.node == node

/-- A tree of nodes joined by links. -/
structure NodeTree where
  /-- The name of the tree. -/
  name : String := "Untitled"
  /-- The nodes by name. -/
  nodes : OrderedMap String Node := ∅
  /-- The links, oldest first. -/
  links : List Link := []
deriving DecidableEq

/-- Why two sockets could not be joined. -/
inductive ConnectionError
  | nodeNotFound (node : String)
  | socketNotFound (socket : Endpoint)
  | incompatible
  | alreadyConnected (socket : Endpoint)
  | selfLoop
deriving DecidableEq

/-- The wording of a refused connection. -/
def ConnectionError.message : ConnectionError → String
  | nodeNotFound node => "Node not found: " ++ node
  | socketNotFound socket => "Socket not found: " ++ socket.text
  | incompatible => "Incompatible socket types"
  | alreadyConnected socket => "Socket already connected: " ++ socket.text
  | selfLoop => "Self-loop not allowed"

namespace NodeTree

/-- The node of the given name. -/
def node? (t : NodeTree) (name : String) : Option Node := t.nodes.get? name

/-- The output socket at an endpoint. -/
def outputAt? (t : NodeTree) (e : Endpoint) : Option Socket :=
  (t.node? e.node).bind (·.output? e.socket)

/-- The input socket at an endpoint. -/
def inputAt? (t : NodeTree) (e : Endpoint) : Option Socket :=
  (t.node? e.node).bind (·.input? e.socket)

/-- Puts a node under its own name, in place of one that has the name already. -/
def addNode (t : NodeTree) (node : Node) : NodeTree :=
  { t with nodes := t.nodes.insert node.name node }

/-- The tree with the given nodes, each added in turn, and the links as they are. -/
def ofParts (name : String) (nodes : List Node) (links : List Link) : NodeTree :=
  ⟨name, OrderedMap.ofList (nodes.map fun n => (n.name, n)), links⟩

/-- Removes a node together with the links at it. -/
def removeNode (t : NodeTree) (name : String) : NodeTree :=
  { t with nodes := t.nodes.erase name, links := t.links.filter (fun l => !l.involves name) }

/-- The first link that ends at an input socket. -/
def linkTo? (t : NodeTree) (target : Endpoint) : Option Link :=
  t.links.find? (·.target = target)

/-- Whether a link ends at an input socket. -/
def isLinked (t : NodeTree) (target : Endpoint) : Bool := (t.linkTo? target).isSome

/-- The node and output socket that feed an input socket, if both exist. -/
def linkedSource? (t : NodeTree) (target : Endpoint) : Option (Node × Socket) := do
  let link ← t.linkTo? target
  let source ← t.node? link.source.node
  let socket ← source.output? link.source.socket
  some (source, socket)

/-- Looks a node up for a new connection. -/
def requireNode (t : NodeTree) (name : String) : Except ConnectionError Node :=
  match t.node? name with
  | some n => .ok n
  | none => .error (.nodeNotFound name)

/-- Joins an output socket to an input socket by a link of identity `id`. -/
def connect (t : NodeTree) (id : LinkId) (source target : Endpoint) :
    Except ConnectionError NodeTree := do
  let sourceNode ← t.requireNode source.node
  let targetNode ← t.requireNode target.node
  match sourceNode.output? source.socket, targetNode.input? target.socket with
  | none, _ => .error (.socketNotFound source)
  | _, none => .error (.socketNotFound target)
  | some output, some input =>
    if !output.joins input then .error .incompatible
    else if t.isLinked target then .error (.alreadyConnected target)
    else if source.node = target.node then .error .selfLoop
    else .ok { t with links := t.links ++ [⟨id, source, target⟩] }

/-- The link of the given identity. -/
def link? (t : NodeTree) (id : LinkId) : Option Link := t.links.find? (·.id = id)

/-- Removes the link of the given identity, if there is one. -/
def disconnect (t : NodeTree) (id : LinkId) : NodeTree :=
  { t with links := t.links.eraseP (·.id = id) }

/-- The nodes whose kind passes a test, in the order of the tree. -/
def nodesWhere (t : NodeTree) (test : NodeKind → Bool) : List Node :=
  t.nodes.values.filter (fun n => test n.kind)

/-- The first node that ends a material tree. -/
def materialOutput? (t : NodeTree) : Option Node :=
  t.nodes.values.find? (·.kind.isMaterialOutput)

/-- The first node that ends an object tree. -/
def objectOutput? (t : NodeTree) : Option Node :=
  t.nodes.values.find? (·.kind.isObjectOutput)

end NodeTree

end ShadeNet
