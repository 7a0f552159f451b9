/-
# Checking trees against a catalog

A check lists everything in a tree that the catalog or the tree itself does not
know: links that end nowhere, sockets on the wrong side, plugins, parameters and
types. Nothing found here stops an export.

Key definitions: `SchemaError`, `Catalog.checkNode`, `NodeTree.check`.
-/
import ShadeNet.Scene.Tree
import ShadeNet.Schema.Catalog

namespace ShadeNet

/-- Something in a tree that does not fit. -/
inductive SchemaError
  | unknownPlugin (node plugin : String)
  | unknownParam (node plugin attr : String)
  | typeMismatch (node attr : String) (expected : ParamType) (found : SocketType)
  | danglingLink (tree : String) (source target : Endpoint)
  | misplacedSocket (node : String)
deriving DecidableEq

/-- The wording of what does not fit. -/
def SchemaError.message : SchemaError → String
  | unknownPlugin node plugin => "Node " ++ node ++ ": unknown plugin type " ++ plugin
  | unknownParam node plugin attr => "Node " ++ node ++ ": " ++ plugin ++ " has no parameter " ++ attr
  | typeMismatch node attr expected found =>
    "Node " ++ node ++ ": " ++ attr ++ " expects " ++ expected.name ++ ", found " ++ found.name
  | danglingLink tree source target =>
    "Tree " ++ tree ++ ": dangling link " ++ source.text ++ " -> " ++ target.text
  | misplacedSocket node => "Node " ++ node ++ ": socket listed with the wrong direction"

namespace Catalog

/-- What is wrong with one parameter of a node of plugin `desc`. -/
def checkParam (node plugin : String) (desc : PluginDesc) (attr : String) (value : Value) :
    Option SchemaError :=
  match desc.param? attr with
  | none => some (.unknownParam node plugin attr)
  | some param =>
    if param.type.accepts value.type then none
    else some (.typeMismatch node attr param.type value.type)

/-- What is wrong with the attribute of an input socket of a node of plugin `desc`. -/
def checkInput (node plugin : String) (desc : PluginDesc) (socket : Socket) : Option SchemaError :=
  match socket.attr with
  | none => none
  | some attr => if (desc.param? attr).isSome then none else some (.unknownParam node plugin attr)

/-- What is wrong with a node: its plugin, or its parameters and then its inputs. -/
def checkNode (c : Catalog) (node : Node) : List SchemaError :=
  match node.kind with
  | .plugin _ plugin =>
    match c.get? plugin with
    | none => [.unknownPlugin node.name plugin]
    | some desc =>
      node.params.entries.filterMap (fun e => checkParam node.name plugin desc e.1 e.2) ++
        node.inputs.filterMap (checkInput node.name plugin desc)
  | _ => []

end Catalog

namespace NodeTree

/-- Whether an end of a link is missing. -/
def dangles (t : NodeTree) (l : Link) : Bool :=
  (t.outputAt? l.source).isNone || (t.inputAt? l.target).isNone

/-- What is wrong with a tree: its links, and then its nodes one after another. -/
def check (t : NodeTree) (c : Catalog) : List SchemaError :=
  (t.links.filter t.dangles).map (fun l => .danglingLink t.name l.source l.target) ++
    t.nodes.values.flatMap fun n =>
      (if n.misplacesSocket then [.misplacedSocket n.name] else []) ++ c.checkNode n

end NodeTree

end ShadeNet
