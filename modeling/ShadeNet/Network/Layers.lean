/-
# Layered textures and shading models

A layered node is one record with lists that run side by side: layers and their
weights. A layer that has no record is left out of both.

Key definitions: `layerWeight`, `Pass.writeLayeredTexture`, `Pass.writeLayeredBrdf`.
-/
import ShadeNet.Network.Input

namespace ShadeNet

/-- The weight on a socket: the number of its literal, or one. -/
def layerWeight (socket : Option Socket) : Single :=
  ((socket.bind (·.literal)).bind (·.scalar?)).getD Single.one

/-- A layer of a texture: the token of the linked input, and its weight as text. -/
def textureLayer (compile : NodeCompiler) (tree : NodeTree) (node : Node) (socket : Socket) :
    Compile (Option (String × String)) :=
  if tree.isLinked ⟨node.name, socket.name⟩ then do
    let value ← resolveSocket compile tree node socket true
    match value.bind (·.token?) with
    | some token => return some (token, numberText (layerWeight (some socket)))
    | none => do
      report (.textureLayerEmpty tree.name socket.name node.name)
      return none
  else return none

namespace Pass

/-- The record of a layered texture. It lists layers from the last to the first. -/
def layeredTextureRecord (pass : Pass) (name : String) (layers : List (String × String)) :
    Record where
  plugin := "TexLayered"
  name := name
  category := .texture
  attrs := [
    ("textures", listText .references (layers.reverse.map Prod.fst)),
    ("weights", pass.animatedText (listText .floats (layers.reverse.map Prod.snd)))]

/-- Compiles a layered texture. -/
def writeLayeredTexture (pass : Pass) (compile : NodeCompiler) (tree : NodeTree) (node : Node) :
    Compile (Option Resolved) := do
  let layers ← collect (textureLayer compile tree node) node.inputs
  if layers.isEmpty then
    report (.textureWithoutLayers tree.name node.name)
    return none
  else
    let name ← claimName (nodeName tree.name node.name)
    let token ← pass.emit (pass.layeredTextureRecord name layers)
    return some (.reference token)

/-- The record of a constant texture that holds a weight. -/
def weightRecord (pass : Pass) (name : String) (weight : Single) : Record where
  plugin := "TexAColor"
  name := name
  category := .texture
  attrs := [("texture", pass.literalText (.aColor ⟨weight, weight, weight⟩ Single.one))]

/-- Writes a constant texture that holds a weight. -/
def writeWeight (pass : Pass) (base brdf : String) (layer : Nat) (weight : Single) :
    Compile String := do
  let name ← claimName (sanitize (base ++ "W" ++ brdf ++ "I" ++ toString layer))
  pass.emit (pass.weightRecord name weight)

/-- The token of a linked weight; what feeds it is compiled without literals. -/
def linkedWeight (compile : NodeCompiler) (tree : NodeTree) (node : Node) (socket : String) :
    Compile (Option String) :=
  match tree.linkedSource? ⟨node.name, socket⟩ with
  | some (source, _) => do
    let value ← compile tree source false
    return value.bind (·.token?)
  | none => return none

/-- A layer of a shading model: the tokens of the model and of its weight. -/
def brdfLayer (pass : Pass) (compile : NodeCompiler) (tree : NodeTree) (node : Node)
    (layer : Nat) : Compile (Option (String × String)) := do
  let brdfSocket := "BRDF " ++ toString layer
  let weightSocket := "Weight " ++ toString layer
  match node.input? brdfSocket with
  | none => return none
  | some socket =>
    if tree.isLinked ⟨node.name, socket.name⟩ then
      let value ← resolveSocket compile tree node socket true
      match value.bind (·.token?) with
      | none => do
        report (.brdfLayerEmpty tree.name brdfSocket node.name)
        return none
      | some brdf => do
        match ← linkedWeight compile tree node weightSocket with
        | some weight => return some (brdf, weight)
        | none => do
          let base := nodeName tree.name node.name
          let weight ← pass.writeWeight base brdf layer (layerWeight (node.input? weightSocket))
          return some (brdf, weight)
    else return none

/-- The record of a layered shading model. -/
def layeredBrdfRecord (pass : Pass) (name : String) (layers : List (String × String))
    (additive : Bool) : Record where
  plugin := "BRDFLayered"
  name := name
  category := .brdf
  attrs := [
    ("brdfs", listText .references (layers.map Prod.fst)),
    ("weights", listText .references (layers.map Prod.snd)),
    ("additive_mode", pass.literalText (.bool additive))]

/-- Compiles a layered shading model from its pairs of sockets, of which there are
half as many as inputs. -/
def writeLayeredBrdf (pass : Pass) (compile : NodeCompiler) (tree : NodeTree) (node : Node)
    (additive : Bool) : Compile (Option Resolved) := do
  let layers ← collect (pass.brdfLayer compile tree node)
    (List.range' 1 (node.inputs.length / 2))
  if layers.isEmpty then
    report (.brdfWithoutLayers tree.name node.name)
    return none
  else
    let name ← claimName (nodeName tree.name node.name)
    let token ← pass.emit (pass.layeredBrdfRecord name layers additive)
    return some (.reference token)

end Pass

end ShadeNet
