/-
# Rings of ends never end

The end of a tree only hands on the value of the node behind it, and no mark is set on the
way. In a ring of ends, which may be linked like any other nodes, every end needs the
next one: whatever the bound of the walk, it is used up and nothing else happens.

Key definitions: `coil`.
Key theorems: `walk_of_relaying`, `walk_of_ring`, `writeMaterialTree_of_ring`.
-/
import ShadeNet.Proofs.Termination

namespace ShadeNet

open Compile Relation

variable {pass : Pass} {tree : NodeTree} {node source output : Node}

section Failing

variable {compile : NodeCompiler} {useLiterals : Bool} {s t : PassState} {f : Failure}

/-- A socket fails as the node does that feeds it. -/
theorem resolveSocket_error {socket : Socket} {link : Link}
    (hl : tree.linkTo? ⟨node.name, socket.name⟩ = some link)
    (hs : tree.node? link.source.node = some source)
    (hc : (compile tree source useLiterals).runOn s = (.error f, t)) :
    (resolveSocket compile tree node socket useLiterals).runOn s = (.error f, t) := by
  unfold resolveSocket
  simp only [hl, hs]
  exact runOn_bind_error hc _

theorem resolveInput_error {input : String} (h : tree.feeder? node input = some source)
    (hc : (compile tree source useLiterals).runOn s = (.error f, t)) :
    (resolveInput compile tree node input useLiterals).runOn s = (.error f, t) := by
  unfold NodeTree.feeder? at h
  obtain ⟨socket, hsocket, h⟩ := Option.bind_eq_some_iff.mp h
  obtain ⟨link, hlink, hsource⟩ := Option.bind_eq_some_iff.mp h
  unfold resolveInput
  simp only [hsocket]
  exact resolveSocket_error hlink hsource hc

/-- A node of a plugin fails as the node does that feeds its first input. -/
theorem writePluginNode_error {plugin attr : String} {desc : PluginDesc} {socket : Socket}
    {rest : List Socket} {link : Link} (hd : pass.catalog.get? plugin = some desc)
    (hi : node.inputs = socket :: rest) (ha : socket.attr = some attr)
    (hl : tree.linkTo? ⟨node.name, socket.name⟩ = some link)
    (hs : tree.node? link.source.node = some source)
    (hc : (compile tree source useLiterals).runOn s = (.error f, t)) :
    (pass.writePluginNode compile tree node plugin useLiterals).runOn s = (.error f, t) := by
  have hsupply : (supply compile tree node useLiterals socket).runOn s = (.error f, t) := by
    unfold supply
    simp only [ha]
    exact runOn_bind_error (resolveSocket_error hl hs hc) _
  unfold Pass.writePluginNode
  simp only [hd, hi]
  exact runOn_bind_error (runOn_bind_error hsupply _) _

end Failing

/-- A set of ends, each of which hands on the value of another one of the set, is compiled
without end. -/
theorem walk_of_relaying (pass : Pass) (Ring : Node → Prop)
    (hring : ∀ node, Ring node → ∃ next, tree.Relays node next ∧ Ring next) (depth : Nat) :
    ∀ node, Ring node → ∀ useLiterals s,
      (pass.walk depth tree node useLiterals).runOn s = (.error .depthExceeded, s) := by
  induction depth with
  | zero => exact fun _ _ _ _ => rfl
  | succ depth ih =>
    intro node hn useLiterals s
    obtain ⟨next, hrelays, hnext⟩ := hring node hn
    have hdeeper := ih next hnext useLiterals s
    show (pass.compileNode (pass.walk depth) tree node useLiterals).runOn s = _
    unfold Pass.compileNode
    rcases hrelays with ⟨hk, hf⟩ | ⟨hk, hf⟩ <;> cases hkind : node.kind <;> rw [hkind] at hk <;>
      first | exact resolveInput_error hf hdeeper | cases hk

/-- An end that comes back to itself is compiled without end. -/
theorem walk_of_ring (h : TransGen tree.Relays node node) (depth : Nat) (useLiterals : Bool)
    (s : PassState) :
    (pass.walk depth tree node useLiterals).runOn s = (.error .depthExceeded, s) := by
  refine walk_of_relaying pass (TransGen tree.Relays · node) (fun other hother => ?_) depth node h
    useLiterals s
  obtain ⟨next, hrelays, hpath⟩ := TransGen.head'_iff.mp hother
  rcases reflTransGen_iff_eq_or_transGen.mp hpath with rfl | hpath
  · exact ⟨node, hrelays, h⟩
  · exact ⟨next, hrelays, hpath⟩

/-- So is a material whose tree ends in such a ring. -/
theorem writeMaterialTree_of_ring (ho : tree.materialOutput? = some output)
    (hf : tree.feeder? output "Material" = some source)
    (h : TransGen tree.Relays source source) (depth : Nat) {s : PassState}
    (hs : s.overrideToken = none) :
    (writeMaterialTree (pass.walk depth) tree).runOn s = (.error .depthExceeded, s) := by
  have hinput : (resolveInput (pass.walk depth) tree output "Material" true).runOn s =
      (.error .depthExceeded, s) := resolveInput_error hf (walk_of_ring h depth true s)
  have hlinked : tree.isLinked ⟨output.name, "Material"⟩ = true := by
    unfold NodeTree.feeder? at hf
    obtain ⟨socket, hsocket, hf⟩ := Option.bind_eq_some_iff.mp hf
    obtain ⟨link, hlink, -⟩ := Option.bind_eq_some_iff.mp hf
    have hname : socket.name = "Material" := by
      simpa [Node.input?] using List.find?_some hsocket
    rw [hname] at hlink
    exact Option.isSome_iff_exists.mpr ⟨link, hlink⟩
  unfold writeMaterialTree
  simp only [ho]
  rw [runOn_bind_ok (runOn_get s)]
  simp only [hs, ite_self, hlinked, if_true]
  rw [runOn_bind_ok (runOn_attempt _ s), hinput]
  rfl

/-- Two ends of a material tree that are linked to each other, and a material behind them. -/
def coil : NodeTree :=
  .ofParts "Coil"
    [{ name := "A", kind := .materialOutput false,
        inputs := [⟨"Material", .input, .material, none, none⟩],
        outputs := [⟨"Out", .output, .material, none, none⟩] },
      { name := "B", kind := .materialOutput false,
        inputs := [⟨"Material", .input, .material, none, none⟩],
        outputs := [⟨"Out", .output, .material, none, none⟩] },
      { name := "Film", kind := .plugin .material "MtlSingleBRDF",
        inputs := [⟨"Base", .input, .material, some "brdf", none⟩],
        outputs := [⟨"Out", .output, .material, none, none⟩] }]
    [⟨⟨1⟩, ⟨"B", "Out"⟩, ⟨"A", "Material"⟩⟩, ⟨⟨2⟩, ⟨"A", "Out"⟩, ⟨"B", "Material"⟩⟩,
      ⟨⟨3⟩, ⟨"A", "Out"⟩, ⟨"Film", "Base"⟩⟩]

/-- A job with that material. -/
def coilJob : Job :=
  ⟨(({} : Scene).addTree coil).addMaterial "Coil" ⟨some "Coil"⟩, Catalog.builtin, {}⟩

end ShadeNet
