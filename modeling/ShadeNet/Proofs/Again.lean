/-
# Doing a thing again at once

A node that gave a value gives it again, and a material tree that came to a material comes to
it again, and all that happens is that reports are repeated. Where a node gave nothing, and
where a tree came to the default material because it gave nothing or needs itself, nothing is
entered, and all is done again: then the second time is like the first only if what gave
nothing still gives nothing, and if no shading model on the way to a cycle wrote a weight.

Key theorems: `node_resolved_again`, `material_compiled_again`.
-/
import ShadeNet.Proofs.Retrace

namespace ShadeNet

open Compile

variable {pass : Pass} {s t f : PassState}

/-- **A node that is resolved again at once gives what it gave.** Nothing is written, handed
out, named, entered or counted. If it gave a value, this is so in any case; if it gave nothing,
it is so unless a node that gave nothing on the way has got a value in the meantime. -/
theorem node_resolved_again (pass : Pass) (depth : Nat) (tree : NodeTree) (node : Node)
    (useLiterals : Bool) (s t : PassState) (value : Option Resolved)
    (hrun : (pass.walk depth tree node useLiterals).runOn s = (.ok value, t))
    (hstill : value = none →
      pass.StillNothing (pass.nodeTrace depth tree node useLiterals s) t) :
    ∃ lines, (pass.walk depth tree node useLiterals).runOn t = (.ok value, t.notes lines) := by
  cases value with
  | some value => exact recalls_walk pass depth tree node useLiterals s t t _ hrun rfl (.refl _ t)
  | none =>
    have hretraces := retraces_walk False (hstill rfl) False.elim depth tree node
      useLiterals
    exact hretraces.redoes s t t none hrun trivial (.refl _ t)
      (.start (hretraces.lasting.frame hrun)) (List.Subset.refl _)

/-- A blend of textures. -/
def blendNode (name : String) (layers : List String) : Node where
  name := name
  kind := .layeredTexture
  inputs := layers.map fun layer => ⟨layer, .input, .texture, none, none⟩

/-- A layered texture of the shape of the object in scope, which ends the tree, and a blend of it
with a cube. -/
def hazeTree : NodeTree :=
  .ofParts "Haze"
    [{ name := "End", kind := .materialOutput false,
        inputs := [⟨"Material", .input, .material, none, none⟩] },
      blendNode "Blend" ["A", "B"], blendNode "Layers" ["A"],
      { name := "Shape", kind := .objectGeometry },
      { name := "Pick", kind := .selectObject (some "Cube") }]
    [⟨⟨1⟩, ⟨"Layers", "Out"⟩, ⟨"End", "Material"⟩⟩, ⟨⟨2⟩, ⟨"Layers", "Out"⟩, ⟨"Blend", "A"⟩⟩,
      ⟨⟨3⟩, ⟨"Pick", "Out"⟩, ⟨"Blend", "B"⟩⟩, ⟨⟨4⟩, ⟨"Shape", "Out"⟩, ⟨"Layers", "A"⟩⟩]

/-- The pass over the cube with that tree as its material. -/
def hazePass : Pass :=
  ⟨⟨((({} : Scene).addTree hazeTree).addMaterial "Haze" ⟨some "Haze"⟩).addObject "Cube"
    { mesh := some "Cube", slots := [some "Haze"] }, Catalog.builtin, {}⟩,
    { geometry := .external }, 1⟩

/-- Outside objects there is no shape, so the layers give nothing, then and again. -/
theorem node_resolved_again_layers :
    let layers := hazePass.compiler hazeTree (blendNode "Layers" ["A"]) true
    let t := (layers.runOn {}).2
    layers.runOn {} = (.ok none, t) ∧
    hazePass.StillNothing (hazePass.nodeTrace hazePass.scene.walkDepth hazeTree
      (blendNode "Layers" ["A"]) true {}) t ∧
    ∃ lines, layers.runOn t = (.ok none, t.notes lines) := by
  intro layers t
  have hnone : (layers.runOn {}).1 = .ok none := by decide +kernel
  have hempty : t.ledger.nodes = ∅ := by decide +kernel
  have hstill : hazePass.StillNothing (hazePass.nodeTrace hazePass.scene.walkDepth hazeTree
      (blendNode "Layers" ["A"]) true {}) t := by
    intro v _ tree node _ _ _ _ value hdone
    rw [Ledger.node?, hempty] at hdone
    cases hdone
  have hrun := runOn_of_ok hnone
  exact ⟨hrun, hstill,
    node_resolved_again hazePass _ hazeTree _ true {} t none hrun fun _ => hstill⟩

/-- The blend gives nothing at first. Picking the cube compiles the layers with its shape, so
that the blend gives a record when it is resolved again. -/
theorem blend_resolved_otherwise :
    let blend := hazePass.compiler hazeTree (blendNode "Blend" ["A", "B"]) true
    let t := (blend.runOn {}).2
    (blend.runOn {}).1 = .ok none ∧
    (blend.runOn t).1 = .ok (some (.reference "NTHazeNBlend")) ∧
    t.sent.length = 2 ∧ (blend.runOn t).2.sent.length = 3 ∧
    t.ledger.compiledNodes = 1 ∧ (blend.runOn t).2.ledger.compiledNodes = 2 := by
  decide +kernel

/-! ### Materials -/

/-- The material of a tree is what it is on any state. -/
theorem recalls_materialToken (tree : NodeTree) (r : Except Failure (Option Resolved)) :
    pass.Recalls (fun _ => True) (materialToken tree r) := by
  unfold materialToken
  split
  · exact recalls_pure _ _
  · exact recalls_report_pure _ _ _
  · exact recalls_report_pure _ _ _
  · rintro s t f token hrun
    cases hrun

/-- The end of a material tree gave a value, or the material is the default. -/
theorem materialToken_ok {tree : NodeTree} {r : Except Failure (Option Resolved)} {token : String}
    (h : (materialToken tree r).runOn s = (.ok token, t)) :
    s.Alike t ∧ ((∃ value, r = .ok (some value)) ∨
      token = defaultMaterial ∧ (r = .ok none ∨ ∃ e, r = .error e ∧ e.isCycle = true)) := by
  rcases r with e | _ | value
  · cases e with
    | cycle name node =>
      cases h
      exact ⟨alike_note s _, Or.inr ⟨rfl, Or.inr ⟨_, rfl, rfl⟩⟩⟩
    | io | depthExceeded => cases h
  · cases h
    exact ⟨alike_note s _, Or.inr ⟨rfl, Or.inl rfl⟩⟩
  · refine ⟨?_, Or.inl ⟨value, rfl⟩⟩
    cases value <;> cases h
    · exact alike_note s _
    · exact .refl s
    · exact alike_note s _

theorem PassState.Alike.nothingSince (h : s.Alike t) : s.NothingSince t :=
  fun key name _ hn => (h.node? key name).symm.trans hn

/-- The material at a linked end comes out again. A value at the end is recalled; a default
material is what comes of an end that gives nothing, or fails with a cycle, again. -/
theorem repeats_materialEnd {depth : Nat} {tree : NodeTree} {output : Node} {token : String}
    (hframe : s.Frame t)
    (hrun : (attempt (resolveInput (pass.walk depth) tree output "Material" true) >>=
      materialToken tree).runOn s = (.ok token, t))
    (hstill : token = defaultMaterial → pass.StillNothing
      (inputTrace (pass.nodeTrace depth) tree output "Material" true s) t)
    (hweights : token = defaultMaterial → pass.WeightsKept
      (inputTrace (pass.nodeTrace depth) tree output "Material" true s) t) :
    (attempt (resolveInput (pass.walk depth) tree output "Material" true) >>=
      materialToken tree).Repeats (.ok token) t := by
  rcases hc : (resolveInput (pass.walk depth) tree output "Material" true).runOn s with ⟨r, u⟩
  rw [runOn_bind_ok (runOn_attempt _ s), hc] at hrun
  obtain ⟨halike, hcases⟩ := materialToken_ok hrun
  have hlasts : u.Lasts pass.scene t := .of_alike halike
  have hself : t.Lasts pass.scene t := .refl _ t
  refine Repeats.attempt (r := r) ?_ fun lines =>
    recalls_materialToken tree r u t _ token hrun trivial (hself.notes lines)
  rcases hcases with ⟨value, rfl⟩ | ⟨hdefault, hcases⟩
  · exact recalls_resolveInput (recalls_walk pass depth) tree output _ _ s u t _ hc rfl hlasts
  · have hretraces := retraces_resolveInput tree output
      (retraces_walk True (hstill hdefault) (fun _ => hweights hdefault) depth) "Material" true
    rcases hcases with rfl | ⟨e, rfl, hcycle⟩
    · exact hretraces.redoes s u t none hc trivial hlasts (.start hframe) (List.Subset.refl _)
    · exact hretraces.refails trivial s u t e hc hcycle hlasts halike.nothingSince
        (.start hframe) (List.Subset.refl _)

/-- **A material tree that is compiled again at once comes to the same material.** Nothing is
written, handed out, named, entered or counted. If it came to another material than the default,
this is so in any case; otherwise it is so unless a node that gave nothing on the way has got a
value in the meantime, or a layered shading model on the way to a cycle has written a weight. -/
theorem material_compiled_again (pass : Pass) (depth : Nat) (tree : NodeTree) (s t : PassState)
    (token : String) (hrun : (writeMaterialTree (pass.walk depth) tree).runOn s = (.ok token, t))
    (hstill : token = defaultMaterial →
      pass.StillNothing (materialTrace (pass.nodeTrace depth) tree s) t)
    (hweights : token = defaultMaterial →
      pass.WeightsKept (materialTrace (pass.nodeTrace depth) tree s) t) :
    ∃ lines, (writeMaterialTree (pass.walk depth) tree).runOn t = (.ok token, t.notes lines) := by
  have hframe : s.Frame t := by
    have h := (lastingComparison pass).rel_writeMaterialTree depth tree s
    rw [hrun] at h
    exact h.1
  have hlasts : t.Lasts pass.scene t := .refl _ t
  unfold writeMaterialTree at hrun ⊢
  unfold materialTrace at hstill hweights
  cases hout : tree.materialOutput? with
  | none =>
    rw [hout] at hrun
    exact recalls_report_pure (fun _ => True) _ _ s t t token hrun trivial hlasts
  | some output =>
    rw [hout] at hrun hstill hweights
    simp only at hrun hstill hweights ⊢
    rw [runOn_bind_ok (runOn_get s)] at hrun
    rw [runOn_bind_ok (runOn_get t), hframe.overrideToken]
    cases hover : (if output.kind = .materialOutput true then none else s.overrideToken) with
    | some chosen =>
      rw [hover] at hrun
      exact recalls_pure (fun _ => True) _ s t t token hrun trivial hlasts
    | none =>
      rw [hover] at hrun hstill hweights
      simp only at hrun hstill hweights ⊢
      split
      · rename_i hlinked
        rw [if_pos hlinked] at hrun hstill hweights
        exact repeats_materialEnd hframe hrun hstill hweights
      · rename_i hlinked
        rw [if_neg hlinked] at hrun
        exact recalls_report_pure (fun _ => True) _ _ s t t token hrun trivial hlasts

/-- A blend of two shading models. -/
def mixtureNode : Node where
  name := "Mix"
  kind := .layeredBrdf false
  inputs := [⟨"BRDF 1", .input, .brdf, none, none⟩, ⟨"Weight 1", .input, .floatTexture, none, none⟩,
    ⟨"BRDF 2", .input, .brdf, none, none⟩, ⟨"Weight 2", .input, .floatTexture, none, none⟩]

/-- A grey that serves as a weight. -/
def greyNode : Node where
  name := "Grey"
  kind := .plugin .texture "TexAColor"
  outputs := [⟨"Out", .output, .floatTexture, none, none⟩]

/-- The second of the shading models that this tree blends is a coat over the blend itself. -/
def ringTree (weights : List Link) : NodeTree :=
  .ofParts "Ring"
    [{ name := "End", kind := .materialOutput false,
        inputs := [⟨"Material", .input, .material, none, none⟩] },
      mixtureNode, greyNode, { name := "Base", kind := .plugin .brdf "BRDFDiffuse" },
      { name := "Coat", kind := .plugin .material "MtlSingleBRDF",
        inputs := [⟨"Base", .input, .brdf, some "brdf", none⟩] }]
    ([⟨⟨1⟩, ⟨"Mix", "Out"⟩, ⟨"End", "Material"⟩⟩, ⟨⟨2⟩, ⟨"Base", "Out"⟩, ⟨"Mix", "BRDF 1"⟩⟩,
      ⟨⟨3⟩, ⟨"Coat", "Out"⟩, ⟨"Mix", "BRDF 2"⟩⟩, ⟨⟨4⟩, ⟨"Mix", "Out"⟩, ⟨"Coat", "Base"⟩⟩] ++
      weights)

/-- The pass over that tree. -/
def ringPass (weights : List Link) : Pass :=
  ⟨⟨({} : Scene).addTree (ringTree weights), Catalog.builtin, {}⟩, { geometry := .external }, 1⟩

/-- The weights of both shading models are the grey. -/
def greyWeights : List Link :=
  [⟨⟨5⟩, ⟨"Grey", "Out"⟩, ⟨"Mix", "Weight 1"⟩⟩, ⟨⟨6⟩, ⟨"Grey", "Out"⟩, ⟨"Mix", "Weight 2"⟩⟩]

/-- The visits of that tree when it is compiled first. -/
def ringVisits : List Visit :=
  let pass := ringPass greyWeights
  materialTrace (pass.nodeTrace pass.scene.walkDepth) (ringTree greyWeights) {}

/-- With linked weights, the ring comes to the default material, then and again. -/
theorem material_compiled_again_grey :
    let pass := ringPass greyWeights
    let material := writeMaterialTree pass.compiler (ringTree greyWeights)
    let t := (material.runOn {}).2
    material.runOn {} = (.ok defaultMaterial, t) ∧ pass.StillNothing ringVisits t ∧
    pass.WeightsKept ringVisits t ∧
    ∃ lines, material.runOn t = (.ok defaultMaterial, t.notes lines) := by
  intro pass material t
  have hdefault : (material.runOn {}).1 = .ok defaultMaterial := by decide +kernel
  have hvalues : ∀ v ∈ ringVisits, (v.run pass).1 ≠ .ok none := by decide +kernel
  have hgrey : ∀ v ∈ ringVisits, v.call = .node (ringTree greyWeights) greyNode false →
      (v.run pass).1 = .ok (some (.reference "NTRingNGrey")) := by decide +kernel
  have hstill : pass.StillNothing ringVisits t := fun v hv _ _ _ _ _ hnone =>
    absurd hnone (hvalues v hv)
  have hcalls : ∀ v ∈ ringVisits, ∃ node ∈ (ringTree greyWeights).nodes.values,
      ∃ useLiterals, v.call = .node (ringTree greyWeights) node useLiterals := by decide +kernel
  have hmix : ∀ node ∈ (ringTree greyWeights).nodes.values, ∀ additive,
      node.kind = .layeredBrdf additive → node = mixtureNode := by decide +kernel
  have hlinked : ∀ layer ∈ List.range' 1 (mixtureNode.inputs.length / 2),
      ((ringTree greyWeights).linkedSource? ⟨mixtureNode.name, "Weight " ++ toString layer⟩).map
        Prod.fst = some greyNode := by decide +kernel
  have hweights : pass.WeightsKept ringVisits t := by
    rintro tree node useLiterals additive hkind ⟨v, hv, hcall, -⟩ layer hlayer - - -
    obtain ⟨own, hown, switch, hcall'⟩ := hcalls v hv
    rw [hcall] at hcall'
    cases hcall'
    obtain rfl := hmix node hown additive hkind
    obtain ⟨⟨source, output⟩, hsource, rfl⟩ := Option.map_eq_some_iff.mp (hlinked layer hlayer)
    refine ⟨greyNode, output, hsource, fun w hw hnode _ value hvalue => ?_⟩
    rw [hgrey w hw hnode] at hvalue
    cases hvalue
    rfl
  have hrun := runOn_of_ok hdefault
  exact ⟨hrun, hstill, hweights, material_compiled_again pass _ _ {} t _ hrun (fun _ => hstill)
    fun _ => hweights⟩

/-- Without, the weight of the first shading model is written again each time. -/
theorem weight_written_again :
    let material := writeMaterialTree (ringPass []).compiler (ringTree [])
    let t := (material.runOn {}).2
    (material.runOn {}).1 = .ok defaultMaterial ∧ (material.runOn t).1 = .ok defaultMaterial ∧
    t.sent.map (·.name) = ["NTRingNBase", "NTRingNMixWNTRingNBaseI1"] ∧
    (material.runOn t).2.sent.map (·.name) =
      ["NTRingNBase", "NTRingNMixWNTRingNBaseI1", "NTRingNMixWNTRingNBaseI1_1"] := by
  decide +kernel

end ShadeNet
