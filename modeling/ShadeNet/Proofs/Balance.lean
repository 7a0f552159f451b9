/-
# The summary of a pass agrees with its output

At the end of a pass that ends well the records are those of its calls, of the default material
and of the meshes. The summary counts all but the last, and its nodes are the records that calls
wrote for nodes.

Key theorem: `summary_balances`.
-/
import ShadeNet.Proofs.Census
import ShadeNet.Proofs.Settlement

namespace ShadeNet

open Compile

/-- **The summary balances the books.** After a pass that ends well, from whatever state it began
in, the records that it sent are those of the default material, of the nodes, of the weights and
of the gathered materials and the plain objects that its calls wrote, and those that the geometry
exporter wrote for the meshes that were handed out, each as often as it is listed there.
The sink has taken as many records more as the summary counts, and those of the meshes;
and the summary counts a record for each node, two for the default material, and one for each
weight, for each material of several slots and for each plain object that was written.
How many records the geometry exporter writes for a mesh does not matter. -/
theorem summary_balances (pass : Pass) (s t : PassState) (summary : Summary)
    (h : pass.run.runOn s = (.ok summary, t)) :
    let nodes := (pass.visits s).filterMap pass.built?
    let weights := (pass.visits s).flatMap pass.weights
    let combined := (pass.visits s).filterMap pass.combined?
    let plain := (pass.visits s).filterMap pass.plain?
    ∃ sent requests, t.sent = s.sent ++ sent ∧ t.meshes = s.meshes ++ requests ∧
      let meshes := pass.geometry.records s.meshes requests
      sent.Perm (nodes ++ weights ++ combined ++ plain ++
        [defaultBrdfRecord, defaultMaterialRecord] ++ meshes) ∧
      t.sink.recordCount = s.sink.recordCount + (summary.records + meshes.length) ∧
      summary.nodes = nodes.length ∧
      summary.records = summary.nodes + (2 + weights.length + combined.length + plain.length) ∧
      (∀ r ∈ weights, ∃ weight, r = pass.weightRecord r.name weight) ∧
      (∀ r ∈ combined, ∃ materials, 2 ≤ materials.length ∧
        r = Pass.multiMaterialRecord r.name materials) ∧
      (∀ r ∈ plain, ∃ desc supplied, pass.catalog.get? "Node" = some desc ∧
        r = pass.pluginRecord desc r.name ∅ supplied) := by
  intro nodes weights combined plain
  obtain ⟨hhead, hrecords, hnodes, sent, handed, refused, requests, hbalance⟩ :=
    balances_run pass h
  obtain ⟨rfl, rfl⟩ := hbalance.complete trivial
  have hown := ownRecords_perm pass (pass.visits s)
  have hcompiled : t.ledger.compiledNodes = nodes.length := by
    have hbuilt := (journey_pass pass s).built.1.compiled
    rw [h] at hbuilt
    exact hbuilt.trans (Nat.zero_add _)
  have hsink : (pass.headed s).sink.recordCount = s.sink.recordCount :=
    recordCount_write s.sink pass.header |>.trans (by rw [Bool.and_comm]; rfl)
  have hlength : ((pass.visits s).flatMap pass.ownRecords).length =
      nodes.length + weights.length + combined.length + plain.length := by
    rw [hown.length_eq, List.length_append, List.length_append, List.length_append]
  have hcounted : t.ledger.records =
      0 + ((pass.visits s).flatMap pass.ownRecords ++ _).length := hbalance.counted
  have htried := hbalance.entered.length_eq
  have hreceived := hbalance.received
  simp only [List.length_append, List.length_cons, List.length_nil] at hcounted htried
  have hheaded : (pass.headed s).meshes = s.meshes := rfl
  rw [hheaded] at htried
  have hsent : t.sent = s.sent ++ (sent ++ []) := hbalance.sent
  rw [List.append_nil] at hsent
  refine ⟨sent, requests, hsent, hbalance.meshes,
    hbalance.entered.trans ((hown.append_right _).append_right _), ?_, hnodes.trans hcompiled, ?_,
    fun r hr => ?_, fun r hr => ?_, fun r hr => ?_⟩
  · omega
  · omega
  · obtain ⟨v, -, hv⟩ := List.mem_flatMap.mp hr
    exact of_weights hv
  · obtain ⟨v, -, hv⟩ := List.mem_filterMap.mp hr
    exact of_combined? hv
  · obtain ⟨v, -, hv⟩ := List.mem_filterMap.mp hr
    exact of_plain? hv

/-- The tree of a material with two shading models under weights, the second of which is the
layered one itself. -/
def knotTree : NodeTree :=
  .ofParts "Knot"
    [{ name := "End", kind := .materialOutput false,
        inputs := [⟨"Material", .input, .material, none, none⟩] },
      { name := "Mix", kind := .layeredBrdf false,
        inputs := [⟨"BRDF 1", .input, .brdf, none, none⟩,
          ⟨"Weight 1", .input, .floatTexture, none, none⟩,
          ⟨"BRDF 2", .input, .brdf, none, none⟩,
          ⟨"Weight 2", .input, .floatTexture, none, none⟩] },
      { name := "Paint", kind := .plugin .brdf "BRDFDiffuse" }]
    [⟨⟨1⟩, ⟨"Mix", "Out"⟩, ⟨"End", "Material"⟩⟩, ⟨⟨2⟩, ⟨"Paint", "Out"⟩, ⟨"Mix", "BRDF 1"⟩⟩,
      ⟨⟨3⟩, ⟨"Mix", "Out"⟩, ⟨"Mix", "BRDF 2"⟩⟩]

/-- The pass over an object without a tree that has that material and the varnish. -/
def stoolPass : Pass :=
  ⟨⟨((((({} : Scene).addTree varnishTree).addTree knotTree).addMaterial "Varnish"
      ⟨some "Varnish"⟩).addMaterial "Knot" ⟨some "Knot"⟩).addObject "Stool"
      { mesh := some "Stool", slots := [some "Varnish", some "Knot"] }, Catalog.builtin, {}⟩,
    { geometry := .bare }, 1⟩

/-- The knot is given up twice on the cycle, and its weight is there twice. -/
theorem summary_balances_stool :
    let last := stoolPass.run.runOn {}
    let weights := (stoolPass.visits {}).flatMap stoolPass.weights
    weights.map (·.name) = ["NTVarnishNMixWNTVarnishNPaintI1", "NTKnotNMixWNTKnotNPaintI1",
      "NTKnotNMixWNTKnotNPaintI1_1"] ∧
    ∃ summary requests, last.1 = .ok summary ∧ summary.records = 10 ∧ summary.nodes = 3 ∧
      requests.map (·.name) = ["MEStool"] ∧ last.2.meshes = requests ∧
      last.2.sink.recordCount =
        summary.records + (stoolPass.geometry.records [] requests).length ∧
      summary.records = summary.nodes + (2 + weights.length +
        ((stoolPass.visits {}).filterMap stoolPass.combined?).length +
        ((stoolPass.visits {}).filterMap stoolPass.plain?).length) := by
  intro last weights
  have hresult : last.1 = .ok ⟨1, 10, 3⟩ := by decide +kernel
  have hnames : last.2.meshes.map (·.name) = ["MEStool"] := by decide +kernel
  have hrun : last = (.ok ⟨1, 10, 3⟩, last.2) := by rw [← hresult]
  have hempty : ({} : PassState).sink.recordCount = 0 := rfl
  obtain ⟨sent, requests, -, hmeshes, -, hcount, -, hrecords, -⟩ :=
    summary_balances stoolPass {} last.2 ⟨1, 10, 3⟩ hrun
  have hrequests : last.2.meshes = requests := hmeshes
  rw [hempty, Nat.zero_add] at hcount
  exact ⟨by decide +kernel, ⟨1, 10, 3⟩, requests, hresult, rfl, rfl, hrequests ▸ hnames, hrequests,
    hcount, hrecords⟩

end ShadeNet
