/-
# What passes the check compiles

The check looks at each tree for itself: every link starts at an output and ends at an input,
and every plugin is one of the catalog. The walk comes to the nodes by other ways, through
links, caches, selectors, slots and trees of objects, but only to nodes of the trees of the
scene. So what the check excludes is never met: no link starts at a missing node, no plugin
is unknown, and a node of a plugin comes to a reference, unless a cycle or the destination
stops it. What the check does not look at are rings of ends, which are walked without end.

Key definitions: `LogLine.isAbsence`, `PassState.Referenced`, `PassState.MissesNothing`,
`Query.Within`, `IsAnswer`, `checkedConduct`.
Key theorems: `Job.dangles_of_check`, `Job.known_of_check`, `checked_serve`,
`checked_compiles_soundly`, `coiled_film_endless`.
-/
import ShadeNet.Proofs.Conduct
import ShadeNet.Proofs.Endless
import ShadeNet.Proofs.Recovery

namespace ShadeNet

open Compile

/-! ### What the check excludes -/

namespace Job

variable {job : Job} {tree : NodeTree}

theorem check_tree (h : job.check = []) (ht : tree ∈ job.scene.trees.values) :
    tree.check job.catalog = [] := List.flatMap_eq_nil_iff.mp h tree ht

/-- Both ends of a link are there. -/
theorem dangles_of_check (h : job.check = []) (ht : tree ∈ job.scene.trees.values) {link : Link}
    (hl : link ∈ tree.links) : tree.dangles link = false := by
  have hlinks := (List.append_eq_nil_iff.mp (check_tree h ht)).1
  have hnone := List.map_eq_nil_iff.mp hlinks
  simpa using List.filter_eq_nil_iff.mp hnone link hl

theorem source_of_check (h : job.check = []) (ht : tree ∈ job.scene.trees.values) {link : Link}
    (hl : link ∈ tree.links) : tree.node? link.source.node ≠ none := by
  intro hnone
  have hdangles := dangles_of_check h ht hl
  simp [NodeTree.dangles, NodeTree.outputAt?, hnone] at hdangles

theorem target_of_check (h : job.check = []) (ht : tree ∈ job.scene.trees.values) {link : Link}
    (hl : link ∈ tree.links) : (tree.inputAt? link.target).isSome = true := by
  have hdangles := dangles_of_check h ht hl
  simp only [NodeTree.dangles, Bool.or_eq_false_iff] at hdangles
  simpa [Option.isSome_iff_ne_none] using hdangles.2

/-- The plugin of a node is in the catalog. -/
theorem known_of_check (h : job.check = []) {node : Node}
    (hn : (tree, node) ∈ job.scene.positions) {category : Category} {plugin : String}
    (hk : node.kind = .plugin category plugin) : ∃ desc, job.catalog.get? plugin = some desc := by
  obtain ⟨ht, hmem⟩ := Scene.mem_positions.mp hn
  have hnodes := (List.append_eq_nil_iff.mp (check_tree h ht)).2
  have hnode := (List.append_eq_nil_iff.mp (List.flatMap_eq_nil_iff.mp hnodes node hmem)).2
  cases hd : job.catalog.get? plugin with
  | some desc => exact ⟨desc, rfl⟩
  | none => simp [Catalog.checkNode, hk, hd] at hnode

/-- The input socket of a node that a link ends at is a socket of the node. -/
theorem input_of_check (h : job.check = []) (ht : tree ∈ job.scene.trees.values)
    (hk : tree.Keyed) {node : Node} (hn : node ∈ tree.nodes.values) {socket : String}
    (hl : tree.isLinked ⟨node.name, socket⟩ = true) : (node.input? socket).isSome = true := by
  obtain ⟨link, hlink⟩ := Option.isSome_iff_exists.mp hl
  have htarget : link.target = ⟨node.name, socket⟩ := by simpa using List.find?_some hlink
  have hinput := target_of_check h ht (List.mem_of_find?_eq_some hlink)
  rw [htarget] at hinput
  simpa [NodeTree.inputAt?, hk.node?_name hn] using hinput

end Job

/-! ### What the walk may meet -/

/-- Whether a report is about a source or a plugin that is not there. -/
def LogLine.isAbsence : LogLine → Bool
  | sourceMissing _ _ _ | pluginUnknown _ _ _ => true
  | _ => false

theorem LogLine.isAbsence_of_isFinding {line : LogLine} (h : line.isFinding = false) :
    line.isAbsence = false := by
  cases line <;> first | rfl | cases h

/-- Every node that is compiled has a reference. -/
def PassState.Referenced (s : PassState) : Prop :=
  ∀ key name value, s.ledger.node? key name = some (.done value) → ∃ token, value = .reference token

/-- Nothing was reported to be missing in between. -/
def PassState.MissesNothing (s t : PassState) : Prop :=
  ∃ lines, t.log = s.log ++ lines ∧ ∀ line ∈ lines, line.isAbsence = false

/-- The query is about the scene. -/
def Query.Within (scene : Scene) : Query → Prop
  | .call made => made.Within scene
  | .selectObject tree node _ | .selectGroup tree node _ => (tree, node) ∈ scene.positions
  | .geometry | .scope _ => True

/-- What a node of a plugin may come to: a reference, a cycle, or a failure to write. -/
inductive IsAnswer : Except Failure (Option Resolved) → Prop
  | reference (token : String) : IsAnswer (.ok (some (.reference token)))
  | cycle (tree node : String) : IsAnswer (.error (.cycle tree node))
  | io (message : String) : IsAnswer (.error (.io message))

variable {pass : Pass}

/-- Any call of the scene, in any state: nothing is missing, and whatever is compiled is
referred to. -/
def checkedConduct (h : pass.toJob.check = []) : Conduct pass where
  __ := freeConduct pass
  Worth value := ∃ token, value = .reference token
  Reports line := line.isAbsence = false
  worth token := ⟨token, rfl⟩
  reports := LogLine.isAbsence_of_isFinding
  reports_source ht hl hn := absurd hn (Job.source_of_check h ht hl)
  reports_plugin hn hk hd := by
    obtain ⟨desc, hdesc⟩ := Job.known_of_check h hn hk
    rw [hdesc] at hd
    cases hd
  reports_materialCycle _ := rfl
  reports_objectCycle _ := rfl

/-! ### Queries -/

section Steps

variable {α : Type} {trace : Trace} {c : Compile α} {Q : α → Prop} {s : PassState}

theorem checked_step (h : pass.toJob.check = [])
    (hc : (checkedConduct h).Keeps s.Frame trace c Q) (hs : s.Referenced) :
    (c.runOn s).2.Referenced ∧ s.MissesNothing (c.runOn s).2 :=
  ⟨(hc s hs (.refl s)).1.entered, (hc s hs (.refl s)).1.reported⟩

/-- What is linked to an input socket of any node meets nothing that is missing. -/
theorem checked_resolveSocket (h : pass.toJob.check = []) (depth : Nat) {tree : NodeTree}
    (ht : tree ∈ pass.scene.trees.values) (node : Node) (socket : Socket) (useLiterals : Bool)
    (hs : s.Referenced) :
    ((resolveSocket (pass.walk depth) tree node socket useLiterals).runOn s).2.Referenced ∧
      s.MissesNothing
        ((resolveSocket (pass.walk depth) tree node socket useLiterals).runOn s).2 := by
  have hfeeds : (checkedConduct h).Feeds s tree node :=
    ⟨ht, fun _ _ hf => Scene.mem_positions.mpr ⟨ht, NodeTree.Feeds.mem hf⟩⟩
  have hd := (checkedConduct h).compiles depth
  exact checked_step h (Conduct.keeps_resolveSocket hd hfeeds socket useLiterals) hs

/-- A query about the scene meets nothing that is missing. -/
theorem checked_query (h : pass.toJob.check = []) (depth : Nat) {query : Query}
    (hq : query.Within pass.scene) (hs : s.Referenced) :
    ((query.compile pass (pass.walk depth)).runOn s).2.Referenced ∧
      s.MissesNothing ((query.compile pass (pass.walk depth)).runOn s).2 := by
  have hd := (checkedConduct h).compiles depth
  have hselect : ∀ (tree : NodeTree) (node : Node) (names : List String),
      (checkedConduct h).Keeps s.Frame
        (pass.selectTrace depth (pass.nodeTrace depth) tree node names)
        (pass.select (pass.walk depth) tree node names) fun _ => True := fun _ _ names =>
    Conduct.keeps_select hd (fun _ => trivial) trivial names
  cases query with
  | call call => exact checked_step h (Conduct.keeps_call _ depth hq) hs
  | geometry => exact checked_step h (Conduct.keeps_writeGeometry (Conduct.framed_frame s)) hs
  | selectObject tree node object =>
    exact checked_step h ((hselect tree node _).before (R := fun _ => True) fun _ _ =>
      Conduct.keeps_pure trivial) hs
  | selectGroup tree node group =>
    exact checked_step h ((hselect tree node _).before (R := fun _ => True) fun _ _ =>
      Conduct.keeps_pure trivial) hs
  | scope other => exact ⟨hs, Conduct.Reported.of_log (C := checkedConduct h) rfl⟩

end Steps

/-- Queries about the scene meet nothing that is missing, whichever way each of them ends. -/
theorem checked_serve (h : pass.toJob.check = []) (depth : Nat) :
    ∀ (queries : List Query) (s : PassState), s.Referenced →
      (∀ query ∈ queries, query.Within pass.scene) →
      (pass.serve depth queries s).Referenced ∧ s.MissesNothing (pass.serve depth queries s)
  | [], s, hs, _ => ⟨hs, Conduct.Reported.refl (C := checkedConduct h) s⟩
  | query :: rest, s, hs, hq => by
    obtain ⟨hfirst, hmore⟩ := List.forall_mem_cons.mp hq
    obtain ⟨hone, hmissone⟩ := checked_query h depth hfirst hs
    obtain ⟨hall, hmissrest⟩ := checked_serve h depth rest _ hone hmore
    exact ⟨hall, Conduct.Reported.trans (C := checkedConduct h) hmissone hmissrest⟩

/-! ### What a node comes to -/

variable {tree : NodeTree} {node : Node} {category : Category} {plugin : String}

/-- A node of a plugin that comes to an end comes to a reference, or fails as it may. -/
theorem answer_of_gives (h : pass.toJob.check = []) (hn : (tree, node) ∈ pass.scene.positions)
    (hk : node.kind = .plugin category plugin) {r : Except Failure (Option Resolved)}
    (hok : ∀ a, r = .ok a → (checkedConduct h).Gives node a)
    (hbound : r ≠ .error .depthExceeded) : IsAnswer r := by
  cases r with
  | ok a =>
    obtain ⟨desc, hd⟩ := Job.known_of_check h hn hk
    obtain ⟨value, rfl, token, rfl⟩ := hok a rfl category plugin desc hk hd
    exact .reference token
  | error failure =>
    cases failure with
    | io message => exact .io message
    | cycle tree node => exact .cycle tree node
    | depthExceeded => exact absurd rfl hbound

theorem answer_of_call (h : pass.toJob.check = []) (hring : pass.scene.RingFree)
    (hn : (tree, node) ∈ pass.scene.positions) (hk : node.kind = .plugin category plugin)
    {depth : Nat} (hdepth : pass.scene.walkDepth ≤ depth) {s : PassState} (hs : s.Referenced)
    (useLiterals : Bool) : IsAnswer ((pass.walk depth tree node useLiterals).runOn s).1 := by
  have hends := ((checkedConduct h).compiles depth tree node useLiterals s hn s hs (.refl s)).1
  refine answer_of_gives h hn hk hends.ok ?_
  have hbound := unbounded_compiler hring hn useLiterals s
  rcases walk_deepens pass hdepth tree node useLiterals s with hd | hd
  · exact absurd hd hbound
  · rwa [hd]

/-- The visits of a pass. -/
theorem answer_of_visit (h : pass.toJob.check = []) (hring : pass.scene.RingFree)
    {s : PassState} {v : Visit} (hv : v ∈ pass.visits s) {useLiterals : Bool}
    (hc : v.call = .node tree node useLiterals) (hk : node.kind = .plugin category plugin) :
    IsAnswer (v.run pass).1 := by
  obtain ⟨hentered, hready, hsurfaces⟩ := ((checkedConduct h).keeps_run s).2 v hv
  have hends := ((checkedConduct h).keeps_call v.depth hready v.state hentered (.refl _)).1
  have hok := hends.ok
  rw [hc] at hready hok
  refine answer_of_gives h hready hk (fun a ha => hok a ?_) fun hrun => ?_
  · rw [Visit.run, hc] at ha
    exact ha
  · exact unbounded_run hring s (hsurfaces .depthExceeded rfl hrun)

/-- **What passes the check compiles.** If nothing is wrong with the trees of the scene, the
linked input of the first output of a material is a socket of it. In every pass, and in every
query about the scene, no link is found to start at a missing node and no plugin is unknown;
and where no node passes on what it has itself, every call of a node of a plugin ends in a
reference, in a cycle or in a failure to write, never in nothing. -/
theorem checked_compiles_soundly (pass : Pass) (h : pass.toJob.check = [])
    (hk : ∀ tree ∈ pass.scene.trees.values, tree.Keyed) :
    (∀ tree ∈ pass.scene.trees.values, ∀ output, tree.materialOutput? = some output →
      tree.isLinked ⟨output.name, "Material"⟩ = true →
        (output.input? "Material").isSome = true) ∧
    (∀ s, s.MissesNothing (pass.run.runOn s).2 ∧
      (pass.scene.RingFree → ∀ v ∈ pass.visits s, ∀ tree node useLiterals category plugin,
        v.call = .node tree node useLiterals → node.kind = .plugin category plugin →
          IsAnswer (v.run pass).1)) ∧
    (∀ (depth : Nat) (s : PassState), s.Referenced →
      (∀ queries : List Query, (∀ query ∈ queries, query.Within pass.scene) →
        (pass.serve depth queries s).Referenced ∧
          s.MissesNothing (pass.serve depth queries s)) ∧
      (∀ tree ∈ pass.scene.trees.values, ∀ node socket useLiterals,
        ((resolveSocket (pass.walk depth) tree node socket useLiterals).runOn s).2.Referenced ∧
          s.MissesNothing
            ((resolveSocket (pass.walk depth) tree node socket useLiterals).runOn s).2) ∧
      (pass.scene.RingFree → ∀ tree node useLiterals category plugin,
        (tree, node) ∈ pass.scene.positions → node.kind = .plugin category plugin →
          pass.scene.walkDepth ≤ depth →
            IsAnswer ((pass.walk depth tree node useLiterals).runOn s).1)) := by
  refine ⟨fun tree ht output ho hl => ?_, fun s => ⟨?_, ?_⟩, fun depth s hs => ⟨?_, ?_, ?_⟩⟩
  · exact Job.input_of_check h ht (hk tree ht) (List.mem_of_find?_eq_some ho) hl
  · exact ((checkedConduct h).keeps_run s).1.2
  · exact fun hring v hv tree node useLiterals category plugin hc hkind =>
      answer_of_visit h hring hv hc hkind
  · exact fun queries hq => checked_serve h depth queries s hs hq
  · exact fun tree ht node socket useLiterals =>
      checked_resolveSocket h depth ht node socket useLiterals hs
  · exact fun hring tree node useLiterals category plugin hn hkind hdepth =>
      answer_of_call h hring hn hkind hdepth hs useLiterals

/-- A material that picks the stones which have it, with a texture that is linked to itself. -/
def pond : NodeTree :=
  .ofParts "Pond"
    [{ name := "End", kind := .materialOutput false,
        inputs := [⟨"Material", .input, .material, none, none⟩] },
      { name := "Film", kind := .plugin .material "MtlSingleBRDF",
        inputs := [⟨"BRDF", .input, .brdf, some "brdf", none⟩],
        outputs := [⟨"Out", .output, .material, none, none⟩] },
      { name := "Body", kind := .plugin .brdf "BRDFDiffuse",
        inputs := [⟨"Colour", .input, .texture, some "color_tex", none⟩],
        outputs := [⟨"Out", .output, .brdf, none, none⟩] },
      { name := "Shore", kind := .plugin .texture "TexDistance",
        inputs := [⟨"Objects", .input, .objects, some "objects", none⟩,
          ⟨"Near", .input, .texture, some "near_tex", none⟩],
        outputs := [⟨"Out", .output, .texture, none, none⟩] },
      { name := "Ripple", kind := .plugin .texture "TexChecker",
        inputs := [⟨"White", .input, .texture, some "white_color", none⟩],
        outputs := [⟨"Out", .output, .texture, none, none⟩] },
      { name := "Stones", kind := .selectGroup (some "Stones"),
        outputs := [⟨"Out", .output, .objects, none, none⟩] }]
    [⟨⟨1⟩, ⟨"Film", "Out"⟩, ⟨"End", "Material"⟩⟩, ⟨⟨2⟩, ⟨"Body", "Out"⟩, ⟨"Film", "BRDF"⟩⟩,
      ⟨⟨3⟩, ⟨"Shore", "Out"⟩, ⟨"Body", "Colour"⟩⟩, ⟨⟨4⟩, ⟨"Stones", "Out"⟩, ⟨"Shore", "Objects"⟩⟩,
      ⟨⟨5⟩, ⟨"Ripple", "Out"⟩, ⟨"Shore", "Near"⟩⟩, ⟨⟨6⟩, ⟨"Ripple", "Out"⟩, ⟨"Ripple", "White"⟩⟩]

/-- A stone in a pond, and one beside it. -/
def pondPass : Pass where
  scene := ((((({} : Scene).addTree pond).addMaterial "Pond" ⟨some "Pond"⟩).addObject "Wet"
    { mesh := some "Stone", slots := [some "Pond"] }).addObject "Dry"
      { mesh := some "Stone" }).addGroup "Stones" ⟨["Wet", "Dry"]⟩
  catalog := Catalog.builtin
  settings := {}
  geometry := .external
  frame := 1

theorem checked_compiles_soundly_pond :
    pondPass.toJob.check = [] ∧ (∀ tree ∈ pondPass.scene.trees.values, tree.Keyed) ∧
      pondPass.scene.RingFree ∧
      ∀ s : PassState, s.MissesNothing (pondPass.run.runOn s).2 ∧
        ∀ v ∈ pondPass.visits s, ∀ useLiterals category plugin, ∀ node,
          v.call = .node pond node useLiterals → node.kind = .plugin category plugin →
            IsAnswer (v.run pondPass).1 := by
  have hcheck : pondPass.toJob.check = [] := by decide
  have hkeyed : ∀ tree ∈ pondPass.scene.trees.values, tree.Keyed := by
    intro tree ht
    rw [List.mem_singleton.mp (ht : tree ∈ [pond])]
    exact NodeTree.keyed_ofParts _ _ _
  have hring : pondPass.scene.RingFree := (Scene.straight_of_direct (by decide)).ringFree
  obtain ⟨-, hpass, -⟩ := checked_compiles_soundly pondPass hcheck hkeyed
  exact ⟨hcheck, hkeyed, hring, fun s => ⟨(hpass s).1, fun v hv useLiterals category plugin node =>
    (hpass s).2 hring v hv pond node useLiterals category plugin⟩⟩

/-- The material behind the ring of a coil. -/
def film : Node where
  name := "Film"
  kind := .plugin .material "MtlSingleBRDF"
  inputs := [⟨"Base", .input, .material, some "brdf", none⟩]
  outputs := [⟨"Out", .output, .material, none, none⟩]

/-- Nothing is wrong with the coil, and the material behind its ring comes to no end: however
deep the walk may go, it goes deeper. -/
theorem coiled_film_endless :
    coilJob.check = [] ∧ (∀ tree ∈ coilJob.scene.trees.values, tree.Keyed) ∧
      (coil, film) ∈ coilJob.scene.positions ∧
      ∀ (depth : Nat) (s : PassState), s.ledger.node? (s.treeKey "Coil") "Film" = none →
        let pass : Pass := ⟨coilJob, { geometry := .external }, 1⟩
        ((pass.walk depth coil film true).runOn s).1 = .error .depthExceeded := by
  have hkeyed : ∀ tree ∈ coilJob.scene.trees.values, tree.Keyed := by
    intro tree ht
    rw [List.mem_singleton.mp (ht : tree ∈ [coil])]
    exact NodeTree.keyed_ofParts _ _ _
  refine ⟨by decide, hkeyed, by decide, fun depth s hs => ?_⟩
  intro pass
  obtain ⟨a, b, ha, hab, hba⟩ : ∃ a b, coil.node? "A" = some a ∧
      coil.Relays a b ∧ coil.Relays b a := ⟨_, _, rfl, Or.inl ⟨rfl, rfl⟩, Or.inl ⟨rfl, rfl⟩⟩
  have hring : Relation.TransGen coil.Relays a a := (Relation.TransGen.single hab).tail hba
  cases depth with
  | zero => rfl
  | succ depth =>
    have hlink : coil.linkTo? ⟨"Film", "Base"⟩ = some ⟨⟨3⟩, ⟨"A", "Out"⟩, ⟨"Film", "Base"⟩⟩ := rfl
    have hbuild (t : PassState) : (pass.writePluginNode (pass.walk depth) coil film
        "MtlSingleBRDF" true).runOn t = (.error .depthExceeded, t) :=
      writePluginNode_error rfl rfl rfl hlink ha (walk_of_ring hring depth true t)
    show ((once coil film (pass.writePluginNode (pass.walk depth) coil film "MtlSingleBRDF"
      true)).runOn s).1 = _
    rw [once_runOn, show s.ledger.node? (s.treeKey coil.name) film.name = none from hs]
    simp only [hbuild]
    rfl

end ShadeNet
