/-
# Nodes that no output needs

A tree may hold nodes that nothing leads to: no link of the tree starts at one of them, and none
of them is an end. They may be linked among each other, in rings too, and from the nodes that are
used. Whatever looks at the tree from one of its other nodes sees the same links and the same
sources with these nodes as without them, so a pass over a scene with such nodes is the pass over
the scene without them, step by step.

Key definitions: `NodeTree.GrownBy`, `NodeTree.Mirrors`, `Scene.Mirrors`, `Pass.over`,
`Pass.runWith`.
Key theorems: `NodeTree.GrownBy.mirrors`, `mirrored_compileNode`, `mirrored_walk`,
`unneeded_nodes_unseen`.
-/
import ShadeNet.Proofs.Termination
import ShadeNet.Proofs.Upstream

namespace ShadeNet

variable {α β : Type}

/-! ### Trees that look alike -/

namespace NodeTree

/-- A tree with more nodes behind its own, none of which is an end, and with more links into
these nodes. No link of the tree starts at one of them. -/
structure GrownBy (tree : NodeTree) (added : List Node) (grown : NodeTree) : Prop where
  name : grown.name = tree.name
  nodes : grown.nodes.entries = tree.nodes.entries ++ added.map fun node => (node.name, node)
  links : grown.links.filter (fun link => link.target.node ∉ added.map (·.name)) = tree.links
  unnamed : ∀ link ∈ tree.links, link.source.node ∉ added.map (·.name)
  inner : ∀ node ∈ added, node.kind.isMaterialOutput = false ∧ node.kind.isObjectOutput = false

/-- Another tree has the name and the ends of a tree, and from the nodes of the tree it looks the
same. -/
structure Mirrors (tree grown : NodeTree) : Prop where
  name : grown.name = tree.name
  links : ∀ node ∈ tree.nodes.values, ∀ socket,
    grown.linkTo? ⟨node.name, socket⟩ = tree.linkTo? ⟨node.name, socket⟩
  sources : ∀ node ∈ tree.nodes.values, ∀ socket link,
    tree.linkTo? ⟨node.name, socket⟩ = some link →
      grown.node? link.source.node = tree.node? link.source.node
  materialOutput : grown.materialOutput? = tree.materialOutput?
  objectOutput : grown.objectOutput? = tree.objectOutput?

theorem Mirrors.refl (tree : NodeTree) : tree.Mirrors tree :=
  ⟨rfl, fun _ _ _ => rfl, fun _ _ _ _ _ => rfl, rfl, rfl⟩

theorem Mirrors.isLinked {tree grown : NodeTree} (h : tree.Mirrors grown) {node : Node}
    (hn : node ∈ tree.nodes.values) (socket : String) :
    grown.isLinked ⟨node.name, socket⟩ = tree.isLinked ⟨node.name, socket⟩ := by
  unfold NodeTree.isLinked
  rw [h.links node hn]

theorem Mirrors.linkedSource? {tree grown : NodeTree} (h : tree.Mirrors grown) {node : Node}
    (hn : node ∈ tree.nodes.values) (socket : String) :
    grown.linkedSource? ⟨node.name, socket⟩ = tree.linkedSource? ⟨node.name, socket⟩ := by
  unfold NodeTree.linkedSource?
  rw [h.links node hn]
  cases hl : tree.linkTo? ⟨node.name, socket⟩ with
  | none => rfl
  | some link =>
    simp only [Option.bind_eq_bind, Option.bind_some]
    rw [h.sources node hn socket link hl]

theorem lookupEntry_append {κ γ : Type} [DecidableEq κ] {key : κ} {m : List (κ × γ)}
    (h : key ∉ m.map Prod.fst) :
    ∀ l, OrderedMap.lookupEntry key (l ++ m) = OrderedMap.lookupEntry key l
  | [] => Option.eq_none_iff_forall_ne_some.mpr fun value hv =>
    h (List.mem_map_of_mem (OrderedMap.mem_of_lookupEntry hv))
  | e :: rest => by
    rw [List.cons_append, OrderedMap.lookupEntry, OrderedMap.lookupEntry, lookupEntry_append h rest]

namespace GrownBy

variable {tree grown : NodeTree} {added : List Node}

theorem values (h : tree.GrownBy added grown) :
    grown.nodes.values = tree.nodes.values ++ added := by
  unfold OrderedMap.values
  rw [h.nodes, List.map_append, List.map_map]
  exact congrArg _ (List.map_id added)

/-- Under a name that no added node has, there is what was there. -/
theorem node? (h : tree.GrownBy added grown) {name : String} (hn : name ∉ added.map (·.name)) :
    grown.node? name = tree.node? name := by
  unfold NodeTree.node? OrderedMap.get?
  rw [h.nodes]
  exact lookupEntry_append (by simpa [Function.comp_def] using hn) _

/-- No node of the tree has the name of an added one. -/
theorem name_notin (h : tree.GrownBy added grown) (hk : tree.Keyed) {node : Node}
    (hn : node ∈ tree.nodes.values) : node.name ∉ added.map (·.name) := by
  obtain ⟨e, he, rfl⟩ := List.mem_map.mp hn
  have hnodup := grown.nodes.keys_nodup
  rw [h.nodes, List.map_append, List.map_map] at hnodup
  rw [hk e he]
  exact fun hm => (List.nodup_append.mp hnodup).2.2 e.1 (List.mem_map_of_mem he) e.1 hm rfl

/-- Into the sockets of other nodes than the added ones, the first link is what it was. -/
theorem linkTo? (h : tree.GrownBy added grown) {target : Endpoint}
    (ht : target.node ∉ added.map (·.name)) : grown.linkTo? target = tree.linkTo? target := by
  unfold NodeTree.linkTo?
  rw [← h.links, List.find?_filter]
  congr 1
  funext link
  by_cases hl : link.target = target
  · simp [hl, ht]
  · simp [hl]

/-- No end is added, so the first one is what it was. -/
theorem find_eq (h : tree.GrownBy added grown) {test : Node → Bool}
    (ht : ∀ node ∈ added, test node = false) :
    grown.nodes.values.find? test = tree.nodes.values.find? test := by
  have hnone : added.find? test = none := List.find?_eq_none.mpr fun node hn => by simp [ht node hn]
  rw [h.values, List.find?_append, hnone, Option.or_none]

/-- From its own nodes, a tree looks as it did before others were added. -/
theorem mirrors (h : tree.GrownBy added grown) (hk : tree.Keyed) : tree.Mirrors grown where
  name := h.name
  links _ hn _ := h.linkTo? (h.name_notin hk hn)
  sources _ _ _ _ hl := h.node? (h.unnamed _ (List.mem_of_find?_eq_some hl))
  materialOutput := h.find_eq fun node hn => (h.inner node hn).1
  objectOutput := h.find_eq fun node hn => (h.inner node hn).2

end GrownBy

end NodeTree

/-- Another scene has what a scene has, with trees that look the same from the nodes of the
scene. -/
structure Scene.Mirrors (scene grown : Scene) : Prop where
  name : grown.name = scene.name
  materials : grown.materials = scene.materials
  objects : grown.objects = scene.objects
  groups : grown.groups = scene.groups
  tree? : ∀ key, Option.Rel NodeTree.Mirrors (scene.tree? key) (grown.tree? key)

/-- A scene in which one tree is replaced by one that looks the same. -/
theorem NodeTree.Mirrors.scene {tree grown : NodeTree} (h : tree.Mirrors grown) {scene : Scene}
    {key : String} (hkey : scene.tree? key = some tree) :
    scene.Mirrors { scene with trees := scene.trees.insert key grown } where
  name := rfl
  materials := rfl
  objects := rfl
  groups := rfl
  tree? other := by
    have hother : ({ scene with trees := scene.trees.insert key grown } : Scene).tree? other =
        if key = other then some grown else scene.tree? other := OrderedMap.get?_insert _ _ _ _
    rw [hother]
    split
    · rename_i heq
      rw [← heq, hkey]
      exact .some h
    · cases scene.tree? other with
      | none => exact .none
      | some same => exact .some (.refl same)

theorem Scene.Mirrors.materialTree? {scene grown : Scene} (h : scene.Mirrors grown)
    (material : String) :
    Option.Rel NodeTree.Mirrors (scene.materialTree? material) (grown.materialTree? material) := by
  unfold Scene.materialTree?
  rw [h.materials]
  cases (scene.materials.get? material).bind (·.tree) with
  | none => exact .none
  | some key => exact h.tree? key

/-! ### Steps on trees that look alike -/

/-- Two compilers of nodes do the same for the nodes of a tree, the one in the tree and the other
in one that looks the same. -/
def MirroredOn (compile further : NodeCompiler) (tree grown : NodeTree) : Prop :=
  ∀ node ∈ tree.nodes.values, ∀ useLiterals,
    further grown node useLiterals = compile tree node useLiterals

theorem collect_congr {f g : α → Compile (Option β)} {l : List α} (h : ∀ a ∈ l, g a = f a) :
    collect g l = collect f l := by
  induction l with
  | nil => rfl
  | cons a rest ih =>
    unfold collect
    rw [h a List.mem_cons_self, ih fun b hb => h b (List.mem_cons_of_mem a hb)]

section Nodes

variable {pass : Pass} {compile further : NodeCompiler} {tree grown : NodeTree} {node : Node}
  (ht : tree.Mirrors grown) (hc : MirroredOn compile further tree grown)
  (hn : node ∈ tree.nodes.values)

include ht

theorem mirrored_once (build : Compile (Option Resolved)) :
    once grown node build = once tree node build := by
  unfold once
  rw [ht.name]

include hc hn

theorem mirrored_resolveSocket (socket : Socket) (useLiterals : Bool) :
    resolveSocket further grown node socket useLiterals =
      resolveSocket compile tree node socket useLiterals := by
  unfold resolveSocket
  rw [ht.links node hn]
  cases hl : tree.linkTo? ⟨node.name, socket.name⟩ with
  | none => rfl
  | some link =>
    simp only
    rw [ht.sources node hn _ _ hl, ht.name]
    cases hs : tree.node? link.source.node with
    | none => rfl
    | some source =>
      simp only
      rw [hc source (OrderedMap.mem_values_of_get? hs)]

theorem mirrored_resolveInput (name : String) (useLiterals : Bool) :
    resolveInput further grown node name useLiterals =
      resolveInput compile tree node name useLiterals := by
  unfold resolveInput
  rw [ht.name]
  cases node.input? name with
  | none => rfl
  | some socket => exact mirrored_resolveSocket ht hc hn socket useLiterals

theorem mirrored_writePluginNode (scene : Scene) (plugin : String) (useLiterals : Bool) :
    Pass.writePluginNode { pass with scene := scene } further grown node plugin useLiterals =
      pass.writePluginNode compile tree node plugin useLiterals := by
  have hsupply : ∀ socket ∈ node.inputs, supply further grown node useLiterals socket =
      supply compile tree node useLiterals socket := by
    intro socket _
    unfold supply
    cases socket.attr with
    | none => rfl
    | some attr => simp only [mirrored_resolveSocket ht hc hn]
  unfold Pass.writePluginNode
  simp only [ht.name, collect_congr hsupply]
  rfl

theorem mirrored_writeLayeredTexture (scene : Scene) :
    Pass.writeLayeredTexture { pass with scene := scene } further grown node =
      pass.writeLayeredTexture compile tree node := by
  have hlayer : ∀ socket ∈ node.inputs, textureLayer further grown node socket =
      textureLayer compile tree node socket := by
    intro socket _
    unfold textureLayer
    simp only [ht.isLinked hn, ht.name, mirrored_resolveSocket ht hc hn]
  unfold Pass.writeLayeredTexture
  simp only [ht.name, collect_congr hlayer]
  rfl

theorem mirrored_linkedWeight (socket : String) :
    Pass.linkedWeight further grown node socket = Pass.linkedWeight compile tree node socket := by
  unfold Pass.linkedWeight
  rw [ht.linkedSource? hn]
  cases hl : tree.linkedSource? ⟨node.name, socket⟩ with
  | none => rfl
  | some found =>
    obtain ⟨link, -, hl⟩ := Option.bind_eq_some_iff.mp hl
    obtain ⟨source, hs, hl⟩ := Option.bind_eq_some_iff.mp hl
    obtain ⟨output, -, hl⟩ := Option.bind_eq_some_iff.mp hl
    cases hl
    simp only [hc source (OrderedMap.mem_values_of_get? hs)]

theorem mirrored_writeLayeredBrdf (scene : Scene) (additive : Bool) :
    Pass.writeLayeredBrdf { pass with scene := scene } further grown node additive =
      pass.writeLayeredBrdf compile tree node additive := by
  have hlayer : ∀ layer ∈ List.range' 1 (node.inputs.length / 2),
      Pass.brdfLayer { pass with scene := scene } further grown node layer =
        pass.brdfLayer compile tree node layer := by
    intro layer _
    unfold Pass.brdfLayer
    simp only [ht.isLinked hn, ht.name, mirrored_resolveSocket ht hc hn,
      mirrored_linkedWeight ht hc hn]
    rfl
  unfold Pass.writeLayeredBrdf
  simp only [ht.name, collect_congr hlayer]
  rfl

end Nodes

section Trees

variable {compile further : NodeCompiler} {tree grown : NodeTree} (ht : tree.Mirrors grown)
  (hc : MirroredOn compile further tree grown)

include ht hc

theorem mirrored_writeMaterialTree :
    writeMaterialTree further grown = writeMaterialTree compile tree := by
  unfold writeMaterialTree materialToken
  rw [ht.materialOutput]
  cases ho : tree.materialOutput? with
  | none => simp only [ht.name]
  | some output =>
    have hmem : output ∈ tree.nodes.values := List.mem_of_find?_eq_some ho
    simp only [ht.isLinked hmem, ht.name, mirrored_resolveInput ht hc hmem]

theorem mirrored_writeObjectTree :
    writeObjectTree further grown = writeObjectTree compile tree := by
  unfold writeObjectTree
  rw [ht.objectOutput]
  cases ho : tree.objectOutput? with
  | none => simp only [ht.name]
  | some output =>
    simp only [mirrored_resolveInput ht hc (List.mem_of_find?_eq_some ho)]

end Trees

/-! ### Passes over scenes that look alike -/

/-- The pass over another scene. -/
def Pass.over (pass : Pass) (scene : Scene) : Pass := { pass with scene := scene }

/-- Two compilers of nodes do the same for the nodes of trees that look alike. -/
def Mirrored (compile further : NodeCompiler) : Prop :=
  ∀ tree grown, tree.Mirrors grown → MirroredOn compile further tree grown

section Passes

variable {pass : Pass} {grown : Scene} {compile further : NodeCompiler}
  (hs : pass.scene.Mirrors grown) (hc : Mirrored compile further)

include hs hc

theorem mirrored_slotMaterial (slot : Option String) :
    (pass.over grown).slotMaterial further slot = pass.slotMaterial compile slot := by
  unfold Pass.slotMaterial
  cases slot with
  | none => rfl
  | some material =>
    have htree := hs.materialTree? material
    change Option.Rel _ _ ((pass.over grown).scene.materialTree? material) at htree
    simp only [Option.bind_some]
    generalize pass.scene.materialTree? material = own at htree
    generalize (pass.over grown).scene.materialTree? material = other at htree
    cases htree with
    | none => rfl
    | some ht => simp only [mirrored_writeMaterialTree ht (hc _ _ ht)]

theorem mirrored_writeObjectMaterial :
    (pass.over grown).writeObjectMaterial further = pass.writeObjectMaterial compile := by
  have hobject : ∀ name, (pass.over grown).scene.object? name = pass.scene.object? name :=
    fun name => congrArg (·.get? name) hs.objects
  unfold Pass.writeObjectMaterial
  simp only [hobject, collect_congr fun slot _ => mirrored_slotMaterial hs hc slot]
  rfl

theorem mirrored_buildObject (name : String) (object : SceneObject) :
    (pass.over grown).buildObject further name object = pass.buildObject compile name object := by
  unfold Pass.buildObject
  cases object.tree with
  | none =>
    unfold Pass.writePlainObject
    simp only [mirrored_writeObjectMaterial hs hc]
    rfl
  | some key =>
    have htree := hs.tree? key
    change Option.Rel _ _ ((pass.over grown).scene.tree? key) at htree
    simp only
    generalize pass.scene.tree? key = own at htree
    generalize (pass.over grown).scene.tree? key = other at htree
    cases htree with
    | none => rfl
    | some ht => exact mirrored_writeObjectTree ht (hc _ _ ht)

theorem mirrored_writeObject (name : String) :
    (pass.over grown).writeObject further name = pass.writeObject compile name := by
  have hobject : (pass.over grown).scene.object? name = pass.scene.object? name :=
    congrArg (·.get? name) hs.objects
  unfold Pass.writeObject
  simp only [hobject, mirrored_buildObject hs hc]

theorem mirrored_select {tree other : NodeTree} (ht : tree.Mirrors other) (node : Node)
    (names : List String) : (pass.over grown).select further other node names =
      pass.select compile tree node names := by
  have hmember : ∀ name ∈ names, (pass.over grown).selectMember further other node name =
      pass.selectMember compile tree node name := by
    intro name _
    unfold Pass.selectMember
    simp only [ht.name, mirrored_writeObject hs hc]
  unfold Pass.select
  rw [collect_congr hmember]

/-- One step of the walk is the same for trees that look alike, if the steps below are. -/
theorem mirrored_compileNode :
    Mirrored (pass.compileNode compile) ((pass.over grown).compileNode further) := by
  intro tree other ht node hn useLiterals
  have hon := hc tree other ht
  unfold Pass.compileNode
  cases node.kind with
  | plugin category plugin =>
    exact (mirrored_once ht _).trans
      (congrArg _ (mirrored_writePluginNode ht hon hn grown plugin useLiterals))
  | unset => rfl
  | layeredTexture =>
    exact (mirrored_once ht _).trans
      (congrArg _ (mirrored_writeLayeredTexture ht hon hn grown))
  | layeredBrdf additive =>
    exact (mirrored_once ht _).trans
      (congrArg _ (mirrored_writeLayeredBrdf ht hon hn grown additive))
  | selectObject object =>
    have hobject : ∀ name, (pass.over grown).scene.object? name = pass.scene.object? name :=
      fun name => congrArg (·.get? name) hs.objects
    simp only [Pass.selectObject, hobject, mirrored_select hs hc ht]
  | selectGroup group =>
    have hgroup : (pass.over grown).scene.group? = pass.scene.group? :=
      funext fun name => congrArg (·.get? name) hs.groups
    simp only [Pass.selectGroup, hgroup, mirrored_select hs hc ht]
  | objectGeometry => rfl
  | objectMaterial => simp only [mirrored_writeObjectMaterial hs hc]
  | materialOutput refuses => exact mirrored_resolveInput ht hon hn _ _
  | objectOutput => exact mirrored_resolveInput ht hon hn _ _

omit hc in
/-- The walk does the same for trees that look alike, at every depth. -/
theorem mirrored_walk (depth : Nat) : Mirrored (pass.walk depth) ((pass.over grown).walk depth) := by
  induction depth with
  | zero => exact fun _ _ _ _ _ _ => rfl
  | succ depth ih => exact mirrored_compileNode hs ih

end Passes

/-! ### Whole passes -/

namespace Pass

variable (pass : Pass) (compile : NodeCompiler)

/-- Compiles the material that stands for all others, with the given compiler of nodes. -/
def overrideWith : Compile Unit :=
  match pass.settings.overrideMaterial with
  | none => return ()
  | some material =>
    match pass.scene.materialTree? material with
    | none => report (.overrideWithoutTree material)
    | some tree => do
      let token ← writeMaterialTree compile tree
      report (.overriding token)
      modify fun s => { s with overrideToken := some token }

/-- Compiles the tree of a material, with the given compiler of nodes. -/
def materialWith (material : String) : Compile Unit :=
  match pass.scene.materialTree? material with
  | none => return ()
  | some tree => do
    let _ ← writeMaterialTree compile tree
    return ()

/-- Compiles an object, with the given compiler of nodes. -/
def objectWith (object : String) : Compile Unit := do
  let _ ← pass.writeObject compile object
  return ()

/-- What a pass does behind its defaults, with the given compiler of nodes. -/
def sceneWith : Compile Unit := do
  pass.overrideWith compile
  pass.scene.materials.keys.forM (pass.materialWith compile)
  pass.scene.objects.keys.forM (pass.objectWith compile)

/-- Runs a pass with the given compiler of nodes. -/
def runWith : Compile Summary := do
  report (.exporting pass.scene.name pass.frame)
  modify fun s => { s with ledger := {}, scope := none, overrideToken := none }
  writeRemark (headerText pass.scene.name pass.frame)
  pass.writeDefaults
  pass.sceneWith compile
  pass.closing

/-- A pass runs with the walk that is bounded by its scene. -/
theorem runWith_compiler : pass.runWith pass.compiler = pass.run := by
  unfold runWith sceneWith run writeScene
  simp only [bind_assoc]
  rfl

end Pass

section Passes

variable {pass : Pass} {grown : Scene} {compile further : NodeCompiler}

theorem mirrored_sceneWith (hs : pass.scene.Mirrors grown) (hc : Mirrored compile further) :
    (pass.over grown).sceneWith further = pass.sceneWith compile := by
  have hmaterial : (pass.over grown).materialWith further = pass.materialWith compile := by
    funext material
    have htree := hs.materialTree? material
    change Option.Rel _ _ ((pass.over grown).scene.materialTree? material) at htree
    unfold Pass.materialWith
    generalize pass.scene.materialTree? material = own at htree
    generalize (pass.over grown).scene.materialTree? material = other at htree
    cases htree with
    | none => rfl
    | some ht => simp only [mirrored_writeMaterialTree ht (hc _ _ ht)]
  have hobject : (pass.over grown).objectWith further = pass.objectWith compile := by
    funext object
    unfold Pass.objectWith
    rw [mirrored_writeObject hs hc]
  have hoverride : (pass.over grown).overrideWith further = pass.overrideWith compile := by
    unfold Pass.overrideWith
    change (match pass.settings.overrideMaterial with | none => _ | some material => _) = _
    cases pass.settings.overrideMaterial with
    | none => rfl
    | some material =>
      have htree := hs.materialTree? material
      change Option.Rel _ _ ((pass.over grown).scene.materialTree? material) at htree
      simp only
      generalize pass.scene.materialTree? material = own at htree
      generalize (pass.over grown).scene.materialTree? material = other at htree
      cases htree with
      | none => rfl
      | some ht => simp only [mirrored_writeMaterialTree ht (hc _ _ ht)]
  unfold Pass.sceneWith
  rw [hoverride, hmaterial, hobject]
  show (pass.overrideWith compile >>= fun _ => grown.materials.keys.forM _ >>= fun _ =>
    grown.objects.keys.forM _) = _
  rw [hs.materials, hs.objects]

/-- A pass over a scene that looks the same is the same, with compilers of nodes that are. -/
theorem mirrored_runWith (hs : pass.scene.Mirrors grown) (hc : Mirrored compile further) :
    (pass.over grown).runWith further = pass.runWith compile := by
  unfold Pass.runWith
  rw [mirrored_sceneWith hs hc]
  have hname : (pass.over grown).scene.name = pass.scene.name := hs.name
  rw [hname]
  rfl

end Passes

/-! ### Scenes with more nodes -/

/-- A tree with as many nodes or more in the place of another one. -/
theorem length_nodes_setEntry_le {key : String} {tree grown : NodeTree}
    (hle : tree.nodes.values.length ≤ grown.nodes.values.length) :
    ∀ {es : List (String × NodeTree)}, OrderedMap.lookupEntry key es = some tree →
      ((es.map Prod.snd).flatMap (·.nodes.values)).length ≤
        (((OrderedMap.setEntry key grown es).map Prod.snd).flatMap (·.nodes.values)).length
  | (k, first) :: rest, h => by
    by_cases heq : k = key
    · rw [OrderedMap.lookupEntry, if_pos heq] at h
      cases h
      simpa [OrderedMap.setEntry, heq] using hle
    · rw [OrderedMap.lookupEntry, if_neg heq] at h
      simpa [OrderedMap.setEntry, heq] using length_nodes_setEntry_le hle h

/-- With more nodes in a tree, the bound of the walk is no smaller. -/
theorem walkDepth_le_of_grownBy {scene : Scene} {key : String} {tree grown : NodeTree}
    {added : List Node} (hkey : scene.tree? key = some tree) (h : tree.GrownBy added grown) :
    scene.walkDepth ≤ ({ scene with trees := scene.trees.insert key grown } : Scene).walkDepth := by
  have hcount : scene.nodeCount ≤
      ({ scene with trees := scene.trees.insert key grown } : Scene).nodeCount :=
    length_nodes_setEntry_le (by rw [h.values, List.length_append]; exact Nat.le_add_right _ _) hkey
  have hmarks := Nat.add_le_add_right (Nat.mul_le_mul_right (scene.objects.size + 2) hcount)
    (scene.objects.size + 1)
  exact Nat.add_le_add_right (Nat.mul_le_mul hmarks (Nat.add_le_add_right hcount 1)) 1

/-- A pass with a compiler that goes deeper gives the same, unless the bound was met before. -/
theorem deepens_runWith {pass : Pass} {compile further : NodeCompiler}
    (hc : (depthPairing pass).PairsAll compile further) :
    Deepens (pass.runWith compile) (pass.runWith further) := by
  have hmaterial := fun tree => (depthPairing pass).writeMaterialTree hc tree
  have hoverride : Deepens (pass.overrideWith compile) (pass.overrideWith further) := by
    unfold Pass.overrideWith
    split
    · exact .refl _
    · split
      · exact .refl _
      · exact .bind (hmaterial _) fun _ => .refl _
  have hscene : Deepens (pass.sceneWith compile) (pass.sceneWith further) := by
    refine hoverride.bind fun _ => ?_
    refine ((depthPairing pass).forM fun material _ => ?_).bind fun _ =>
      (depthPairing pass).forM fun object _ =>
        Deepens.bind ((depthPairing pass).writeObject hc object) fun _ => .refl _
    unfold Pass.materialWith
    split
    · exact .refl _
    · exact Deepens.bind (hmaterial _) fun _ => .refl _
  refine (Deepens.refl _).bind fun _ => (Deepens.refl _).bind fun _ => (Deepens.refl _).bind
    fun _ => (Deepens.refl _).bind fun _ => hscene.bind fun _ => .refl _

/-- **Nodes that no output needs are not seen.** A tree of the scene gets more nodes behind its
own, none of them an end and none of them named in the tree or its links, and more links into
these nodes. Then a pass does what it did: with any bound on the walk the two passes are the same
step, which gives the same result and summary and leaves the same records, meshes and reports. A
pass that ends within the bound of its scene ends in the same way in the scene with more nodes,
whose bound is larger; and if nothing comes back to itself over the ends of trees, it does. -/
theorem unneeded_nodes_unseen (pass : Pass) {key : String} {tree grown : NodeTree}
    {added : List Node} (hkey : pass.scene.tree? key = some tree) (hkeyed : tree.Keyed)
    (h : tree.GrownBy added grown) :
    let other := pass.over { pass.scene with trees := pass.scene.trees.insert key grown }
    (∀ depth, other.runWith (other.walk depth) = pass.runWith (pass.walk depth)) ∧
      (∀ s, (pass.run.runOn s).1 ≠ .error .depthExceeded →
        other.run.runOn s = pass.run.runOn s) ∧
      (pass.scene.Straight → ∀ s, other.run.runOn s = pass.run.runOn s) := by
  intro other
  have hscene := (h.mirrors hkeyed).scene hkey
  have hsame : ∀ depth, other.runWith (other.walk depth) = pass.runWith (pass.walk depth) :=
    fun depth => mirrored_runWith hscene (mirrored_walk hscene depth)
  have hends : ∀ s, (pass.run.runOn s).1 ≠ .error .depthExceeded →
      other.run.runOn s = pass.run.runOn s := by
    intro s hend
    have hdeep := deepens_runWith (walk_deepens other (walkDepth_le_of_grownBy hkey h)) s
    rw [hsame, show pass.walk pass.scene.walkDepth = pass.compiler from rfl,
      Pass.runWith_compiler] at hdeep
    rw [← other.runWith_compiler]
    exact hdeep.resolve_left hend
  exact ⟨hsame, hends, fun hstraight s => hends s (unbounded_run hstraight.ringFree s)⟩

/-- The tree of a material: a shading model behind an end. -/
def oakNodes : List Node :=
  [{ name := "End", kind := .materialOutput false,
      inputs := [⟨"Material", .input, .material, none, none⟩] },
    { name := "Grain", kind := .plugin .brdf "BRDFDiffuse",
      inputs := [⟨"Colour", .input, .texture, some "color_tex", none⟩],
      outputs := [⟨"Out", .output, .brdf, none, none⟩] }]

/-- Two blends that are linked in a ring and from the shading model, and a selector. -/
def oakKnots : List Node :=
  [{ name := "Knot", kind := .layeredTexture,
      inputs := [⟨"Left", .input, .texture, none, none⟩, ⟨"Right", .input, .texture, none, none⟩] },
    { name := "Ring", kind := .layeredTexture,
      inputs := [⟨"Left", .input, .texture, none, none⟩] },
    { name := "Pick", kind := .selectObject (some "Door") }]

/-- The tree without them. -/
def plainOak : NodeTree := .ofParts "Oak" oakNodes [⟨⟨1⟩, ⟨"Grain", "Out"⟩, ⟨"End", "Material"⟩⟩]

/-- The tree with them. -/
def knottyOak : NodeTree := .ofParts "Oak" (oakNodes ++ oakKnots)
  [⟨⟨2⟩, ⟨"Ring", "Out"⟩, ⟨"Knot", "Left"⟩⟩, ⟨⟨3⟩, ⟨"Grain", "Out"⟩, ⟨"Knot", "Right"⟩⟩,
    ⟨⟨1⟩, ⟨"Grain", "Out"⟩, ⟨"End", "Material"⟩⟩, ⟨⟨4⟩, ⟨"Knot", "Out"⟩, ⟨"Ring", "Left"⟩⟩]

/-- A door of oak. -/
def oakPass : Pass where
  scene := ((({} : Scene).addTree plainOak).addMaterial "Oak" ⟨some "Oak"⟩).addObject "Door"
    { mesh := some "Door", slots := [some "Oak"] }
  catalog := Catalog.builtin
  settings := {}
  geometry := .external
  frame := 1

theorem unneeded_nodes_unseen_oak :
    oakPass.scene.tree? "Oak" = some plainOak ∧ plainOak.Keyed ∧
      plainOak.GrownBy oakKnots knottyOak ∧ oakPass.scene.Straight ∧
    (oakPass.over (oakPass.scene.addTree knottyOak)).run.runOn {} = oakPass.run.runOn {} := by
  have hgrown : plainOak.GrownBy oakKnots knottyOak :=
    ⟨rfl, by decide, by decide, by decide, by decide⟩
  have hstraight : oakPass.scene.Straight := Scene.straight_of_direct (by decide)
  have hkeyed : plainOak.Keyed := NodeTree.keyed_ofParts _ _ _
  refine ⟨by decide, hkeyed, hgrown, hstraight, ?_⟩
  have hoak : oakPass.scene.tree? "Oak" = some plainOak := by decide
  exact (unneeded_nodes_unseen oakPass hoak hkeyed hgrown).2.2 hstraight {}

end ShadeNet
