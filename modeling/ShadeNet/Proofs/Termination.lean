/-
# Every call ends

Only the ends of trees and object materials are compiled without a mark. If no tree
runs its ends in a ring and no object material leads back to itself over ends alone,
no node passes on what it has itself, and the bound of the walk, which is made from the
scene alone, is enough in every state. Then a deeper walk is the same walk.

Key definitions: `NodeTree.Relays`, `Scene.MaterialReturns`, `Scene.Straight`,
`Pass.Settles`.
Key theorems: `Scene.Straight.ringFree`, `walk_deepens`, `every_call_ends`.
-/
import ShadeNet.Proofs.Escape
import ShadeNet.Proofs.Pairing
import ShadeNet.Schema.Builtin

namespace ShadeNet

open Relation

/-! ### Ends of trees -/

/-- The end of a tree hands on the value of another node of the tree. -/
def NodeTree.Relays (tree : NodeTree) (a b : Node) : Prop :=
  (a.kind.isMaterialOutput = true ∧ tree.feeder? a "Material" = some b) ∨
    (a.kind.isObjectOutput = true ∧ tree.feeder? a "Object" = some b)

namespace Scene

/-- A node for the material of an object stands, behind ends alone, in the tree of a
material of that object. -/
def MaterialReturns (s : Scene) (tree : NodeTree) (node : Node) : Prop :=
  node.kind = .objectMaterial ∧ ∃ name object slot output, s.object? name = some object ∧
    slot ∈ object.slots ∧ slot.bind s.materialTree? = some tree ∧
    tree.materialOutput? = some output ∧ ReflTransGen tree.Relays output node

/-- Nothing comes back to itself over the ends of trees alone. -/
structure Straight (s : Scene) : Prop where
  ends : ∀ tree ∈ s.trees.values, ∀ node ∈ tree.nodes.values, ¬ TransGen tree.Relays node node
  materials : ∀ tree ∈ s.trees.values, ∀ node ∈ tree.nodes.values, ¬ s.MaterialReturns tree node

end Scene

theorem NodeTree.mem_of_feeder? {tree : NodeTree} {node source : Node} {input : String}
    (h : tree.feeder? node input = some source) : source ∈ tree.nodes.values := by
  unfold NodeTree.feeder? at h
  obtain ⟨socket, -, h⟩ := Option.bind_eq_some_iff.mp h
  obtain ⟨link, -, h⟩ := Option.bind_eq_some_iff.mp h
  exact OrderedMap.mem_values_of_get? h

theorem NodeTree.Relays.mem {tree : NodeTree} {a b : Node} (h : tree.Relays a b) :
    b ∈ tree.nodes.values := by
  rcases h with ⟨-, h⟩ | ⟨-, h⟩ <;> exact mem_of_feeder? h

/-- A node passes on the value of another node of its tree, or it is an object material
and passes on the value at the end of a material of the object. -/
theorem PassesTo.cases {scene : Scene} {object : Option String} {x y : NodeTree × Node}
    (h : PassesTo scene object x y) : (x.1 = y.1 ∧ x.1.Relays x.2 y.2) ∨
      (x.2.kind = .objectMaterial ∧ ∃ name holder slot, scene.object? name = some holder ∧
        slot ∈ holder.slots ∧ slot.bind scene.materialTree? = some y.1 ∧
        y.1.materialOutput? = some y.2) := by
  cases h with
  | material hk hf => exact Or.inl ⟨rfl, Or.inl ⟨by simp [hk, NodeKind.isMaterialOutput], hf⟩⟩
  | object hk hf => exact Or.inl ⟨rfl, Or.inr ⟨by simp [hk, NodeKind.isObjectOutput], hf⟩⟩
  | slot hk _ ho hs hm hout => exact Or.inr ⟨hk, _, _, _, ho, hs, hm, hout⟩

theorem PassesTo.relays {scene : Scene} {object : Option String} {x y : NodeTree × Node}
    (h : PassesTo scene object x y) (hx : x.2.kind ≠ .objectMaterial) :
    x.1 = y.1 ∧ x.1.Relays x.2 y.2 :=
  h.cases.resolve_right fun hm => hx hm.1

section Rings

variable {scene : Scene} {object : Option String} {x y : NodeTree × Node}

/-- A way to an object material begins with the ends of a tree alone, up to the first
object material on it. -/
theorem relays_of_passesTo (h : ReflTransGen (PassesTo scene object) x y)
    (hy : y.2.kind = .objectMaterial) :
    ∃ node, node.kind = .objectMaterial ∧ ReflTransGen x.1.Relays x.2 node := by
  induction h using ReflTransGen.head_induction_on with
  | refl => exact ⟨y.2, hy, .refl⟩
  | @head x z hxz _ ih =>
    by_cases hx : x.2.kind = .objectMaterial
    · exact ⟨x.2, hx, .refl⟩
    · obtain ⟨htree, hstep⟩ := hxz.relays hx
      obtain ⟨node, hnode, hpath⟩ := ih
      rw [← htree] at hpath
      exact ⟨node, hnode, hpath.head hstep⟩

/-- A way without an object material on it, but for its end, stays within one tree. -/
theorem relays_or_material (h : TransGen (PassesTo scene object) x y) :
    (x.1 = y.1 ∧ TransGen x.1.Relays x.2 y.2) ∨
      ∃ z, z.2.kind = .objectMaterial ∧ ReflTransGen (PassesTo scene object) x z ∧
        TransGen (PassesTo scene object) z y := by
  induction h using TransGen.head_induction_on with
  | @single x hxy =>
    by_cases hx : x.2.kind = .objectMaterial
    · exact Or.inr ⟨x, hx, .refl, .single hxy⟩
    · exact Or.inl ⟨(hxy.relays hx).1, .single (hxy.relays hx).2⟩
  | @head x w hxw hwy ih =>
    by_cases hx : x.2.kind = .objectMaterial
    · exact Or.inr ⟨x, hx, .refl, hwy.head hxw⟩
    · obtain ⟨htree, hstep⟩ := hxw.relays hx
      rcases ih with ⟨htree', hpath⟩ | ⟨z, hz, hwz, hzy⟩
      · rw [← htree] at htree' hpath
        exact Or.inl ⟨htree', hpath.head hstep⟩
      · exact Or.inr ⟨z, hz, hwz.head hxw, hzy⟩

theorem mem_of_relays {tree : NodeTree} {a b : Node} (ha : a ∈ tree.nodes.values)
    (h : ReflTransGen tree.Relays a b) : b ∈ tree.nodes.values := by
  rcases h.cases_tail with rfl | ⟨c, -, hcb⟩
  · exact ha
  · exact hcb.mem

/-- Where nothing comes back to itself over ends, no node passes on what it has itself. -/
theorem Scene.Straight.ringFree {s : Scene} (h : s.Straight) : s.RingFree := by
  intro object x hx hring
  obtain ⟨htree, hnode⟩ := Scene.mem_positions.mp hx
  rcases relays_or_material hring with ⟨-, hpath⟩ | ⟨z, hz, hxz, hzx⟩
  · exact h.ends x.1 htree x.2 hnode hpath
  · -- from the object material around the ring, back to itself
    obtain ⟨y, hzy, hyz⟩ := TransGen.head'_iff.mp (hzx.trans_left hxz)
    rcases hzy.cases with ⟨-, hstep⟩ | ⟨-, name, holder, slot, ho, hs, hm, hout⟩
    · rcases hstep with ⟨hk, -⟩ | ⟨hk, -⟩ <;> rw [hz] at hk <;> cases hk
    · obtain ⟨node, hkind, hpath⟩ := relays_of_passesTo hyz hz
      obtain ⟨material, -, hmaterial⟩ := Option.bind_eq_some_iff.mp hm
      obtain ⟨key, -, hkey⟩ := Option.bind_eq_some_iff.mp hmaterial
      exact h.materials y.1 (OrderedMap.mem_values_of_get? hkey) node
        (mem_of_relays (List.mem_of_find?_eq_some hout) hpath)
        ⟨hkind, name, holder, slot, y.2, ho, hs, hm, hout, hpath⟩

/-- Nothing comes back over ends where no end is linked to another one, and no end of a
material tree to an object material. -/
theorem Scene.straight_of_direct {s : Scene}
    (h : ∀ tree ∈ s.trees.values, ∀ node ∈ tree.nodes.values,
      (node.kind.isMaterialOutput = true → ∀ source ∈ tree.feeder? node "Material",
        source.kind.isMaterialOutput = false ∧ source.kind.isObjectOutput = false ∧
          source.kind ≠ .objectMaterial) ∧
      (node.kind.isObjectOutput = true → ∀ source ∈ tree.feeder? node "Object",
        source.kind.isMaterialOutput = false ∧ source.kind.isObjectOutput = false)) :
    s.Straight := by
  -- behind a link of an end there is no end
  have hlast : ∀ tree ∈ s.trees.values, ∀ a ∈ tree.nodes.values, ∀ b c,
      tree.Relays a b → ¬ tree.Relays b c := by
    intro tree ht a ha b c hab hbc
    have hb : b.kind.isMaterialOutput = false ∧ b.kind.isObjectOutput = false := by
      rcases hab with ⟨hk, hf⟩ | ⟨hk, hf⟩
      · obtain ⟨hm, ho, -⟩ := (h tree ht a ha).1 hk b hf
        exact ⟨hm, ho⟩
      · exact (h tree ht a ha).2 hk b hf
    rcases hbc with ⟨hk, -⟩ | ⟨hk, -⟩
    · simp [hb.1] at hk
    · simp [hb.2] at hk
  refine ⟨fun tree ht node hn hring => ?_, fun tree ht node hn hreturns => ?_⟩
  · obtain ⟨b, hab, hpath⟩ := TransGen.head'_iff.mp hring
    rcases hpath.cases_head with rfl | ⟨c, hbc, -⟩
    · exact hlast tree ht b hn b b hab hab
    · exact hlast tree ht node hn b c hab hbc
  · obtain ⟨hkind, name, object, slot, output, -, -, -, hout, hpath⟩ := hreturns
    have hmem : output ∈ tree.nodes.values := List.mem_of_find?_eq_some hout
    have hend : output.kind.isMaterialOutput = true :=
      List.find?_some (p := fun n : Node => n.kind.isMaterialOutput) hout
    have hother : output.kind.isObjectOutput = false := by
      cases hko : output.kind <;> rw [hko] at hend <;> first | rfl | cases hend
    rcases hpath.cases_head with rfl | ⟨b, hab, hpath⟩
    · rw [hkind] at hend
      cases hend
    · rcases hpath.cases_head with rfl | ⟨c, hbc, -⟩
      · rcases hab with ⟨hk, hf⟩ | ⟨hk, -⟩
        · exact ((h tree ht output hmem).1 hk b hf).2.2 hkind
        · simp [hother] at hk
      · exact hlast tree ht output hmem b c hab hbc

end Rings

/-! ### Deeper walks -/

variable {α : Type} {pass : Pass}

/-- A step gives what another one gives, unless the bound of the walk stopped it. -/
def Deepens (c d : Compile α) : Prop :=
  ∀ s, (c.runOn s).1 = .error .depthExceeded ∨ d.runOn s = c.runOn s

theorem Deepens.refl (c : Compile α) : Deepens c c := fun _ => Or.inr rfl

theorem Deepens.bind {β : Type} {c d : Compile α} {f g : α → Compile β} (hc : Deepens c d)
    (hf : ∀ a, Deepens (f a) (g a)) : Deepens (c >>= f) (d >>= g) := by
  intro s
  rcases ho : c.runOn s with ⟨e | a, t⟩
  · have hc := hc s
    rw [ho] at hc
    rw [Compile.runOn_bind_error ho]
    rcases hc with he | hd
    · cases he
      exact Or.inl rfl
    · exact Or.inr (Compile.runOn_bind_error hd g)
  · have hc := hc s
    rw [ho] at hc
    have hd : d.runOn s = (.ok a, t) := hc.resolve_left nofun
    rw [Compile.runOn_bind_ok ho, Compile.runOn_bind_ok hd]
    exact hf a t

/-- What handles cycles hands the bound on. -/
theorem Deepens.attempt {β : Type} {c d : Compile α} {g : Except Failure α → Compile β}
    (hc : Deepens c d) (hg : HandsOn g) :
    Deepens (ShadeNet.attempt c >>= g) (ShadeNet.attempt d >>= g) := by
  intro s
  rw [Compile.runOn_bind_ok (Compile.runOn_attempt c s),
    Compile.runOn_bind_ok (Compile.runOn_attempt d s)]
  rcases hc s with he | hd
  · rw [he]
    exact Or.inl (hg .depthExceeded rfl _).1
  · rw [hd]
    exact Or.inr rfl

/-- A deeper walk as a comparison that the walk keeps. -/
def depthPairing (pass : Pass) : Pairing pass pass where
  Pairs := Deepens
  scene := rfl
  catalog := rfl
  override := rfl
  reports _ _ _ := rfl
  pure _ := .refl _
  throw _ := .refl _
  get h _ := Deepens.bind (.refl _) h
  report _ := .refl _
  modifyLedger _ := .refl _
  claimName _ := .refl _
  replaceScope _ := .refl _
  choose _ := .refl _
  emit h := h.eq ▸ .refl _
  writeGeometry := .refl _
  bind := Deepens.bind
  attempt hc _ hg := hc.attempt hg

/-- A walk that may go deeper gives the same, unless the bound was met before. -/
theorem walk_deepens (pass : Pass) {depth more : Nat} (h : depth ≤ more) :
    (depthPairing pass).PairsAll (pass.walk depth) (pass.walk more) := by
  induction depth generalizing more with
  | zero => exact fun _ _ _ _ => Or.inl rfl
  | succ depth ih =>
    obtain ⟨less, rfl⟩ := Nat.exists_eq_add_of_le' h
    have hle : depth ≤ less + depth := Nat.le_add_left depth less
    exact (depthPairing pass).compileNode (ih hle)

/-! ### Walks that end -/

/-- A call of the walk ends: in every state it stays within the bound, and with any
larger bound it has the same outcome. -/
def Pass.Settles (pass : Pass) (call : NodeCompiler → Compile α) : Prop :=
  ∀ s : PassState, ((call pass.compiler).runOn s).1 ≠ .error .depthExceeded ∧
    ∀ depth, pass.scene.walkDepth ≤ depth →
      (call (pass.walk depth)).runOn s = (call pass.compiler).runOn s

theorem Pass.Settles.of_deepens {call : NodeCompiler → Compile α}
    (hend : ∀ s : PassState, ((call pass.compiler).runOn s).1 ≠ .error .depthExceeded)
    (hdeep : ∀ depth, pass.scene.walkDepth ≤ depth →
      Deepens (call pass.compiler) (call (pass.walk depth))) : pass.Settles call :=
  fun s => ⟨hend s, fun depth hle => (hdeep depth hle s).resolve_left (hend s)⟩

theorem cycle_ne_depthExceeded (tree node : String) :
    Failure.cycle tree node ≠ .depthExceeded := nofun

/-- Every failure but the bound of the walk may occur. -/
def endingGuard (pass : Pass) : Guard (frameComparison pass) where
  Inv _ := True
  Known _ _ := True
  Fault f := f ≠ .depthExceeded
  lasts _ _ := trivial
  mark _ _ _ := trivial
  enter _ _ := trivial
  known_source _ _ := trivial
  known_tree _ _ := trivial
  fault_cycle := cycle_ne_depthExceeded
  fault_emission {s t f base reports record} _ he := by
    rw [claimAndEmit_runOn] at he
    rw [emit_error he]
    exact nofun
  fault_geometry {s t f} _ he := by
    obtain ⟨message, rfl⟩ := writeGeometry_error he
    exact nofun

theorem ne_of_ends {Inv : PassState → Prop} {Rel : PassState → PassState → Prop}
    {Q : α → PassState → Prop} {s : PassState} {o : Except Failure α × PassState}
    (h : Ends Inv Rel (· ≠ .depthExceeded) Q s o) : o.1 ≠ .error .depthExceeded := by
  rcases o with ⟨f | a, t⟩
  · rintro ⟨⟩
    exact h.2.1 rfl
  · exact nofun

/-- A step that does not meet the bound of the walk. -/
def Unbounded (c : Compile α) : Prop := ∀ s, (c.runOn s).1 ≠ .error .depthExceeded

theorem composes_unbounded : Composes Unbounded where
  pure _ _ := nofun
  bind {α β c g} hc hg s := by
    rcases ho : c.runOn s with ⟨e | a, t⟩
    · have hc := hc s
      rw [ho] at hc
      rw [Compile.runOn_bind_error ho]
      rintro ⟨⟩
      exact hc rfl
    · rw [Compile.runOn_bind_ok ho]
      exact hg a t

theorem unbounded_emit (pass : Pass) (r : Record) : Unbounded (pass.emit r) := by
  intro s
  rcases he : (pass.emit r).runOn s with ⟨f | token, t⟩
  · rw [emit_error he]
    exact nofun
  · exact nofun

section RingFree

variable (h : pass.scene.RingFree)

include h

theorem unbounded_compiler {tree : NodeTree} {node : Node}
    (hk : (tree, node) ∈ pass.scene.positions) (useLiterals : Bool) :
    Unbounded (pass.compiler tree node useLiterals) := by
  intro s
  obtain ⟨names, hnames, marks, hb, hc⟩ :=
    Guard.compiles_compiler (G := endingGuard pass) h (s := s) trivial
  exact ne_of_ends (hc tree node useLiterals hk s hb trivial)

theorem unbounded_writeMaterialTree {tree : NodeTree} (ht : tree ∈ pass.scene.trees.values) :
    Unbounded (writeMaterialTree pass.compiler tree) := by
  intro s
  obtain ⟨names, hnames, marks, hb, hc⟩ :=
    Guard.compiles_compiler (G := endingGuard pass) h (s := s) trivial
  exact ne_of_ends (Contract.keeps_writeMaterialTree hc
    (fun _ _ _ _ _ _ hn => Scene.mem_positions.mpr ⟨ht, hn⟩) s hb trivial)

theorem unbounded_writeObject (name : String) :
    Unbounded (pass.writeObject pass.compiler name) := fun _ =>
  ne_of_ends (Guard.ends_writeObject (G := endingGuard pass) h name trivial)

theorem parts_unbounded : pass.Parts Unbounded where
  composes := composes_unbounded
  get _ := nofun
  report _ _ := nofun
  override _ _ := nofun
  emit := unbounded_emit pass
  material {material tree} hm := by
    obtain ⟨key, -, hkey⟩ := Option.bind_eq_some_iff.mp hm
    exact unbounded_writeMaterialTree h (OrderedMap.mem_values_of_get? hkey)
  object := unbounded_writeObject h

theorem unbounded_run : Unbounded pass.run := by
  intro s
  have hclosing : Unbounded pass.closing := fun _ => nofun
  rw [Pass.run_runOn]
  unfold Pass.afterHead
  split
  · exact composes_unbounded.bind ((parts_unbounded h).body _) (fun _ => hclosing) _
  · exact nofun

end RingFree

/-- **Every call ends.** In a scene where no end of a tree and no object material comes
back to itself over the ends of trees alone, whatever else its links and selectors do, a
call that compiles a node, a material tree or an object ends in every state within a
bound made from the scene, and so does a pass. The outcome does not depend on the
bound: with any larger one it is the same. -/
theorem every_call_ends (pass : Pass) (h : pass.scene.Straight) :
    (∀ tree ∈ pass.scene.trees.values, ∀ node ∈ tree.nodes.values, ∀ useLiterals,
      pass.Settles fun compile => compile tree node useLiterals) ∧
    (∀ tree ∈ pass.scene.trees.values,
      pass.Settles fun compile => writeMaterialTree compile tree) ∧
    (∀ object, pass.Settles fun compile => pass.writeObject compile object) ∧
    ∀ s : PassState, (pass.run.runOn s).1 ≠ .error .depthExceeded := by
  have hdeep : ∀ depth, pass.scene.walkDepth ≤ depth →
      (depthPairing pass).PairsAll pass.compiler (pass.walk depth) := fun depth hle =>
    walk_deepens pass hle
  refine ⟨fun tree ht node hn useLiterals => .of_deepens ?_ fun depth hle => ?_,
    fun tree ht => .of_deepens (unbounded_writeMaterialTree h.ringFree ht) fun depth hle => ?_,
    fun object => .of_deepens (unbounded_writeObject h.ringFree object) fun depth hle => ?_,
    unbounded_run h.ringFree⟩
  · exact unbounded_compiler h.ringFree (Scene.mem_positions.mpr ⟨ht, hn⟩) useLiterals
  · exact hdeep depth hle tree node useLiterals
  · exact (depthPairing pass).writeMaterialTree (hdeep depth hle) tree
  · exact (depthPairing pass).writeObject (hdeep depth hle) object

/-- The tree of a material that links to itself and to nothing, and that picks objects
which have the material. -/
def knottedMaterial : NodeTree :=
  .ofParts "Steel"
    [{ name := "End", kind := .materialOutput false,
        inputs := [⟨"Material", .input, .material, none, none⟩] },
      { name := "Mix", kind := .plugin .material "MtlSingleBRDF",
        inputs := [⟨"Brdf", .input, .brdf, some "brdf", none⟩,
          ⟨"Opacity", .input, .texture, some "opacity", none⟩,
          ⟨"Scene", .input, .objects, some "scene", none⟩],
        outputs := [⟨"Out", .output, .material, none, none⟩] },
      { name := "Pick", kind := .selectGroup (some "All") }]
    [⟨⟨1⟩, ⟨"Mix", "Out"⟩, ⟨"End", "Material"⟩⟩, ⟨⟨2⟩, ⟨"Mix", "Out"⟩, ⟨"Mix", "Brdf"⟩⟩,
      ⟨⟨3⟩, ⟨"Gone", "Out"⟩, ⟨"Mix", "Opacity"⟩⟩, ⟨⟨4⟩, ⟨"Pick", "Out"⟩, ⟨"Mix", "Scene"⟩⟩]

/-- The tree of an object that uses the object's material and picks the other object. -/
def knottedObject (name other : String) : NodeTree :=
  .ofParts name
    [{ name := "End", kind := .objectOutput, inputs := [⟨"Object", .input, .objects, none, none⟩] },
      { name := "Own", kind := .plugin .object "Node",
        inputs := [⟨"Material", .input, .material, some "material", none⟩,
          ⟨"Other", .input, .objects, some "other", none⟩] },
      { name := "Skin", kind := .objectMaterial },
      { name := "Pick", kind := .selectObject (some other) }]
    [⟨⟨1⟩, ⟨"Own", "Out"⟩, ⟨"End", "Object"⟩⟩, ⟨⟨2⟩, ⟨"Skin", "Out"⟩, ⟨"Own", "Material"⟩⟩,
      ⟨⟨3⟩, ⟨"Pick", "Out"⟩, ⟨"Own", "Other"⟩⟩]

/-- Two objects that pick each other, with a material that picks both. -/
def knottedScene : Scene :=
  ((((((({} : Scene).addTree knottedMaterial).addTree (knottedObject "Cup" "Jug")).addTree
    (knottedObject "Jug" "Cup")).addMaterial "Steel" ⟨some "Steel"⟩).addObject "Cup"
    { slots := [some "Steel"], tree := some "Cup" }).addObject "Jug"
    { slots := [some "Steel"], tree := some "Jug" }).addGroup "All" ⟨["Cup", "Jug"]⟩

theorem straight_knotted : knottedScene.Straight := Scene.straight_of_direct (by decide)

theorem every_call_ends_knotted :
    knottedScene.Straight ∧
    let pass : Pass := ⟨⟨knottedScene, Catalog.builtin, {}⟩, { geometry := .external }, 1⟩
    (pass.Settles fun compile => writeMaterialTree compile knottedMaterial) ∧
      (pass.run.runOn {}).1 ≠ .error .depthExceeded := by
  refine ⟨straight_knotted, ?_⟩
  intro pass
  obtain ⟨-, hmaterial, -, hrun⟩ := every_call_ends pass straight_knotted
  exact ⟨hmaterial knottedMaterial (by decide), hrun {}⟩

end ShadeNet
