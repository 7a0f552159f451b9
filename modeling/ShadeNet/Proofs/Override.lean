/-
# The override reaches what is compiled behind it

The material that overrides others is compiled first, and from then on its token stands
for every material tree that allows it: such a tree is not looked at any more. An object
that is compiled later is written with the token, and a node that is compiled later is of
a tree that the override leaves alone.

What the override needs itself is compiled before there is a token. A selector in its tree
may reach an object, and that object keeps the material of its slot.

Key definitions: `Scene.Overridable`, `Scene.Spares`, `Overrides`, `overrideContract`.
Key theorems: `buildObject_overridable`, `overrides_opening`, `override_reaches`,
`override_misses_cube`.
-/
import ShadeNet.Proofs.PostOrder
import ShadeNet.Proofs.Spelled

namespace ShadeNet

open Compile

variable {pass : Pass} {compile : NodeCompiler} {s t u start : PassState} {token : String}

/-! ### What the override is for -/

/-- An object that the override is for: it is visible, it has a mesh and no tree, and one
of its slots has a material with a tree, whose end allows the override. -/
structure Scene.Overridable (scene : Scene) (object : SceneObject) : Prop where
  visible : object.visible = true
  plain : object.tree = none
  mesh : object.mesh.isSome = true
  slot : ∃ tree output, object.slots.filterMap (·.bind scene.materialTree?) = [tree] ∧
    tree.materialOutput? = some output ∧ output.kind ≠ .materialOutput true

/-- No other object asks for the multi-material name of this one. -/
def Scene.AsksAlone (scene : Scene) (name : String) : Prop :=
  ∀ other object, scene.object? other = some object →
    multiMaterialName other = multiMaterialName name → other = name

/-- A tree that the override leaves alone: it is that of an object, or its end refuses. -/
def Scene.Spares (scene : Scene) (tree : NodeTree) : Prop :=
  (∃ name object key, scene.object? name = some object ∧ object.tree = some key ∧
    scene.tree? key = some tree) ∨
  ∃ material output, scene.materialTree? material = some tree ∧
    tree.materialOutput? = some output ∧ output.kind = .materialOutput true

/-- A key under which the nodes of a tree are entered. -/
def NodeTree.HasKey (tree : NodeTree) (key : String) : Prop :=
  key = tree.name ∨ ∃ object, key = tree.name ++ "@" ++ object

theorem hasKey_treeKey (s : PassState) (tree : NodeTree) : tree.HasKey (s.treeKey tree.name) := by
  unfold PassState.treeKey
  split
  · split
    · exact Or.inr ⟨_, rfl⟩
    · exact Or.inl rfl
  · exact Or.inl rfl

/-! ### The record of an object -/

/-- A parameter that has its attribute to itself and is written is an attribute of the
record. -/
theorem attr?_pluginRecord {desc : PluginDesc} {param : ParamDesc} {name value : String}
    {params : OrderedMap String Value} {supplied : OrderedMap String Resolved}
    (hp : param ∈ desc.params) (honly : ∀ p ∈ desc.params, p.attr = param.attr → p = param)
    (hvalue : (pass.spellParam params supplied param).value? = some value) :
    (pass.pluginRecord desc name params supplied).attr? param.attr = some value := by
  have hmem : ∀ e, e ∈ (pass.pluginRecord desc name params supplied).attrs ↔
      ∃ p ∈ desc.params, (pass.spellParam params supplied p).value?.map
        (fun v => (p.attr, v)) = some e := by
    intro e
    unfold Pass.pluginRecord
    simp only [List.mem_filterMap, PluginDesc.mem_sortedParams]
  have hentry : (param.attr, value) ∈ (pass.pluginRecord desc name params supplied).attrs :=
    (hmem _).mpr ⟨param, hp, by rw [hvalue]; rfl⟩
  unfold Record.attr?
  cases hfind : (pass.pluginRecord desc name params supplied).attrs.find? (·.1 = param.attr) with
  | none => simpa using List.find?_eq_none.mp hfind _ hentry
  | some e =>
    obtain ⟨p, hm, he⟩ := (hmem e).mp (List.mem_of_find?_eq_some hfind)
    obtain ⟨v, hv, rfl⟩ := Option.map_eq_some_iff.mp he
    have hattr : p.attr = param.attr := by simpa using List.find?_some hfind
    rw [honly p hm hattr, hvalue] at hv
    rw [Option.map_some, Option.some.inj hv]

/-- The built-in schema of objects, with the parameters that an object without a tree
supplies. -/
theorem builtin_node : ∃ desc, Catalog.builtin.get? "Node" = some desc ∧
    ∀ attr ∈ ["geometry", "material", "transform"], ∃ param ∈ desc.params,
      (∀ p ∈ desc.params, p.attr = param.attr → p = param) ∧
      param.attr = attr ∧ param.type.isOutput = false :=
  ⟨Catalog.builtinObjects[0], by decide +kernel, by decide⟩

/-- What is supplied to one of these parameters is an attribute of the record. -/
theorem attr?_nodeRecord {desc : PluginDesc} (hdesc : Catalog.builtin.get? "Node" = some desc)
    {attr value : String} (hattr : attr ∈ ["geometry", "material", "transform"])
    {supplied : OrderedMap String Resolved} {resolved : Resolved}
    (hsupplied : supplied.get? attr = some resolved)
    (hvalue : ∀ param, (pass.spellResolved param resolved).value? = some value) (name : String) :
    (pass.pluginRecord desc name ∅ supplied).attr? attr = some value := by
  obtain ⟨desc', hdesc', hparams⟩ := builtin_node
  rw [hdesc] at hdesc'
  cases hdesc'
  obtain ⟨param, hp, honly, rfl, hout⟩ := hparams attr hattr
  refine attr?_pluginRecord hp honly ?_
  unfold Pass.spellParam
  rw [hout, hsupplied]
  exact hvalue param

/-- A reference that is not empty is written as it is. -/
theorem spellResolved_reference (htoken : token ≠ "") (param : ParamDesc) :
    (pass.spellResolved param (.reference token)).value? = some token := by
  simp [Pass.spellResolved, htoken, Spelling.value?]

/-- The record of an object has its material as an attribute. -/
theorem attr?_objectSupply {desc : PluginDesc} (hdesc : Catalog.builtin.get? "Node" = some desc)
    (name : String) (geometry : Resolved) (htoken : token ≠ "") (object : SceneObject) :
    (pass.pluginRecord desc name ∅ (Pass.objectSupply geometry token object)).attr? "material" =
      some token :=
  attr?_nodeRecord hdesc (by simp) rfl (spellResolved_reference htoken) name

/-! ### What is compiled once there is a token -/

/-- The token stands for a tree that allows it, and nothing of the tree is compiled. -/
theorem writeMaterialTree_overridable {tree : NodeTree} {output : Node}
    (ho : tree.materialOutput? = some output) (hallow : output.kind ≠ .materialOutput true)
    (hs : s.overrideToken = some token) :
    (writeMaterialTree compile tree).runOn s = (.ok token, s) := by
  unfold writeMaterialTree
  rw [ho]
  simp only
  rw [runOn_bind_ok (runOn_get s), if_neg hallow, hs]
  rfl

/-- The slots of an object give the token for each tree that allows it. -/
theorem collect_slotMaterial {slots : List (Option String)} {trees : List NodeTree}
    (hslots : slots.filterMap (·.bind pass.scene.materialTree?) = trees)
    (hallow : ∀ tree ∈ trees, ∃ output, tree.materialOutput? = some output ∧
      output.kind ≠ .materialOutput true) (hs : s.overrideToken = some token) :
    (collect (pass.slotMaterial compile) slots).runOn s =
      (.ok (trees.map fun _ => token), s) := by
  induction slots generalizing trees with
  | nil =>
    obtain rfl : trees = [] := hslots.symm
    rfl
  | cons slot rest ih =>
    unfold collect
    rw [List.filterMap_cons] at hslots
    cases htree : slot.bind pass.scene.materialTree? with
    | none =>
      rw [htree] at hslots
      have hslot : (pass.slotMaterial compile slot).runOn s = (.ok none, s) := by
        unfold Pass.slotMaterial
        rw [htree]
        rfl
      rw [runOn_bind_ok hslot, runOn_bind_ok (ih hslots hallow)]
      rfl
    | some tree =>
      rw [htree] at hslots
      subst hslots
      obtain ⟨output, ho, hout⟩ := hallow tree List.mem_cons_self
      have hslot : (pass.slotMaterial compile slot).runOn s = (.ok (some token), s) := by
        unfold Pass.slotMaterial
        rw [htree]
        simp only
        rw [runOn_bind_ok (writeMaterialTree_overridable ho hout hs)]
        rfl
      rw [runOn_bind_ok hslot,
        runOn_bind_ok (ih rfl fun other hm => hallow other (List.mem_cons_of_mem _ hm))]
      rfl

/-- An object in scope has the token as its material, unless it had another one before. -/
theorem writeObjectMaterial_overridable {scope : ObjectScope} {object : SceneObject}
    (hscope : s.scope = some scope) (ho : pass.scene.object? scope.name = some object)
    (hover : pass.scene.Overridable object) (hs : s.overrideToken = some token)
    (hnone : s.ledger.synthesized? (multiMaterialName scope.name) = none) :
    (pass.writeObjectMaterial compile).runOn s =
      (.ok token, s.synthesize (multiMaterialName scope.name) token) := by
  obtain ⟨tree, output, hslots, hout, hallow⟩ := hover.slot
  have hcollect : (collect (pass.slotMaterial compile) object.slots).runOn s = (.ok [token], s) :=
    collect_slotMaterial hslots (by simpa using ⟨output, hout, hallow⟩) hs
  unfold Pass.writeObjectMaterial
  rw [runOn_bind_ok (runOn_get s)]
  simp only [hscope, ho, hnone]
  rw [runOn_bind_ok hcollect]
  rfl

/-- The object in scope has the mesh as its geometry. -/
theorem writeGeometry_isSome {scope : ObjectScope} {value : Option Resolved}
    (hscope : s.scope = some scope) (hmesh : scope.mesh.isSome = true)
    (h : pass.writeGeometry.runOn s = (.ok value, t)) : value.isSome = true := by
  obtain ⟨mesh, hmesh⟩ := Option.isSome_iff_exists.mp hmesh
  rw [writeGeometry_runOn, hscope] at h
  simp only [hmesh] at h
  split at h
  · generalize Compile.runOn _ _ = o at h
    rcases o with ⟨e | _, v⟩
    · cases h
    · unfold geometryEnd at h
      simp only at h
      split at h <;> cases h
      rfl
  · cases h
    rfl

/-- An object that is built once there is a token is written with it. -/
theorem buildObject_overridable (hnode : pass.catalog.get? "Node" = Catalog.builtin.get? "Node")
    {name : String} {object : SceneObject} {result : Option String}
    (ho : pass.scene.object? name = some object) (hover : pass.scene.Overridable object)
    (hscope : s.scope = some ⟨name, object.mesh, object.tree⟩)
    (hs : s.overrideToken = some token) (htoken : token ≠ "")
    (hnone : s.ledger.synthesized? (multiMaterialName name) = none)
    (h : (pass.buildObject compile name object).runOn s = (.ok result, t)) :
    ∃ before r, t.sent = before ++ [r] ∧ s.sent <+: before ∧ result = some r.name ∧
      r.attr? "material" = some token := by
  obtain ⟨desc, hdesc, -⟩ := builtin_node
  unfold Pass.buildObject at h
  rw [hover.plain] at h
  simp only at h
  unfold Pass.writePlainObject at h
  rw [hnode, hdesc] at h
  simp only at h
  obtain ⟨geometry, u, hgeometry, h⟩ := of_runOn_bind_ok h
  have hu : s.Alike u := by
    have := alike_writeGeometry pass s
    rwa [hgeometry] at this
  obtain ⟨value, rfl⟩ :=
    Option.isSome_iff_exists.mp (writeGeometry_isSome hscope hover.mesh hgeometry)
  simp only at h
  have hmaterial : (pass.writeObjectMaterial compile).runOn u =
      (.ok token, u.synthesize (multiMaterialName name) token) :=
    writeObjectMaterial_overridable (hu.scope.trans hscope) ho hover (hu.overrideToken.trans hs)
      ((hu.synthesized? _).trans hnone)
  rw [runOn_bind_ok hmaterial, ← bind_assoc, Contract.claimAndEmit_plugin] at h
  obtain ⟨own, v, hemit, h⟩ := of_runOn_bind_ok h
  cases h
  rw [claimAndEmit_runOn] at hemit
  have ht := emit_ok hemit
  have hname := emit_token hemit
  refine ⟨_, _, ?_, hu.sent, congrArg some hname, attr?_objectSupply hdesc _ value htoken object⟩
  rw [ht]
  rfl

/-! ### What a pass keeps of it -/

/-- How a pass that was in `start` stands with the override, with a token or before there
is one. Once there is a token, what has been compiled since `start` got it: an object it
is for is written with it, and a node is of a tree that it leaves alone. -/
structure Overrides (pass : Pass) (chosen : Option String) (start s : PassState) : Prop where
  override : s.overrideToken = chosen
  token : ∀ token, chosen = some token → token ≠ ""
  grown : start.sent <+: s.sent
  entered : ∀ scope, s.scope = some scope → s.ledger.object? scope.name ≠ none
  slotted : ∀ name, pass.scene.AsksAlone name →
    s.ledger.synthesized? (multiMaterialName name) ≠ none → s.ledger.object? name ≠ none
  reached : ∀ token name object result, chosen = some token →
    pass.scene.object? name = some object → pass.scene.Overridable object →
    pass.scene.AsksAlone name → start.ledger.object? name = none →
    s.ledger.object? name = some (.done result) →
    ∃ r ∈ s.since start, result = some r.name ∧ r.attr? "material" = some token
  spared : ∀ key name v, chosen.isSome = true → s.ledger.node? key name = some (.done v) →
    start.ledger.node? key name = some (.done v) ∨
      ∃ tree, pass.scene.Spares tree ∧ tree.HasKey key

namespace Overrides

variable {chosen : Option String}

theorem congr (h : Overrides pass chosen start s) (ha : s.Alike t) :
    Overrides pass chosen start t where
  override := ha.overrideToken.trans h.override
  token := h.token
  grown := h.grown.trans ha.sent
  entered scope hs := by
    rw [ha.object?]
    exact h.entered scope (ha.scope ▸ hs)
  slotted name hn hk := by
    rw [ha.object?]
    exact h.slotted name hn (by rwa [ha.synthesized?] at hk)
  reached token name object result hc ho hover hn hnone hd := by
    rw [ha.object?] at hd
    obtain ⟨r, hr, hrest⟩ := h.reached token name object result hc ho hover hn hnone hd
    exact ⟨r, (since_grows ha.sent start).subset hr, hrest⟩
  spared key name v hc hd := h.spared key name v hc (by rwa [ha.node?] at hd)

/-- A node that is marked, or entered where the override leaves its tree alone. -/
theorem setNode (h : Overrides pass chosen start s) (key name : String)
    {progress : Progress Resolved}
    (hp : ∀ v, progress = .done v → chosen.isSome = true →
      ∃ tree, pass.scene.Spares tree ∧ tree.HasKey key) :
    Overrides pass chosen start { s with ledger := s.ledger.setNode key name progress } :=
  { h with
    spared := fun k n v hc hd => by
      rw [Ledger.node?_setNode] at hd
      split at hd
      · rename_i heq
        cases heq
        exact Or.inr (hp v (Option.some.inj hd) hc)
      · exact h.spared k n v hc hd }

theorem abandonNode (h : Overrides pass chosen start s) (key name : String) :
    Overrides pass chosen start { s with ledger := s.ledger.abandonNode key name } :=
  { h with
    spared := fun k n v hc hd => by
      rw [Ledger.node?_abandonNode] at hd
      split at hd
      · cases hd
      · exact h.spared k n v hc hd }

/-- An object that is marked, or entered with its record, and the scope of an object that
is in the ledger. -/
theorem setObject (h : Overrides pass chosen start s) (name : String)
    {progress : Progress (Option String)} {scope : Option ObjectScope}
    (hscope : ∀ own, scope = some own → own.name = name ∨ s.ledger.object? own.name ≠ none)
    (hp : ∀ token object result, chosen = some token → pass.scene.object? name = some object →
      pass.scene.Overridable object → pass.scene.AsksAlone name →
      start.ledger.object? name = none → progress = .done result →
      ∃ r ∈ s.since start, result = some r.name ∧ r.attr? "material" = some token) :
    Overrides pass chosen start
      { s with ledger := s.ledger.setObject name progress, scope := scope } :=
  { h with
    entered := fun own hs => by
      rw [Ledger.object?_setObject]
      split
      · exact nofun
      · rename_i hne
        exact (hscope own hs).resolve_left fun heq => hne heq.symm
    slotted := fun n hn hk => by
      rw [Ledger.object?_setObject]
      split
      · exact nofun
      · exact h.slotted n hn hk
    reached := fun token n object result hc ho hover hn hnone hd => by
      rw [Ledger.object?_setObject] at hd
      split at hd
      · rename_i heq
        subst heq
        exact hp token object result hc ho hover hn hnone (Option.some.inj hd)
      · exact h.reached token n object result hc ho hover hn hnone hd }

/-- The material of the object in scope is entered. -/
theorem synthesize (h : Overrides pass chosen start s) {scope : ObjectScope} {object : SceneObject}
    (ho : pass.scene.object? scope.name = some object)
    (hentered : s.ledger.object? scope.name ≠ none) (own : String) :
    Overrides pass chosen start (s.synthesize (multiMaterialName scope.name) own) :=
  { h with
    slotted := fun name hn hk => by
      have hk : (s.ledger.setSynthesized (multiMaterialName scope.name) own).synthesized?
          (multiMaterialName name) ≠ none := hk
      rw [Ledger.synthesized?_setSynthesized] at hk
      split at hk
      · rename_i heq
        rw [hn scope.name object ho heq] at hentered
        exact hentered
      · exact h.slotted name hn hk }

end Overrides

/-- Every step of the walk gives the override its way. -/
def overrideContract (pass : Pass)
    (hnode : pass.catalog.get? "Node" = Catalog.builtin.get? "Node") (chosen : Option String)
    (start : PassState) : Contract pass where
  Inv := Overrides pass chosen start
  Rel := PassState.Frame
  Known tree _ := chosen.isSome = true → pass.scene.Spares tree
  Made _ _ := True
  Val _ _ := True
  Fit _ _ := True
  Fault _ := True
  refl := PassState.Frame.refl
  trans := PassState.Frame.trans
  val_of_made _ := trivial
  val_mono _ _ := trivial
  fault_cycle _ _ := trivial
  known_source hk _ := hk
  known_material h hm ho hfree _ hc := by
    rcases hfree with hrefuses | hnone
    · exact Or.inr ⟨_, _, hm, ho, hrefuses⟩
    · rw [← h.override, hnone] at hc
      cases hc
  known_object ho hkey hk _ _ := Or.inl ⟨_, _, _, ho, hkey, hk⟩
  literal _ _ _ := trivial
  transform _ := trivial
  objects _ := trivial
  default _ := trivial
  node _ _ := trivial
  object _ _ := trivial
  override _ _ := trivial
  synthesized _ _ := trivial
  select_own _ _ _ _ := trivial
  select_passed _ _ _ _ := trivial
  fit_plugin _ _ _ _ _ := trivial
  fit_texture _ _ _ := trivial
  fit_weight _ _ _ := trivial
  fit_brdf _ _ _ := trivial
  fit_multi _ _ := trivial
  reported h _ := ⟨h.congr (alike_note _ _), PassState.frame_note _ _⟩
  emission {s base reports record} h hb _ hn _ :=
    ends_claimAndEmit hb hn (h.congr (alike_claimAndEmit pass base reports record s))
      (frame_claimAndEmit pass base reports record s) trivial fun _ _ _ => trivial
  geometry {s} h :=
    ends_writeGeometry (h.congr (alike_writeGeometry pass s)) (frame_writeGeometry pass s)
      (fun _ => trivial) (fun _ => nofun) fun _ _ _ _ => trivial
  synthesize his hscope ho hn hr h _ :=
    ⟨h.synthesize ho (hr.ledger.objects.ne_none (his.entered _ hscope)) _,
      (frameComparison pass).synthesize _ hn hr, trivial⟩
  hide {s name object} h hnone ho hhidden := by
    refine ⟨h.setObject name (fun own hs => Or.inr (h.entered own hs)) ?_,
      (frameComparison pass).hide hnone ho⟩
    intro token object' result _ ho' hover
    rw [ho] at ho'
    cases ho'
    rw [hover.visible] at hhidden
    cases hhidden
  mark key name h := h.setNode key name nofun
  finish {s t tree node v} _ hk hn hr h _ :=
    ⟨h.setNode _ _ fun _ _ hc => ⟨tree, hk hc, hasKey_treeKey s tree⟩,
      (frameComparison pass).finish v hn hr, trivial⟩
  abandon hs hn hr := ⟨(frameComparison pass).abandon hn hr, fun h => h.abandonNode _ _⟩
  enter {s name object} h _ := h.setObject name (fun own hs => by cases hs; exact Or.inl rfl) nofun
  leave {s t name object compile result} hs hnone ho hrun hr h _ := by
    have hkept : ∀ own, s.scope = some own →
        own.name = name ∨ t.ledger.object? own.name ≠ none := by
      intro own hown
      by_cases heq : own.name = name
      · exact Or.inl heq
      · have hstill : (s.enter name object).ledger.object? own.name ≠ none := by
          unfold PassState.enter
          rw [Ledger.object?_setObject, if_neg fun h => heq h.symm]
          exact hs.entered own hown
        exact Or.inr (hr.ledger.objects.ne_none hstill)
    refine ⟨h.setObject name hkept ?_, (frameComparison pass).leave result hnone ho hr,
      fun _ _ => trivial⟩
    intro token object' result' hc ho' hover hn _ heq
    rw [ho] at ho'
    cases ho'
    cases heq
    -- no material is entered for an object that has not been met
    have hfree : s.ledger.synthesized? (multiMaterialName name) = none := by
      by_contra hk
      exact hs.slotted name hn hk hnone
    obtain ⟨before, r, hsent, hbefore, hresult, hattr⟩ := buildObject_overridable
      (s := s.enter name object) hnode ho hover rfl (hs.override.trans hc) (hs.token token hc)
      hfree hrun
    have hgrown : start.sent <+: before := hs.grown.trans hbefore
    refine ⟨r, ?_, hresult, hattr⟩
    unfold PassState.since
    rw [hsent, List.drop_append_of_le_length hgrown.length_le]
    exact List.mem_append_right _ List.mem_cons_self
  quit {s t name object compile failure} hs hnone ho hrun hr :=
    ⟨(frameComparison pass).quit hnone ho hr, fun hc => by
      have hcycle := neverCycles_buildObject pass compile name object (s.enter name object) failure
        (congrArg Prod.fst hrun)
      rw [hcycle] at hc
      cases hc⟩

/-! ### Passes -/

/-- The override is chosen with a token, and nothing is entered for objects that have not
been met. -/
theorem overrides_opening (hnode : pass.catalog.get? "Node" = Catalog.builtin.get? "Node")
    {material : String} {tree : NodeTree} (hm : pass.settings.overrideMaterial = some material)
    (ht : pass.scene.materialTree? material = some tree)
    (h : pass.opening.runOn (pass.headed s) = (.ok (), u)) :
    ∃ token, u.overrideToken = some token ∧ Overrides pass (some token) u u := by
  obtain ⟨_, v, hdefaults, hchoice⟩ := of_runOn_bind_ok h
  have hv : (pass.headed s).Alike v := by
    have := alike_writeDefaults pass (pass.headed s)
    rwa [hdefaults] at this
  have hempty : (pass.headed s).Spelled := ⟨nofun, nofun, nofun, nofun⟩
  have hspelled : v.Spelled := hempty.congr hv
  have hbefore : Overrides pass none v v := by
    refine ⟨hv.overrideToken, nofun, List.prefix_refl _, ?_, ?_, nofun, nofun⟩
    · rw [hv.scope]
      exact nofun
    · intro name _ hk
      rw [hv.synthesized?] at hk
      exact absurd rfl hk
  unfold Pass.writeOverride at hchoice
  rw [hm] at hchoice
  simp only [ht] at hchoice
  obtain ⟨token, w, htree, hchoice⟩ := of_runOn_bind_ok hchoice
  have hc : (overrideContract pass hnode none v).Compiles pass.compiler :=
    Contract.walk _ trivial _
  have hends := Contract.keeps_writeMaterialTree hc (Contract.meets_materialTree ht) v hbefore
    trivial
  rw [htree] at hends
  have hw : Overrides pass none v w := hends.1
  cases hchoice
  refine ⟨token, rfl, ?_⟩
  exact
    { override := rfl
      token := fun other he => by
        cases he
        exact spelled_writeMaterialTree hspelled htree
      grown := List.prefix_refl _
      entered := hw.entered
      slotted := hw.slotted
      reached := fun _ _ _ _ _ _ _ _ hnone hd => by
        rw [hnone] at hd
        cases hd
      spared := fun _ _ _ _ hd => Or.inl hd }

variable (pass) in
theorem frame_writeSceneObject (name : String) (s : PassState) :
    s.Frame ((pass.writeSceneObject name).runOn s).2 := by
  unfold Pass.writeSceneObject
  rw [runOn_bind_pure_state]
  exact (frameComparison pass).rel_writeObject _ name s

/-- An object of the scene is in the ledger once it was asked for. -/
theorem done_writeSceneObject {name : String} {object : SceneObject}
    (ho : pass.scene.object? name = some object) (hidle : s.ledger.Idle)
    (h : (pass.writeSceneObject name).runOn s = (.ok (), t)) :
    ∃ result, t.ledger.object? name = some (.done result) := by
  unfold Pass.writeSceneObject at h
  obtain ⟨result, u, hrun, h⟩ := of_runOn_bind_ok h
  cases h
  rw [writeObject_runOn] at hrun
  rcases hl : s.ledger.object? name with _ | _ | token
  · simp only [hl, ho] at hrun
    split at hrun
    · generalize (pass.buildObject _ name object).runOn _ = o at hrun
      rcases o with ⟨e | token, v⟩ <;> cases hrun
      exact ⟨_, (Ledger.object?_setObject _ _ _ _).trans (if_pos rfl)⟩
    · cases hrun
      exact ⟨none, (Ledger.object?_setObject _ _ _ _).trans (if_pos rfl)⟩
  · exact absurd hl (hidle.2 name)
  · simp only [hl] at hrun
    cases hrun
    exact ⟨_, hl⟩

/-- All objects that were asked for, one after another, are in the ledger in the end. -/
theorem done_forM {names : List String} (hidle : s.ledger.Idle)
    (h : (names.forM pass.writeSceneObject).runOn s = (.ok (), t)) {name : String}
    (hname : name ∈ names) {object : SceneObject} (ho : pass.scene.object? name = some object) :
    ∃ result, t.ledger.object? name = some (.done result) := by
  induction names generalizing s with
  | nil => cases hname
  | cons first rest ih =>
    obtain ⟨_, u, hfirst, hrest⟩ := of_runOn_bind_ok h
    have hu : s.Frame u := by
      have := frame_writeSceneObject pass first s
      rwa [hfirst] at this
    have ht : u.Frame t := by
      have := Compile.rel_forM PassState.Frame.refl PassState.frame_trans
        (fun name _ => frame_writeSceneObject pass name) (l := rest) u
      rwa [hrest] at this
    rcases List.mem_cons.mp hname with rfl | hname
    · obtain ⟨result, hdone⟩ := done_writeSceneObject ho hidle hfirst
      exact ⟨result, ht.ledger.objects.done _ _ hdone⟩
    · exact ih (hu.ledger.idle hidle) hrest hname

/-- **The override reaches what is compiled behind it.** If the settings of a pass name a
material with a tree, and the pass ends well, then its opening ends in a state with a
token, which is never changed. In the end, each object that the override is for and that
was not compiled in the opening has a record, which was written after it and has the token
as its material. Each node that was not compiled in the opening is of a tree that the
override leaves alone. -/
theorem override_reaches (pass : Pass)
    (hnode : pass.catalog.get? "Node" = Catalog.builtin.get? "Node") (material : String)
    (tree : NodeTree) (hm : pass.settings.overrideMaterial = some material)
    (ht : pass.scene.materialTree? material = some tree) (s : PassState) (summary : Summary)
    (hrun : (pass.run.runOn s).1 = .ok summary) :
    let t := (pass.run.runOn s).2
    ∃ token u, pass.opening.runOn (pass.headed s) = (.ok (), u) ∧
      u.overrideToken = some token ∧ t.overrideToken = some token ∧
      (∀ name object, pass.scene.object? name = some object → pass.scene.Overridable object →
        pass.scene.AsksAlone name → u.ledger.object? name = none →
        ∃ r ∈ t.since u, t.ledger.object? name = some (.done (some r.name)) ∧
          r.attr? "material" = some token) ∧
      ∀ key node v, t.ledger.node? key node = some (.done v) →
        u.ledger.node? key node = some (.done v) ∨
          ∃ spared, pass.scene.Spares spared ∧ spared.HasKey key := by
  intro t
  have hrun : pass.run.runOn s = (.ok summary, t) := Prod.ext hrun rfl
  clear_value t
  rw [Pass.run_runOn] at hrun
  unfold Pass.afterHead at hrun
  split at hrun
  · obtain ⟨_, w, hbody, hclosing⟩ := of_runOn_bind_ok hrun
    rw [Pass.body_all] at hbody
    obtain ⟨_, u, hopening, hrest⟩ := of_runOn_bind_ok hbody
    obtain ⟨_, v, hmaterials, hobjects⟩ := of_runOn_bind_ok hrest
    obtain ⟨token, htoken, hu⟩ := overrides_opening hnode hm ht hopening
    have hc : (overrideContract pass hnode (some token) u).Compiles pass.compiler :=
      Contract.walk _ trivial _
    have hv := Contract.keeps_forM (fun material hmaterial => Contract.keeps_item hc
      (List.mem_append_left _ (List.mem_map_of_mem hmaterial))) u hu trivial
    rw [hmaterials] at hv
    have hw := Contract.keeps_forM (fun object hobject => Contract.keeps_item hc
      (List.mem_append_right _ (List.mem_map_of_mem hobject))) v hv.1 trivial
    rw [hobjects] at hw
    have hidle : v.ledger.Idle := by
      have hframe := looseFrame_opening pass (pass.headed s)
      rw [hopening] at hframe
      exact Ledger.Frame.idle hv.2.1.ledger (hframe.1.idle (idle_headed pass s))
    have hend : Overrides pass (some token) u t := by
      cases hclosing
      exact hw.1.congr (alike_note _ _)
    have hledger : t.ledger = w.ledger := by
      cases hclosing
      rfl
    refine ⟨token, u, hopening, htoken, hend.override, fun name object ho hover halone hnone => ?_,
      fun key node v => hend.spared key node v rfl⟩
    obtain ⟨result, hdone⟩ := done_forM hidle hobjects (OrderedMap.mem_keys_of_get? ho) ho
    rw [← hledger] at hdone
    obtain ⟨r, hr, rfl, hattr⟩ :=
      hend.reached token name object result rfl ho hover halone hnone hdone
    exact ⟨r, hr, hdone, hattr⟩
  · cases hrun

/-- The tree of a material with one shading model, which picks an object or none. -/
def paintTree (name : String) (pick : Option String) : NodeTree :=
  .ofParts name
    [{ name := "End", kind := .materialOutput false,
        inputs := [⟨"Material", .input, .material, none, none⟩] },
      { name := "Paint", kind := .plugin .brdf "BRDFDiffuse",
        inputs := [⟨"Users", .input, .objects, some "users", none⟩] },
      { name := "Pick", kind := .selectObject pick }]
    [⟨⟨1⟩, ⟨"Paint", "Out"⟩, ⟨"End", "Material"⟩⟩, ⟨⟨2⟩, ⟨"Pick", "Out"⟩, ⟨"Paint", "Users"⟩⟩]

/-- A red object. -/
def redObject (mesh : String) : SceneObject where
  mesh := some mesh
  slots := [some "Red"]

/-- Two red objects, and a clay that picks one of them. -/
def clayScene : Scene :=
  (((((({} : Scene).addTree (paintTree "Clay" (some "Cube"))).addTree
    (paintTree "Red" none)).addMaterial "Clay" ⟨some "Clay"⟩).addMaterial "Red"
    ⟨some "Red"⟩).addObject "Cube" (redObject "Cube")).addObject "Ball" (redObject "Ball")

/-- The pass in which clay overrides red. -/
def clayPass : Pass :=
  ⟨⟨clayScene, Catalog.builtin, { overrideMaterial := some "Clay" }⟩, { geometry := .external }, 1⟩

theorem overridable_red (mesh : String) : clayScene.Overridable (redObject mesh) where
  visible := rfl
  plain := rfl
  mesh := rfl
  slot := ⟨paintTree "Red" none, (paintTree "Red" none).nodes.values[0], by
    show [some "Red"].filterMap _ = _
    decide +kernel, by decide +kernel, by decide +kernel⟩

/-- The object that the clay does not pick gets it. -/
theorem override_reaches_ball :
    let t := (clayPass.run.runOn {}).2
    clayPass.catalog.get? "Node" = Catalog.builtin.get? "Node" ∧
    clayPass.settings.overrideMaterial = some "Clay" ∧
    clayPass.scene.materialTree? "Clay" = some (paintTree "Clay" (some "Cube")) ∧
    clayPass.scene.object? "Ball" = some (redObject "Ball") ∧
    clayPass.scene.Overridable (redObject "Ball") ∧ clayPass.scene.AsksAlone "Ball" ∧
    (∃ summary, (clayPass.run.runOn {}).1 = .ok summary) ∧
    ∃ token u, clayPass.opening.runOn (clayPass.headed {}) = (.ok (), u) ∧
      u.ledger.object? "Ball" = none ∧
      ∃ r ∈ t.since u, t.ledger.object? "Ball" = some (.done (some r.name)) ∧
        r.attr? "material" = some token := by
  have hmaterial : clayPass.scene.materialTree? "Clay" = some (paintTree "Clay" (some "Cube")) := by
    decide +kernel
  have hball : clayPass.scene.object? "Ball" = some (redObject "Ball") := by decide +kernel
  have halone : clayPass.scene.AsksAlone "Ball" := by
    intro other object hother heq
    have hkeys : other ∈ clayPass.scene.objects.keys := OrderedMap.mem_keys_of_get? hother
    have honly : ∀ name ∈ clayPass.scene.objects.keys,
        multiMaterialName name = multiMaterialName "Ball" → name = "Ball" := by decide +kernel
    exact honly other hkeys heq
  have hends : (clayPass.run.runOn {}).1 = .ok ⟨1, 6, 2⟩ := by decide +kernel
  obtain ⟨token, u, hopening, -, -, hreached, -⟩ := override_reaches clayPass rfl "Clay"
    (paintTree "Clay" (some "Cube")) rfl hmaterial {} ⟨1, 6, 2⟩ hends
  have hnew : u.ledger.object? "Ball" = none := by
    have hrun : (clayPass.opening.runOn (clayPass.headed {})).2.ledger.object? "Ball" = none := by
      decide +kernel
    rwa [hopening] at hrun
  exact ⟨rfl, rfl, hmaterial, hball, overridable_red "Ball", halone, ⟨_, hends⟩, token, u, hopening,
    hnew, hreached "Ball" _ hball (overridable_red "Ball") halone hnew⟩

/-- The object that the clay picks stays red, and the red that the clay overrides is
compiled. -/
theorem override_misses_cube :
    let t := (clayPass.run.runOn {}).2
    clayPass.scene.object? "Cube" = some (redObject "Cube") ∧
    clayPass.scene.Overridable (redObject "Cube") ∧
    clayPass.scene.materialTree? "Red" = some (paintTree "Red" none) ∧
    t.overrideToken = some "NTClayNPaint" ∧
    t.ledger.object? "Cube" = some (.done (some "OBCube")) ∧
    (t.sent.filter (·.name = "OBCube")).map (·.attr? "material") = [some "NTRedNPaint"] ∧
    t.ledger.node? "Red" "Paint" = some (.done (.reference "NTRedNPaint")) := by
  intro t
  refine ⟨by decide +kernel, overridable_red "Cube", by decide +kernel, ?_⟩
  decide +kernel

end ShadeNet
