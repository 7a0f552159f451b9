/-
# Objects without a tree

An object without a tree is compiled by the first call that asks for it, in a scope of its
own: its mesh is handed out if need be, its material is compiled, and then its record is
written and its token entered. Whoever asks later is given that token. So in a pass that
ends well each such object that is visible and has a mesh gets one record, from a selector
or from the pass itself, whichever comes first.

Key definitions: `Scene.Plain`, `Pass.plainRecord?`, `PassState.PlainTaken`,
`PassState.PlainApart`.
Key theorems: `buildObject_plain`, `opens_plain`, `Journey.plain_visits`,
`Journey.plainApart`, `Journey.spelled`.
-/
import ShadeNet.Proofs.Override
import ShadeNet.Proofs.Provenance

namespace ShadeNet

open Compile

variable {pass : Pass} {compile : NodeCompiler} {c : Option Visit} {s t u w inner : PassState}
  {v : Visit} {vs : List Visit} {name mesh : String} {object : SceneObject}
  {result : Option String} {r : Record}

/-- A visible object that has a mesh and no tree. -/
structure Scene.Plain (scene : Scene) (name : String) (object : SceneObject) (mesh : String) :
    Prop where
  found : scene.object? name = some object
  visible : object.visible = true
  tree : object.tree = none
  mesh : object.mesh = some mesh

/-! ### How it is built -/

/-- The state in which the record of an object is written, which is not the first thing its
build does: the geometry and the material come before it. -/
theorem buildObject_plain (hplain : pass.scene.Plain name object mesh)
    (hscope : s.scope = some (object.scope name)) (hnode : (pass.catalog.get? "Node").isSome = true)
    (h : (pass.buildObject compile name object).runOn s = (.ok result, t)) :
    ∃ desc u material w r, pass.catalog.get? "Node" = some desc ∧
      pass.writeGeometry.runOn s = (.ok (some (.reference (meshName mesh))), u) ∧
      (pass.writeObjectMaterial compile).runOn u = (.ok material, w) ∧
      r = pass.pluginRecord desc r.name ∅
        (Pass.objectSupply (.reference (meshName mesh)) material object) ∧
      result = some r.name ∧ w.Writes r t := by
  obtain ⟨desc, hdesc⟩ := Option.isSome_iff_exists.mp hnode
  unfold Pass.buildObject at h
  rw [hplain.tree] at h
  simp only at h
  unfold Pass.writePlainObject at h
  rw [hdesc] at h
  simp only at h
  obtain ⟨geometry, u, hgeometry, h⟩ := of_runOn_bind_ok h
  have hvalue : geometry = some (.reference (meshName mesh)) := by
    rcases writeGeometry_ok hgeometry with ⟨rfl, -⟩ | ⟨scope, own, hs, hmesh, rfl, -⟩
    · have hsome := writeGeometry_isSome hscope (by simp [SceneObject.scope, hplain.mesh]) hgeometry
      cases hsome
    · rw [hscope] at hs
      cases hs
      rw [show own = mesh from Option.some.inj (hmesh.symm.trans hplain.mesh)]
  subst hvalue
  simp only at h
  obtain ⟨material, w, hmaterial, h⟩ := of_runOn_bind_ok h
  simp only [← bind_assoc, Contract.claimAndEmit_plugin] at h
  obtain ⟨token, x, hemit, h⟩ := of_runOn_bind_ok h
  cases h
  obtain ⟨r, hr, rfl, hwrites⟩ := claimAndEmit_writes (fun _ => rfl) hemit
  exact ⟨desc, u, material, w, r, hdesc, hgeometry, hmaterial, hr, rfl, hwrites⟩

/-- A visit that compiles an object without a tree either fails, and the object is forgotten,
or writes its record and enters its token. -/
theorem opens_plain (hplain : pass.scene.Plain name object mesh)
    (hnode : (pass.catalog.get? "Node").isSome = true) (hv : v.Opens pass name) :
    (∃ failure, (v.run pass).1 = .error failure ∧ (v.run pass).2.ledger.object? name = none) ∨
      ∃ desc u material w r x, pass.catalog.get? "Node" = some desc ∧
        pass.writeGeometry.runOn (v.state.enter name object) =
          (.ok (some (.reference (meshName mesh))), u) ∧
        (pass.writeObjectMaterial (pass.walk v.depth)).runOn u = (.ok material, w) ∧
        r = pass.pluginRecord desc r.name ∅
          (Pass.objectSupply (.reference (meshName mesh)) material object) ∧
        w.Writes r x ∧ v.run pass =
          (.ok (some (.reference r.name)), x.leave v.state.scope name (some r.name)) := by
  obtain ⟨call, depth, state⟩ := v
  obtain ⟨hcall, hnone, -⟩ := hv
  obtain rfl : call = .object name := hcall
  have hnone : state.ledger.object? name = none := hnone
  rw [Visit.run_object, writeObject_runOn]
  simp only [hnone, hplain.found, hplain.visible, if_true]
  rcases hbuild : (pass.buildObject (pass.walk depth) name object).runOn (state.enter name object)
    with ⟨failure | result, t⟩
  · exact Or.inl ⟨failure, rfl, (Ledger.object?_abandonObject _ _ _).trans (if_pos rfl)⟩
  · obtain ⟨desc, u, material, w, r, hdesc, hgeometry, hmaterial, hr, rfl, hwrites⟩ :=
      buildObject_plain hplain rfl hnode hbuild
    exact Or.inr ⟨desc, u, material, w, r, t, hdesc, hgeometry, hmaterial, hr, hwrites, rfl⟩

/-! ### One record for each -/

/-- The record that a visit writes for an object without a tree: its last one, if the object
is not in the ledger and the visit gives a token. -/
def Pass.plainRecord? (pass : Pass) (name : String) (v : Visit) : Option Record :=
  match v.call, v.state.ledger.object? name, (v.run pass).1 with
  | .object other, none, .ok (some _) =>
    if other = name then (v.run pass).2.sent.getLast? else none
  | _, _, _ => none

theorem opens_of_plainRecord? (hplain : pass.scene.Plain name object mesh)
    (h : pass.plainRecord? name v = some r) : v.Opens pass name := by
  unfold Pass.plainRecord? at h
  split at h
  · split at h
    · rename_i hcall hnone _ heq
      exact ⟨heq ▸ hcall, hnone, by rw [hplain.found]; rfl⟩
    · cases h
  · cases h

/-- A visit that writes a record for the object writes it last, behind the geometry and the
material. -/
theorem built_of_plainRecord? (hplain : pass.scene.Plain name object mesh)
    (h : pass.plainRecord? name v = some r) :
    ∃ desc u material w x, pass.catalog.get? "Node" = some desc ∧
      pass.writeGeometry.runOn (v.state.enter name object) =
        (.ok (some (.reference (meshName mesh))), u) ∧
      (pass.writeObjectMaterial (pass.walk v.depth)).runOn u = (.ok material, w) ∧
      r = pass.pluginRecord desc r.name ∅
        (Pass.objectSupply (.reference (meshName mesh)) material object) ∧
      w.Writes r x ∧ v.run pass =
        (.ok (some (.reference r.name)), x.leave v.state.scope name (some r.name)) := by
  have hopens := opens_of_plainRecord? hplain h
  obtain ⟨hcall, hnone, -⟩ := id hopens
  unfold Pass.plainRecord? at h
  cases hdesc : pass.catalog.get? "Node" with
  | none =>
    -- without the plugin the object has no record
    have hrun : (v.run pass).1 = .ok none := by
      obtain ⟨call, depth, state⟩ := v
      obtain rfl : call = .object name := hcall
      have hnone : state.ledger.object? name = none := hnone
      rw [Visit.run_object, writeObject_runOn]
      simp only [hnone, hplain.found, hplain.visible, if_true]
      unfold Pass.buildObject Pass.writePlainObject
      rw [hplain.tree]
      simp only [hdesc]
      rfl
    simp only [hcall, hnone, hrun] at h
    cases h
  | some desc =>
    rcases opens_plain hplain (by rw [hdesc]; rfl) hopens with
      ⟨_, hrun, -⟩ | ⟨own, u, material, w, r', x, hown, hgeometry, hmaterial, hr, hwrites, hrun⟩
    · simp only [hcall, hnone, hrun] at h
      cases h
    · have hlast : (x.leave v.state.scope name (some r'.name)).sent.getLast? = some r' := by
        show x.sent.getLast? = some r'
        rw [hwrites.sent, List.getLast?_concat]
      simp only [hcall, hnone, hrun, if_true, hlast] at h
      cases h
      exact ⟨desc, u, material, w, x, rfl, hgeometry, hmaterial,
        by rw [hdesc] at hown; cases hown; exact hr, hwrites, hrun⟩

namespace Pass

/-- An object that a visit compiles is being compiled inside. -/
theorem Brackets.object_resolving (hb : pass.Brackets v inner vs u) (hv : v.Opens pass name) :
    vs = [] ∨ inner.ledger.object? name = some .resolving := by
  obtain ⟨hcall, -, -⟩ := id hv
  have hsame : ∀ {other : String}, v.call = .object other → other = name := fun h =>
    Call.object.inj (h.symm.trans hcall)
  cases hb with
  | passed _ hpassed => exact absurd hv (hpassed name)
  | built h | dropped h | gathered h => rw [hcall] at h; cases h
  | hidden => exact Or.inl rfl
  | left h | quit h =>
    exact Or.inr ((Ledger.object?_setObject _ _ _ _).trans (if_pos (hsame h)))

end Pass

/-! ### One token for each -/

/-- A visit that enters a token of an object compiles it. -/
theorem Pass.Enters.opens {token : String} (h : pass.Enters vs v (.object name (some token))) :
    v.Opens pass name := by
  cases h with
  | object hcall hnone ho => exact ⟨hcall, hnone, by rw [ho]; rfl⟩

/-- Names that are taken stay taken where a bracket opens and closes. -/
theorem Pass.Brackets.names (hb : pass.Brackets v inner vs u) :
    inner.ledger.names = v.state.ledger.names ∧
      u.ledger.names ⊆ (v.run pass).2.ledger.names := by
  cases hb with
  | passed => exact ⟨rfl, List.Subset.refl _⟩
  | built _ _ hw hrun => rw [hrun]; exact ⟨rfl, hw.names⟩
  | gathered _ _ _ _ _ _ _ hcombine hrun =>
    rw [hrun]
    exact ⟨rfl, (alike_combineMaterials hcombine).2⟩
  | dropped _ _ hrun | hidden _ _ hrun | left _ _ _ _ hrun | quit _ _ _ hrun =>
    rw [hrun]
    exact ⟨rfl, List.Subset.refl _⟩

/-- The tokens of objects without a tree are names that are taken. -/
def PassState.PlainTaken (pass : Pass) (s : PassState) : Prop :=
  ∀ name object mesh token, pass.scene.Plain name object mesh →
    s.ledger.object? name = some (.done (some token)) → token ∈ s.ledger.names

/-- No two objects without a tree have one token. -/
def PassState.PlainApart (pass : Pass) (s : PassState) : Prop :=
  ∀ name object mesh name' object' mesh' token, pass.scene.Plain name object mesh →
    pass.scene.Plain name' object' mesh' → s.ledger.object? name = some (.done (some token)) →
    s.ledger.object? name' = some (.done (some token)) → name = name'

theorem PassState.PlainTaken.of_objects (h : s.PlainTaken pass)
    (hnames : s.ledger.names ⊆ t.ledger.names)
    (hobjects : ∀ name token, t.ledger.object? name = some (.done (some token)) →
      s.ledger.object? name = some (.done (some token))) : t.PlainTaken pass :=
  fun name object mesh token hplain hd =>
    hnames (h name object mesh token hplain (hobjects name token hd))

theorem PassState.PlainApart.of_objects (h : s.PlainApart pass)
    (hobjects : ∀ name token, t.ledger.object? name = some (.done (some token)) →
      s.ledger.object? name = some (.done (some token))) : t.PlainApart pass :=
  fun _ _ _ _ _ _ token hplain hplain' hd hd' =>
    h _ _ _ _ _ _ token hplain hplain' (hobjects _ _ hd) (hobjects _ _ hd')

section Tokens

variable (hnode : (pass.catalog.get? "Node").isSome = true)

include hnode

end Tokens

/-! ### No token is empty -/

/-- What a call gives in a state without empty tokens is not empty. -/
theorem spelled_walk {depth : Nat} {tree : NodeTree} {node : Node} {useLiterals : Bool}
    {value : Resolved} (hs : s.Spelled)
    (h : (pass.walk depth tree node useLiterals).runOn s = (.ok (some value), t)) :
    value.Spelled := by
  have hends :=
    Contract.walk (spelledContract pass) trivial depth tree node useLiterals trivial s hs trivial
  rw [h] at hends
  exact (hends.2.2 value rfl).val

theorem spelled_writeObjectMaterial {depth : Nat} {token : String} (hs : s.Spelled)
    (h : (pass.writeObjectMaterial (pass.walk depth)).runOn s = (.ok token, t)) : token ≠ "" := by
  have hends := Contract.keeps_writeObjectMaterial
    (Contract.walk (spelledContract pass) trivial depth) s hs trivial
  rw [h] at hends
  exact spelled_reference.mp hends.2.2

theorem spelled_buildObject {depth : Nat} {token : String} (hs : s.Spelled)
    (ho : pass.scene.object? name = some object)
    (h : (pass.buildObject (pass.walk depth) name object).runOn s = (.ok (some token), t)) :
    token ≠ "" := by
  have hends := Contract.keeps_buildObject
    (Contract.walk (spelledContract pass) trivial depth) ho s hs trivial
  rw [h] at hends
  exact spelled_reference.mp (hends.2.2 token rfl)

theorem PassState.Spelled.enter (h : s.Spelled) (name : String) (object : SceneObject) :
    (s.enter name object).Spelled := h.setObject name _ fun _ he => by cases he

/-- No call is made in a state with an empty token. -/
theorem Pass.Journey.spelled (h : pass.Journey c s vs t) (hs : s.Spelled) :
    ∀ v ∈ vs, v.state.Spelled := by
  refine fun v hv => ((h.invariant PassState.Spelled (fun _ _ halike _ hs => hs.congr halike)
    (fun s t tree token hrun hs ht => ?_) (fun v inner vs u hb hv => ?_)
    (fun v inner vs u hb _ hv hu => ?_) hs).2 v hv).1
  · exact { ht with
      override := fun other he => by
        cases he
        exact spelled_writeMaterialTree hs hrun }
  · cases hb with
    | passed | gathered | hidden => exact hv
    | built | dropped => exact hv.setNode _ _ fun _ he => by cases he
    | left | quit => exact hv.enter _ _
  · cases hb with
    | passed => exact hu
    | built hcall _ hw hrun =>
      rw [hrun]
      refine (hu.congr hw.alike).setNode _ _ fun value he => ?_
      cases he
      obtain ⟨call, depth, state⟩ := v
      obtain rfl : call = _ := hcall
      exact spelled_walk hv hrun
    | dropped _ _ hrun => rw [hrun]; exact hu.abandonNode _ _
    | gathered hcall _ _ _ _ _ _ hcombine hrun =>
      obtain ⟨call, depth, state⟩ := v
      obtain rfl : call = _ := hcall
      have hown := hrun
      rw [Visit.run_ownMaterial] at hown
      rcases ho : (pass.writeObjectMaterial (pass.walk depth)).runOn state with ⟨f | token, x⟩ <;>
        rw [ho] at hown <;> cases hown
      rw [hrun]
      exact (hu.congr (alike_combineMaterials hcombine).1).setSynthesized _
        (spelled_writeObjectMaterial hv ho)
    | hidden _ _ hrun => rw [hrun]; exact hu.setObject _ _ fun _ he => by cases he
    | left _ _ ho hbuild hrun =>
      rw [hrun]
      refine hu.setObject _ _ fun token he => ?_
      cases he
      exact spelled_buildObject (hv.enter _ _) ho hbuild
    | quit _ _ _ hrun => rw [hrun]; exact hu.abandonObject _ _

end ShadeNet
