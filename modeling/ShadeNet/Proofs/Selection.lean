/-
# Selectors and the pass agree on objects

A selector compiles the objects it names where they are not compiled yet, and an object
keeps the token that it is entered with. So whenever a selector is met, its list is what
the ledger has for these objects in the end of the pass: an object is in every list with
the same token, or in none. An object that is still being compiled is never asked for.

Key definitions: `Scene.selected?`, `PassState.objectToken?`, `PassState.Listed`.
Key theorems: `Journey.objects`, `Journey.listed`, `Journey.never_reentered`,
`selectors_agree`.
-/
import ShadeNet.Proofs.Recall

namespace ShadeNet

open Compile

/-- The names of the objects that a selector selects, if a node of this kind is one. -/
def Scene.selected? (scene : Scene) : NodeKind → Option (List String)
  | .selectObject object => some object.toList
  | .selectGroup group => some (((group.bind scene.group?).map Group.objects).getD [])
  | _ => none

/-- The token that a state has for an object that the scene knows and shows. -/
def PassState.objectToken? (scene : Scene) (s : PassState) (name : String) : Option String :=
  match scene.object? name, s.ledger.object? name with
  | some object, some (.done token) => if object.visible then token else none
  | _, _ => none

variable {pass : Pass} {scene : Scene} {c : Option Visit} {s t u inner : PassState} {v : Visit}
  {vs : List Visit} {name : String}

/-! ### Objects that are compiled -/

namespace Pass

/-- An object that was compiled when a visit ended has its token in the end of the journey. -/
theorem Journey.objects (h : pass.Journey c s vs t) :
    (∀ name token, s.ledger.object? name = some (.done token) →
      t.ledger.object? name = some (.done token)) ∧
    ∀ v ∈ vs, ∀ name token, (v.run pass).2.ledger.object? name = some (.done token) →
      t.ledger.object? name = some (.done token) := by
  have hall := h.relates (fun s t => ∀ name token, s.ledger.object? name = some (.done token) →
    t.ledger.object? name = some (.done token)) (fun _ _ _ hd => hd)
    (fun _ _ _ h k name token hd => k name token (h name token hd))
    (fun _ _ ha _ name _ hd => (ha.object? name).trans hd) (fun _ _ _ _ hd => hd)
    (fun v inner vs u hb name token hd => hb.object_kept_inner hd) ?_
  · exact ⟨hall.1, fun v hv => (hall.2 v hv).2⟩
  · intro v inner vs u hb hj name token hu
    -- the object that is compiled in the bracket has no token when the bracket closes
    have hother : ∀ {other object}, inner = v.state.enter other object → other ≠ name := by
      rintro other object rfl rfl
      have hmark : (v.state.enter other object).ledger.object? other = some .resolving :=
        (Ledger.object?_setObject _ _ _ _).trans (if_pos rfl)
      rw [(hj.object_kept hmark).1] at hu
      cases hu
    cases hb with
    | passed => exact hu
    | built _ _ hw hrun => rw [hrun]; exact (hw.alike.object? name).trans hu
    | dropped _ _ hrun => rw [hrun]; exact hu
    | gathered _ _ _ _ _ _ _ hcombine hrun =>
      rw [hrun]
      exact ((alike_combineMaterials hcombine).1.object? name).trans hu
    | hidden _ hnone hrun =>
      rw [hrun]
      refine (Ledger.object?_setObject _ _ _ _).trans ?_
      rw [if_neg, hu]
      rintro rfl
      rw [hnone] at hu
      cases hu
    | left _ _ _ _ hrun =>
      rw [hrun]
      exact (Ledger.object?_setObject _ _ _ _).trans (by rw [if_neg (hother rfl), hu])
    | quit _ _ _ hrun =>
      rw [hrun]
      exact (Ledger.object?_abandonObject _ _ _).trans (by rw [if_neg (hother rfl), hu])

/-- What is being compiled in the end of a journey was so when it began. -/
theorem Journey.object_resolving (h : pass.Journey c s vs t)
    (ht : t.ledger.object? name = some .resolving) :
    s.ledger.object? name = some .resolving := by
  induction h with
  | quiet halike => exact (halike.object? name).symm.trans ht
  | chosen _ _ ih => exact ih ht
  | append _ _ ih ih' => exact ih (ih' ht)
  | call _ hb _ ih =>
    -- an object that is entered or forgotten is not being compiled
    have hset : ∀ {l : Ledger} {other : String} {token : Option String},
        (l.setObject other (.done token)).object? name = some .resolving →
        other ≠ name ∧ l.object? name = some .resolving := by
      intro l other token hl
      rw [Ledger.object?_setObject] at hl
      split at hl
      · cases hl
      · exact ⟨‹_›, hl⟩
    have hopened : ∀ {other : String} {object : SceneObject} {s : PassState}, other ≠ name →
        (s.enter other object).ledger.object? name = some .resolving →
        s.ledger.object? name = some .resolving := fun hne hs =>
      ((Ledger.object?_setObject _ _ _ _).trans (if_neg hne)).symm.trans hs
    cases hb with
    | passed => exact ih ht
    | built _ _ hw hrun =>
      rw [hrun] at ht
      exact ih ((hw.alike.object? name).symm.trans ht)
    | dropped _ _ hrun =>
      rw [hrun] at ht
      exact ih ht
    | gathered _ _ _ _ _ _ _ hcombine hrun =>
      rw [hrun] at ht
      exact ih (((alike_combineMaterials hcombine).1.object? name).symm.trans ht)
    | hidden _ _ hrun =>
      rw [hrun] at ht
      exact (hset ht).2
    | left _ _ _ _ hrun =>
      rw [hrun] at ht
      exact hopened (hset ht).1 (ih (hset ht).2)
    | quit _ _ _ hrun =>
      rw [hrun] at ht
      have hforgotten := (Ledger.object?_abandonObject _ _ _).symm.trans ht
      split at hforgotten
      · cases hforgotten
      · exact hopened ‹_› (ih hforgotten)

/-- **No object is asked for while it is being compiled.** A selector fails before it would,
and where the pass itself asks for an object, none is being compiled. -/
theorem Journey.never_reentered (h : pass.Journey c s vs t)
    (hs : c = none → ∀ name, s.ledger.object? name ≠ some .resolving) :
    ∀ v ∈ vs, ∀ name, v.call = .object name → v.state.ledger.object? name ≠ some .resolving := by
  induction h with
  | quiet => simp
  | chosen _ _ ih => exact ih hs
  | append hj _ ih ih' =>
    intro v hv
    rcases List.mem_append.mp hv with hv | hv
    · exact ih hs v hv
    · exact ih' (fun hc name ht => hs hc name (hj.object_resolving ht)) v hv
  | call hcalls _ _ ih =>
    intro w hw name hcall
    rcases List.mem_cons.mp hw with rfl | hw
    · cases hcalls with
      | sceneObject => exact hs rfl name
      | selected _ hv hfree =>
        cases hcall.symm.trans hv
        exact hfree
      | sceneMaterial _ hv | source _ _ hv | ownMaterial _ _ hv | slot _ _ _ _ hv
      | materialEnd _ _ _ hv | objectEnd _ _ _ _ _ _ _ hv | plain _ _ _ hv =>
        cases hcall.symm.trans hv
    · exact ih nofun w hw name hcall

end Pass

/-! ### Objects of the scene -/

/-- The objects in the ledger are of the scene, and those with a token are shown. -/
structure PassState.Listed (scene : Scene) (s : PassState) : Prop where
  known : ∀ name progress, s.ledger.object? name = some progress →
    ∃ object, scene.object? name = some object
  shown : ∀ name token object, s.ledger.object? name = some (.done (some token)) →
    scene.object? name = some object → object.visible = true

namespace PassState.Listed

theorem congr (h : s.Listed scene)
    (ho : ∀ name, t.ledger.object? name = s.ledger.object? name) : t.Listed scene :=
  ⟨fun name progress hp => h.known name progress ((ho name).symm.trans hp),
    fun name token object hd => h.shown name token object ((ho name).symm.trans hd)⟩

/-- An object of the scene is entered, with a token only if it is shown. -/
theorem setObject {object : SceneObject} {progress : Progress (Option String)} (h : s.Listed scene)
    (ho : scene.object? name = some object)
    (hshown : ∀ token, progress = .done (some token) → object.visible = true)
    (ht : t.ledger.objects = (s.ledger.setObject name progress).objects) : t.Listed scene := by
  have hlook : ∀ other, t.ledger.object? other =
      if name = other then some progress else s.ledger.object? other := by
    intro other
    rw [← Ledger.object?_setObject]
    exact congrArg (OrderedMap.get? · other) ht
  refine ⟨fun other p hp => ?_, fun other token o hd hother => ?_⟩
  · rw [hlook] at hp
    split at hp
    · rename_i heq
      exact ⟨object, heq ▸ ho⟩
    · exact h.known other p hp
  · rw [hlook] at hd
    split at hd
    · rename_i heq
      cases heq
      cases ho.symm.trans hother
      exact hshown token (Option.some.inj hd)
    · exact h.shown other token o hd hother

theorem abandonObject (h : s.Listed scene)
    (ht : t.ledger.objects = (s.ledger.abandonObject name).objects) : t.Listed scene := by
  have hlook : ∀ other progress, t.ledger.object? other = some progress →
      s.ledger.object? other = some progress := by
    intro other progress hp
    have hp' : (s.ledger.abandonObject name).object? other = some progress :=
      (congrArg (OrderedMap.get? · other) ht).symm.trans hp
    rw [Ledger.object?_abandonObject] at hp'
    split at hp'
    · cases hp'
    · exact hp'
  exact ⟨fun other p hp => h.known other p (hlook other p hp),
    fun other token o hd => h.shown other token o (hlook other _ hd)⟩

end PassState.Listed

/-- Throughout a pass the objects in the ledger are of the scene, and those with a token are
shown. -/
theorem Pass.Journey.listed (h : pass.Journey c s vs t) (hs : s.Listed pass.scene) :
    t.Listed pass.scene ∧ ∀ v ∈ vs, v.state.Listed pass.scene := by
  have hall := h.invariant (PassState.Listed pass.scene)
    (fun _ _ ha _ hs => hs.congr ha.object?) (fun _ _ _ _ _ _ ht => ht.congr fun _ => rfl)
    (fun v inner vs u hb hv => ?_) (fun v inner vs u hb _ _ hu => ?_) hs
  · exact ⟨hall.1, fun v hv => (hall.2 v hv).1⟩
  · cases hb with
    | passed | built | dropped | gathered | hidden => exact hv.congr fun _ => rfl
    | left _ _ ho | quit _ _ ho => exact hv.setObject ho (fun _ he => by cases he) rfl
  · cases hb with
    | passed => exact hu
    | built _ _ hw hrun => rw [hrun]; exact hu.congr hw.alike.object?
    | dropped _ _ hrun => rw [hrun]; exact hu.congr fun _ => rfl
    | gathered _ _ _ _ _ _ _ hcombine hrun =>
      rw [hrun]
      exact hu.congr (alike_combineMaterials hcombine).1.object?
    | hidden _ _ hrun ho => rw [hrun]; exact hu.setObject ho (fun _ he => by cases he) rfl
    | left _ _ ho _ hrun hvisible => rw [hrun]; exact hu.setObject ho (fun _ _ => hvisible) rfl
    | quit _ _ _ hrun => rw [hrun]; exact hu.abandonObject rfl

theorem PassState.Listed.objectToken?_done {token : Option String} (h : s.Listed scene)
    (hd : s.ledger.object? name = some (.done token)) : s.objectToken? scene name = token := by
  obtain ⟨object, ho⟩ := h.known name _ hd
  unfold PassState.objectToken?
  simp only [ho, hd]
  split
  · rfl
  · rename_i hhidden
    cases token with
    | none => rfl
    | some token => exact absurd (h.shown name token object hd ho) hhidden

theorem PassState.objectToken?_unknown (h : scene.object? name = none) :
    s.objectToken? scene name = none := by
  simp only [PassState.objectToken?, h]

/-! ### Selectors -/

section Selectors

variable {depth : Nat} {tree : NodeTree} {node : Node}

/-- What came of an object is what a later state has for it. -/
theorem PassState.Listed.objectToken?_eq {token : Option String} {x : PassState}
    (hlisted : x.Listed pass.scene)
    (hx : ∀ name token, t.ledger.object? name = some (.done token) →
      x.ledger.object? name = some (.done token))
    (h : t.ledger.object? name = some (.done token) ∨
      token = none ∧ pass.scene.object? name = none ∧ t.ledger.object? name = none) :
    x.objectToken? pass.scene name = token := by
  rcases h with hdone | ⟨rfl, hunknown, -⟩
  · exact hlisted.objectToken?_done (hx name token hdone)
  · exact PassState.objectToken?_unknown hunknown

/-- What a selector gives is what a later state has for the objects it names, in order. -/
theorem collect_objectTokens {names tokens : List String} {x : PassState}
    (h : (collect (pass.selectMember (pass.walk depth) tree node) names).runOn s = (.ok tokens, t))
    (hx : ∀ name token, t.ledger.object? name = some (.done token) →
      x.ledger.object? name = some (.done token))
    (hlisted : x.Listed pass.scene) : tokens = names.filterMap (x.objectToken? pass.scene) := by
  induction names generalizing s tokens with
  | nil =>
    cases h
    rfl
  | cons first rest ih =>
    obtain ⟨token, u, hfirst, h⟩ := of_runOn_bind_ok h
    obtain ⟨others, w, hothers, h⟩ := of_runOn_bind_ok h
    cases h
    have hlasting : pass.Lasting (collect (pass.selectMember (pass.walk depth) tree node) rest) :=
      Pass.Lasting.collect fun name _ => lasting_selectMember depth tree node name
    have hlasts := (hlasting.lasts hothers).objects
    have htoken := hlisted.objectToken?_eq
      (fun name token hd => hx name token (hlasts name token hd)) (selectMember_ok hfirst)
    rw [List.filterMap_cons, htoken, ← ih hothers]
    cases token <;> rfl

theorem collect_append {α β : Type} (f : α → Compile (Option β)) (l m : List α) :
    collect f (l ++ m) = (do
      let first ← collect f l
      let others ← collect f m
      return first ++ others) := by
  induction l with
  | nil => simp [collect]
  | cons a rest ih =>
    simp only [collect, List.cons_append, ih, bind_assoc, pure_bind, List.append_assoc]

/-- A selector that comes to an object that is being compiled fails with a cycle, if it does
not fail before. -/
theorem select_resolving {α : Type} {before after : List String} (f : Resolved → Compile α)
    (hs : s.ledger.object? name = some .resolving) :
    (pass.select (pass.walk depth) tree node (before ++ name :: after) >>= f).runOn s =
      (pass.select (pass.walk depth) tree node before >>= fun _ =>
        throw (Failure.cycle tree.name node.name) : Compile α).runOn s := by
  unfold Pass.select
  rw [collect_append]
  simp only [bind_assoc]
  rw [runOn_bind, runOn_bind]
  have hlasting : pass.Lasting (collect (pass.selectMember (pass.walk depth) tree node) before) :=
    Pass.Lasting.collect fun name _ => lasting_selectMember depth tree node name
  have hkept := ((hlasting s).1.ledger.objects.resolving name).mpr hs
  generalize (collect (pass.selectMember (pass.walk depth) tree node) before).runOn s = o at hkept ⊢
  rcases o with ⟨e | first, u⟩
  · rfl
  · change u.ledger.object? name = some .resolving at hkept
    have hthrow : (pass.selectMember (pass.walk depth) tree node name).runOn u =
        (.error (.cycle tree.name node.name), u) := by
      unfold Pass.selectMember
      rw [runOn_bind_ok (runOn_get u), if_pos hkept]
      rfl
    simp only [collect, bind_assoc]
    rw [runOn_bind_error hthrow]
    rfl

/-- A selector picks the objects that it selects, unless it selects a stranger alone. -/
theorem run_selected {names : List String} {useLiterals : Bool}
    (hcall : v.call = .node tree node useLiterals) (hdepth : v.depth = depth + 1)
    (hnames : pass.scene.selected? node.kind = some names) :
    ∃ picked, (picked = names ∨ picked = [] ∧ ∀ name ∈ names, pass.scene.object? name = none) ∧
      v.run pass = (pass.select (pass.walk depth) tree node picked >>= fun value =>
        pure (some value)).runOn v.state := by
  have hrun : v.run pass = (pass.compileNode (pass.walk depth) tree node useLiterals).runOn
      v.state := by
    unfold Visit.run
    rw [hcall, hdepth]
    rfl
  rw [hrun]
  unfold Pass.compileNode
  cases hkind : node.kind <;> rw [hkind] at hnames <;> cases hnames
  case selectObject object =>
    refine ⟨_, ?_, rfl⟩
    cases object with
    | none => exact Or.inl rfl
    | some name =>
      cases ho : pass.scene.object? name with
      | none => exact Or.inr (by simp [ho])
      | some object => exact Or.inl (by simp [ho])
  case selectGroup group => exact ⟨_, Or.inl rfl, rfl⟩

end Selectors

/-! ### What the lists of a pass have in common -/

/-- **Selectors and the pass agree on objects.** A selector that is met in a pass, however the
pass ends, gives the tokens that the end of the pass has for the objects it selects: those that
the scene knows and shows and that have one, in the order of the selection. A call for an
object gives the same token. An object is never asked for while it is being compiled, since a
selector that comes to such an object fails with a cycle, if it does not fail before. -/
theorem selectors_agree (pass : Pass) (s : PassState) (v : Visit) (hv : v ∈ pass.visits s) :
    (∀ tree node useLiterals names value, v.call = .node tree node useLiterals →
      pass.scene.selected? node.kind = some names → (v.run pass).1 = .ok value →
      value = some (.objects
        (names.filterMap ((pass.run.runOn s).2.objectToken? pass.scene)))) ∧
    (∀ name, v.call = .object name → v.state.ledger.object? name ≠ some .resolving ∧
      ∀ value, (v.run pass).1 = .ok value →
        value = ((pass.run.runOn s).2.objectToken? pass.scene name).map .reference) ∧
    ∀ tree node useLiterals depth before name after, v.call = .node tree node useLiterals →
      v.depth = depth + 1 → pass.scene.selected? node.kind = some (before ++ name :: after) →
      v.state.ledger.object? name = some .resolving →
      v.run pass = (pass.select (pass.walk depth) tree node before >>= fun _ =>
        throw (Failure.cycle tree.name node.name)).runOn v.state := by
  have hjourney := journey_pass pass s
  have hkept := hjourney.objects.2 v hv
  have hheaded : (pass.headed s).Listed pass.scene := ⟨nofun, nofun⟩
  obtain ⟨hend, hlisted⟩ := hjourney.listed hheaded
  have hfree := hjourney.never_reentered (fun _ _ => nofun) v hv
  refine ⟨fun tree node useLiterals names value hcall hnames hrun => ?_,
    fun name hcall => ⟨hfree name hcall, fun value hrun => ?_⟩,
    fun tree node useLiterals depth before name after hcall hdepth hnames hs => ?_⟩
  · cases hdepth : v.depth with
    | zero =>
      unfold Visit.run at hrun
      rw [hcall, hdepth] at hrun
      cases hrun
    | succ depth =>
      obtain ⟨picked, hpicked, heq⟩ := run_selected hcall hdepth hnames
      obtain ⟨u, hu⟩ : ∃ u, v.run pass = (.ok value, u) := ⟨_, Prod.ext hrun rfl⟩
      rw [hu] at hkept
      rw [hu] at heq
      unfold Pass.select at heq
      rw [bind_assoc] at heq
      obtain ⟨tokens, w, htokens, heq⟩ := of_runOn_bind_ok heq.symm
      cases heq
      rw [collect_objectTokens htokens hkept hend]
      rcases hpicked with rfl | ⟨rfl, hunknown⟩
      · rfl
      · congr 2
        exact (List.filterMap_eq_nil_iff.mpr fun name hname =>
          PassState.objectToken?_unknown (hunknown name hname)).symm
  · obtain ⟨call, depth, state⟩ := v
    cases hcall
    rw [Visit.run_object] at hrun hkept
    generalize htoken : (pass.writeObject (pass.walk depth) name).runOn state = o at hrun hkept
    rcases o with ⟨e | token, u⟩
    · cases hrun
    · cases hrun
      rw [hend.objectToken?_eq hkept (writeObject_ok (hfree name rfl) htoken)]
  · obtain ⟨picked, hpicked, heq⟩ := run_selected hcall hdepth hnames
    obtain ⟨object, ho⟩ := (hlisted v hv).known name _ hs
    rcases hpicked with rfl | ⟨-, hunknown⟩
    · rw [heq, select_resolving _ hs]
    · have hnone := hunknown name (List.mem_append_right _ List.mem_cons_self)
      rw [ho] at hnone
      cases hnone

/-- The tree of a material with one shading model, whose users are a group of objects. -/
def crowdTree : NodeTree :=
  .ofParts "Crowd"
    [{ name := "End", kind := .materialOutput false,
        inputs := [⟨"Material", .input, .material, none, none⟩] },
      { name := "Paint", kind := .plugin .brdf "BRDFDiffuse",
        inputs := [⟨"Users", .input, .objects, some "users", none⟩] },
      { name := "Pick", kind := .selectGroup (some "All") }]
    [⟨⟨1⟩, ⟨"Paint", "Out"⟩, ⟨"End", "Material"⟩⟩, ⟨⟨2⟩, ⟨"Pick", "Out"⟩, ⟨"Paint", "Users"⟩⟩]

/-- A material that selects an object twice, one that is hidden and one that is not there. -/
def crowdScene : Scene :=
  ((((({} : Scene).addTree crowdTree).addMaterial "Crowd" ⟨some "Crowd"⟩).addObject "Cube"
    { mesh := some "Cube" }).addObject "Ball" { mesh := some "Ball", visible := false }).addGroup
      "All" ⟨["Cube", "Ball", "Ghost", "Cube"]⟩

/-- The pass over the material and its objects. -/
def crowdPass : Pass := ⟨⟨crowdScene, Catalog.builtin, {}⟩, { geometry := .external }, 1⟩

/-- The list of the selector in the crowd is what the pass has for its objects. -/
theorem selectors_agree_crowd :
    ∃ v ∈ crowdPass.visits {}, ∃ node useLiterals,
      v.call = .node crowdTree node useLiterals ∧
      crowdScene.selected? node.kind = some ["Cube", "Ball", "Ghost", "Cube"] ∧
      (v.run crowdPass).1 = .ok (some (.objects ["OBCube", "OBCube"])) ∧
      ["OBCube", "OBCube"] = ["Cube", "Ball", "Ghost", "Cube"].filterMap
        ((crowdPass.run.runOn {}).2.objectToken? crowdScene) := by
  have hfound : ∃ v ∈ crowdPass.visits {},
      v.call = .node crowdTree crowdTree.nodes.values[2] true ∧
      (v.run crowdPass).1 = .ok (some (.objects ["OBCube", "OBCube"])) := by decide +kernel
  obtain ⟨v, hv, hcall, hrun⟩ := hfound
  have hlist := (selectors_agree crowdPass {} v hv).1 _ _ _ _ _ hcall rfl hrun
  exact ⟨v, hv, _, _, hcall, rfl, hrun, Resolved.objects.inj (Option.some.inj hlist)⟩

end ShadeNet
