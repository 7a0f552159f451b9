/-
# The material of an object comes of its slots

What the material of an object comes to is kept under the multi-material name of the
object. If no other object asks for that name, what is found there comes of the slots of
the object itself: the calls for its materials were made in its scope. Names that differ in
a sign alone have one multi-material name, though, and then the object that comes second
gets the material of the first.

Key definitions: `Pass.OwnMaterial`.
Key theorems: `material_of_own_slots`, `material_of_namesake`.
-/
import ShadeNet.Proofs.Override
import ShadeNet.Proofs.Provenance
import ShadeNet.Proofs.Termination

namespace ShadeNet

open Compile

variable {pass : Pass} {s t u w : PassState} {visits : List Visit} {scope : ObjectScope}
  {object : SceneObject} {records : List Record} {token : String} {tokens : List String}
  {depth : Nat}

/-- A token is the material of an object: the default if none of its slots has a tree, the
token of the only tree if one has, and otherwise the name of a record that lists the tokens
of the trees, in order, numbered from one. The tokens are those that the calls for the trees
gave in the scope of the object. -/
def Pass.OwnMaterial (pass : Pass) (visits : List Visit) (scope : ObjectScope)
    (object : SceneObject) (records : List Record) (token : String) : Prop :=
  ∃ tokens, pass.SlotsGive visits scope object tokens ∧ match tokens with
    | [] => token = defaultMaterial
    | [only] => token = only
    | _ => ∃ r ∈ records, r.name = token ∧ r.plugin = "MtlMulti" ∧
        r.attr? "mtls_list" = some (listText .references tokens) ∧
        r.attr? "ids_list" = some (listText .ints ((List.range' 1 tokens.length).map toString))

/-- What the tokens of the slots come to is the material of the object. -/
theorem ownMaterial_of_combine {name : String} (hgive : pass.SlotsGive visits scope object tokens)
    (h : (pass.combineMaterials (multiMaterialName name) tokens).runOn u = (.ok token, w))
    (hrecords : w.sent ⊆ records) : pass.OwnMaterial visits scope object records token := by
  refine ⟨tokens, hgive, ?_⟩
  rcases combineMaterials_ok h with ⟨rfl, rfl, -⟩ | ⟨rfl, -⟩ | ⟨hseveral, hname, hw⟩
  · rfl
  · rfl
  · match tokens, hseveral with
    | first :: second :: rest, _ =>
      have hsent : Pass.multiMaterialRecord token (first :: second :: rest) ∈ w.sent := by
        rw [hw.sent]
        exact List.mem_append_right _ List.mem_cons_self
      exact ⟨_, hrecords hsent, hname, rfl, rfl, rfl⟩

/-! ### Runs -/

/-- A step whose result is known ends with it. -/
theorem runOn_of_ok {α : Type} {c : Compile α} {a : α} (h : (c.runOn s).1 = .ok a) :
    c.runOn s = (.ok a, (c.runOn s).2) := by
  rw [← h]

theorem writeObjectMaterial_recalled {compile : NodeCompiler} (hscope : s.scope = some scope)
    (ho : pass.scene.object? scope.name = some object)
    (hmemo : s.ledger.synthesized? (multiMaterialName scope.name) = some token) :
    (pass.writeObjectMaterial compile).runOn s = (.ok token, s) := by
  unfold Pass.writeObjectMaterial
  rw [runOn_bind_ok (runOn_get s)]
  simp only [hscope, ho, hmemo]
  rfl

theorem writeObjectMaterial_gathered {compile : NodeCompiler} (hscope : s.scope = some scope)
    (ho : pass.scene.object? scope.name = some object)
    (hnone : s.ledger.synthesized? (multiMaterialName scope.name) = none)
    (h : (pass.writeObjectMaterial compile).runOn s = (.ok token, t)) :
    ∃ tokens u w, (collect (pass.slotMaterial compile) object.slots).runOn s = (.ok tokens, u) ∧
      (pass.combineMaterials (multiMaterialName scope.name) tokens).runOn u = (.ok token, w) ∧
      t = w.synthesize (multiMaterialName scope.name) token := by
  unfold Pass.writeObjectMaterial at h
  rw [runOn_bind_ok (runOn_get s)] at h
  simp only [hscope, ho, hnone] at h
  obtain ⟨tokens, u, hcollect, h⟩ := of_runOn_bind_ok h
  obtain ⟨_, w, hcombine, h⟩ := of_runOn_bind_ok h
  cases h
  exact ⟨tokens, u, w, hcollect, hcombine, rfl⟩

/-- What the parts of a pass have, the material of the object in scope has, if the names and
the entries that it makes have it. -/
theorem Pass.Parts.ownMaterial {P : ∀ {α : Type}, Compile α → Prop} (h : pass.Parts P)
    (hclaim : ∀ base, P (claimName base)) (hledger : ∀ f, P (modifyLedger f)) :
    P (pass.writeObjectMaterial pass.compiler) := by
  have hslot : ∀ slot, P (pass.slotMaterial pass.compiler slot) := by
    intro slot
    unfold Pass.slotMaterial
    split
    · exact h.composes.pure _
    · rename_i htree
      obtain ⟨material, -, hm⟩ := Option.bind_eq_some_iff.mp htree
      exact h.composes.bind (h.material hm) fun _ => h.composes.pure _
  have hcombine : ∀ key tokens, P (pass.combineMaterials key tokens) := by
    intro key tokens
    unfold Pass.combineMaterials
    split
    · exact h.composes.pure _
    · exact h.composes.pure _
    · exact h.composes.bind (hclaim _) fun _ => h.emit _
  unfold Pass.writeObjectMaterial
  refine h.composes.bind h.get fun s => ?_
  split
  · exact h.composes.bind (h.report _) fun _ => h.composes.pure _
  · split
    · exact h.composes.pure _
    · dsimp only
      split
      · exact h.composes.pure _
      · exact h.composes.bind (h.composes.collect fun slot _ => hslot slot) fun _ =>
          h.composes.bind (hcombine _ _) fun _ =>
            h.composes.bind (hledger _) fun _ => h.composes.pure _

/-! ### States of a pass -/

/-- What is found under a multi-material name that one object asks for alone comes of the
slots of this object. -/
theorem ownMaterial_of_recalled {v : Visit} (hv : v ∈ pass.visits s)
    (hscope : v.state.scope = some scope) (ho : pass.scene.object? scope.name = some object)
    (halone : pass.scene.AsksAlone scope.name)
    (hmemo : v.state.ledger.synthesized? (multiMaterialName scope.name) = some token) :
    pass.OwnMaterial (pass.visits s) scope object v.state.sent token := by
  obtain ⟨w, hw, henters, hearlier⟩ :=
    holds_visit pass hv (m := .material (multiMaterialName scope.name) token) hmemo
  obtain ⟨scope', object', tokens, u, x, hscope', ho', hkey, hgive, hcombine, hx⟩ :=
    henters.of_material
  have hname : scope'.name = scope.name := halone _ _ ho' hkey
  have hobject : object' = object := by
    rw [hname, ho] at ho'
    exact (Option.some.inj ho').symm
  -- the scope of an object is known by its name
  have hsame : scope' = scope := by
    obtain ⟨-, own, hown, hs⟩ := placed_visit pass hv scope hscope
    obtain ⟨-, own', hown', hs'⟩ := placed_visit pass hw scope' hscope'
    rw [hname, hown] at hown'
    cases hown'
    rw [hs, hs', hname]
  subst hobject hsame
  exact ownMaterial_of_combine hgive hcombine (hx.sent.trans hearlier.sent).subset

/-- What is gathered from the slots comes of them. -/
theorem ownMaterial_of_gathered (hscope : s.scope = some scope)
    (ho : pass.scene.object? scope.name = some object)
    (hnone : s.ledger.synthesized? (multiMaterialName scope.name) = none)
    (h : (pass.writeObjectMaterial (pass.walk depth)).runOn s = (.ok token, t)) :
    pass.OwnMaterial (pass.ownMaterialTrace depth (pass.nodeTrace depth) s) scope object t.sent
      token := by
  obtain ⟨tokens, u, w, hcollect, hcombine, rfl⟩ := writeObjectMaterial_gathered hscope ho hnone h
  have hgive := slots_give (told pass depth) (calls_slot pass depth hscope ho) hscope hcollect
  have htrace : pass.ownMaterialTrace depth (pass.nodeTrace depth) s =
      ⟨.ownMaterial, depth, s⟩ :: pass.slotsTrace depth (pass.nodeTrace depth) s := rfl
  rw [htrace, slotsTrace_eq pass depth _ hscope ho hnone]
  have hgive : pass.SlotsGive _ scope object tokens := hgive
  exact ownMaterial_of_combine (hgive.mono (List.subset_cons_self _ _)) hcombine
    (List.Subset.refl _)

/-- **The material of an object comes of its slots**, if no other object asks for its
multi-material name. In each state in which a pass calls something in the scope of the
object, the material is the one that the slots of the object give, whether it is found or
gathered. It never fails with a cycle; and where nothing goes wrong outside and nothing
comes back over the ends of trees, it does not fail. -/
theorem material_of_own_slots (pass : Pass) (s : PassState) (v : Visit) (hv : v ∈ pass.visits s)
    (scope : ObjectScope) (hscope : v.state.scope = some scope)
    (halone : pass.scene.AsksAlone scope.name) (depth : Nat) :
    let compile := pass.walk depth
    let own := pass.ownMaterialTrace depth (pass.nodeTrace depth) v.state
    ∃ object, pass.scene.object? scope.name = some object ∧
      (match (pass.writeObjectMaterial compile).runOn v.state with
        | (.ok token, t) => pass.OwnMaterial (pass.visits s ++ own) scope object t.sent token
        | (.error failure, _) => failure.isCycle = false) ∧
      (pass.Calm → pass.scene.Straight → v.state.sink.unlimited = true →
        pass.scene.walkDepth ≤ depth →
        ∃ token t, (pass.writeObjectMaterial compile).runOn v.state = (.ok token, t)) := by
  intro compile own
  obtain ⟨-, object, ho, -⟩ := placed_visit pass hv scope hscope
  refine ⟨object, ho, ?_, fun hcalm hstraight hsink hdepth => ?_⟩
  · rcases hrun : (pass.writeObjectMaterial compile).runOn v.state with ⟨failure | token, t⟩
    · exact neverCycles_writeObjectMaterial pass compile v.state failure (by rw [hrun])
    · have hown : pass.OwnMaterial (pass.visits s ++ own) scope object t.sent token := by
        cases hmemo : v.state.ledger.synthesized? (multiMaterialName scope.name) with
        | none =>
          obtain ⟨tokens, hgive, hmatch⟩ := ownMaterial_of_gathered hscope ho hmemo hrun
          exact ⟨tokens, hgive.mono (List.subset_append_right _ _), hmatch⟩
        | some old =>
          rw [writeObjectMaterial_recalled hscope ho hmemo] at hrun
          cases hrun
          obtain ⟨tokens, hgive, hmatch⟩ := ownMaterial_of_recalled hv hscope ho halone hmemo
          exact ⟨tokens, hgive.mono (List.subset_append_left _ _), hmatch⟩
      exact hown
  · have hparts := endsWell_of_ringFree hcalm hstraight.ringFree
    have hends := hparts.ownMaterial (fun _ _ hs => hs) (fun _ _ hs => hs) v.state hsink
    have hdeep : Deepens (pass.writeObjectMaterial pass.compiler)
        (pass.writeObjectMaterial compile) :=
      (depthPairing pass).writeObjectMaterial (walk_deepens pass hdepth)
    rcases hrun : (pass.writeObjectMaterial pass.compiler).runOn v.state with ⟨failure | token, t⟩
    · rw [hrun] at hends
      exact hends.elim
    · have hsame := (hdeep v.state).resolve_left (by rw [hrun]; exact nofun)
      exact ⟨token, t, hsame.trans hrun⟩

/-- Two objects with one mesh: the first has two materials, and the second has none. -/
def toneScene (first second : String) : Scene :=
  (((((({} : Scene).addTree (paintTree "Red" none)).addTree (paintTree "Blue" none)).addMaterial
    "Red" ⟨some "Red"⟩).addMaterial "Blue" ⟨some "Blue"⟩).addObject first
    { mesh := some "Cube", slots := [some "Red", some "Blue"] }).addObject second
    { mesh := some "Cube" }

/-- The pass over such a scene. -/
def tonePass (first second : String) : Pass :=
  ⟨⟨toneScene first second, Catalog.builtin, {}⟩, { geometry := .external }, 1⟩

/-- Beside an object with another name, the first has its two materials. -/
theorem material_of_own_slots_cube :
    let pass := tonePass "Cube" "Ball"
    let cube : SceneObject := { mesh := some "Cube", slots := [some "Red", some "Blue"] }
    pass.scene.AsksAlone "Cube" ∧ ∃ v ∈ pass.visits {}, v.call = .ownMaterial ∧
      v.state.scope = some (cube.scope "Cube") ∧ ∃ t,
        (pass.writeObjectMaterial (pass.walk v.depth)).runOn v.state = (.ok "OBMACube", t) ∧
        pass.OwnMaterial
          (pass.visits {} ++ pass.ownMaterialTrace v.depth (pass.nodeTrace v.depth) v.state)
          (cube.scope "Cube") cube t.sent "OBMACube" := by
  intro pass cube
  have halone : pass.scene.AsksAlone "Cube" := by
    intro other object hother heq
    have hkeys : other ∈ pass.scene.objects.keys := OrderedMap.mem_keys_of_get? hother
    have honly : ∀ name ∈ pass.scene.objects.keys,
        multiMaterialName name = multiMaterialName "Cube" → name = "Cube" := by decide +kernel
    exact honly other hkeys heq
  have hcube : pass.scene.object? "Cube" = some cube := by decide +kernel
  have hfound : ∃ v ∈ pass.visits {}, v.call = .ownMaterial ∧
      v.state.scope = some (cube.scope "Cube") ∧
      ((pass.writeObjectMaterial (pass.walk v.depth)).runOn v.state).1 = .ok "OBMACube" := by
    decide +kernel
  obtain ⟨v, hv, hcall, hscope, hrun⟩ := hfound
  obtain ⟨object, ho, hown, -⟩ := material_of_own_slots pass {} v hv _ hscope halone v.depth
  have hobject : object = cube := Option.some.inj (ho.symm.trans hcube)
  subst hobject
  have hends := runOn_of_ok hrun
  rw [hends] at hown
  exact ⟨halone, v, hv, hcall, hscope, _, hends, hown⟩

/-- The state with the names that are taken, written and kept spelled out. In a run they are
not, and it takes long to see that two of them are one. -/
def PassState.spell (s : PassState) (synthesized : OrderedMap String String)
    (names written : List String) : PassState :=
  { s with ledger :=
      { s.ledger with synthesized := synthesized, names := names, written := written } }

theorem PassState.eq_spell (s : PassState) (synthesized : OrderedMap String String)
    (names written : List String) (hsynthesized : s.ledger.synthesized = synthesized)
    (hnames : s.ledger.names = names) (hwritten : s.ledger.written = written) :
    s = s.spell synthesized names written := by
  unfold spell
  rw [← hsynthesized, ← hnames, ← hwritten]

/-- Where the pass over two objects whose names differ in a sign is behind the first. -/
def toneMiddle : PassState := (((tonePass "Cube.1" "Cube_1").before 3).runOn {}).2

/-- Beside an object whose name differs in a sign, the second has the materials of the first,
though it has no slots. No cycle is reported. -/
theorem material_of_namesake :
    let pass := tonePass "Cube.1" "Cube_1"
    let cube : SceneObject := { mesh := some "Cube" }
    pass.scene.object? "Cube_1" = some cube ∧
    (∀ line ∈ (pass.run.runOn {}).2.log, line.level = .info) ∧
    ((pass.run.runOn {}).2.sent.filter (·.name = "OBCube_1_1")).map (·.attr? "material") =
      [some "OBMACube_1"] ∧
    ∃ v ∈ pass.visits {}, v.call = .ownMaterial ∧ v.state.scope = some (cube.scope "Cube_1") ∧
      (pass.writeObjectMaterial (pass.walk v.depth)).runOn v.state =
        (.ok "OBMACube_1", v.state) ∧
      ∀ visits, ¬ pass.OwnMaterial visits (cube.scope "Cube_1") cube v.state.sent "OBMACube_1" := by
  intro pass cube
  have hcube : pass.scene.object? "Cube_1" = some cube := by decide +kernel
  have hspelled := toneMiddle.eq_spell (.ofList [("OBMACube_1", "OBMACube_1")])
    ["BRDFDiffuse_no_material", "Material_no_material", "NTRedNPaint", "NTBlueNPaint", "MECube",
      "OBMACube_1", "OBCube_1"]
    ["BRDFDiffuse_no_material", "Material_no_material", "NTRedNPaint", "NTBlueNPaint",
      "OBMACube_1", "OBCube_1"] (by decide +kernel) (by decide +kernel) (by decide +kernel)
  have hok : ((pass.before 3).runOn {}).1 = .ok () := by decide +kernel
  have hbefore : (pass.before 3).runOn {} = (.ok (), toneMiddle) := by
    unfold toneMiddle
    exact runOn_of_ok hok
  have hrun : pass.run.runOn {} =
      (((pass.items.drop 3).forM id >>= fun _ => pass.closing) : Compile Summary).runOn
        toneMiddle := by
    rw [pass.run_eq_before 3]
    exact runOn_bind_ok hbefore _
  have hfound : ∃ v ∈ pass.visits {}, v.call = .ownMaterial ∧
      v.state.scope = some (cube.scope "Cube_1") ∧
      v.state.ledger.synthesized = .ofList [("OBMACube_1", "OBMACube_1")] := by decide +kernel
  obtain ⟨v, hv, hcall, hscope, hmemo⟩ := hfound
  have hname : multiMaterialName "Cube_1" = "OBMACube_1" := by decide +kernel
  have hrecalled : v.state.ledger.synthesized? (multiMaterialName "Cube_1") =
      some "OBMACube_1" := by
    unfold Ledger.synthesized?
    rw [hmemo, hname]
    decide
  rw [hrun, hspelled]
  refine ⟨hcube, by decide +kernel, by decide +kernel, v, hv, hcall, hscope,
    writeObjectMaterial_recalled hscope hcube hrecalled, ?_⟩
  rintro visits ⟨tokens, hgive, hmatch⟩
  cases hgive
  have hdefault : "OBMACube_1" = defaultMaterial := hmatch
  exact absurd hdefault (by decide)

end ShadeNet
