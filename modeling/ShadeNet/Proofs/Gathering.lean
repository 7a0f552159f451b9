/-
# The materials of an object are gathered once

The calls that gather the materials of one object are nested: the second is made for a slot
that the first compiles. So there is one at most if no tree of a slot asks for the material
of the object. If one does, what it asks for is not there yet, and the materials are
gathered inside and then outside.

Key definitions: `Scene.SlotsClear`, `Call.InSlots`, `Visit.InSlots`.
Key theorems: `Brackets.gathers`, `Journey.gathered_behind`, `nested_of_gathered`,
`Journey.inSlots`, `gathered_once`, `gathered_twice`.
-/
import ShadeNet.Proofs.Settlement

namespace ShadeNet

open Compile Relation

variable {pass : Pass} {c : Option Visit} {s t u inner : PassState} {v w : Visit}
  {vs visits before middle after rest : List Visit} {scope : ObjectScope} {object : SceneObject}
  {name key : String} {r : Record}

/-! ### Calls that gather -/

/-- The calls for the material of an object are those of its slots. -/
theorem Visit.calls_ownMaterial (hcall : v.call = .ownMaterial) :
    v.calls pass = pass.slotsTrace v.depth (pass.nodeTrace v.depth) v.state := by
  obtain ⟨call, depth, state⟩ := v
  obtain rfl : call = .ownMaterial := hcall
  rfl

/-- Such a call compiles the slots first, and when these calls have returned it writes its record
and keeps its name. -/
theorem Pass.Brackets.gathers (hb : pass.Brackets v inner vs u)
    (h : pass.gathered? name v = some r) :
    inner = v.state ∧ vs = v.calls pass ∧ r.plugin = "MtlMulti" ∧
      pass.Balances True v.state ((v.calls pass).flatMap pass.ownRecords) u ∧
      ∃ w, u.Writes r w ∧ v.run pass =
        (.ok (some (.reference r.name)), w.synthesize (multiMaterialName name) r.name) := by
  obtain ⟨scope, object, tokens, token, hcall, hscope, rfl, ho, hnone, hseveral, hcollect, hresult,
    rfl⟩ := of_gathered? h
  cases hb with
  | passed hpassed =>
    rw [hpassed] at h
    cases h
  | built hc | dropped hc | hidden hc | left hc | quit hc =>
    rw [hcall] at hc
    cases hc
  | gathered _ hscope' ho' _ hcollect' hslots _ hcombine hrun =>
    rw [hscope] at hscope'
    cases hscope'
    rw [ho] at ho'
    cases ho'
    rw [hcollect'] at hcollect
    cases hcollect
    rw [hrun] at hresult
    cases hresult
    have hslotted := (Pass.Accounts.collect_plain fun slot _ =>
      accounts_slotMaterial (accounted pass v.depth) slot).of_ok hcollect'
    rw [← slotsTrace_eq pass v.depth _ hscope ho hnone, ← Visit.calls_ownMaterial hcall,
      Writing.none, List.append_nil] at hslotted
    rw [← Visit.calls_ownMaterial hcall] at hslots
    rcases combineMaterials_ok hcombine with ⟨rfl, -⟩ | ⟨rfl, -⟩ | ⟨-, -, hw⟩
    · simp at hseveral
    · simp at hseveral
    · exact ⟨rfl, hslots, rfl, hslotted, _, hw, hrun⟩

/-- So its answer is kept. -/
theorem Pass.Brackets.of_gathered (hb : pass.Brackets v inner vs u)
    (h : pass.gathered? name v = some r) :
    inner = v.state ∧ vs = pass.slotsTrace v.depth (pass.nodeTrace v.depth) v.state ∧
      (v.run pass).2.ledger.synthesized? (multiMaterialName name) ≠ none := by
  obtain ⟨hinner, hcalls, -, -, w, -, hrun⟩ := hb.gathers h
  obtain ⟨-, -, -, -, hcall, -⟩ := of_gathered? h
  refine ⟨hinner, hcalls.trans (Visit.calls_ownMaterial hcall), ?_⟩
  rw [hrun]
  have hkept := Ledger.synthesized?_setSynthesized
  exact (hkept _ _ _ _).trans_ne (by rw [if_pos rfl]; exact nofun)

/-! ### Answers that are kept -/

namespace Pass

theorem Brackets.kept_inner (hb : pass.Brackets v inner vs u)
    (h : v.state.ledger.synthesized? key ≠ none) : inner.ledger.synthesized? key ≠ none := by
  cases hb <;> exact h

theorem Brackets.kept_run (hb : pass.Brackets v inner vs u)
    (h : u.ledger.synthesized? key ≠ none) : (v.run pass).2.ledger.synthesized? key ≠ none := by
  cases hb with
  | passed => exact h
  | built _ _ hw hrun =>
    rw [hrun]
    exact (hw.alike.synthesized? key).trans_ne h
  | @gathered _ _ _ _ w _ _ _ _ _ _ _ _ _ hcombine hrun =>
    have hw : w.ledger.synthesized? key ≠ none :=
      ((alike_combineMaterials hcombine).1.synthesized? key).trans_ne h
    rw [hrun]
    refine (Ledger.synthesized?_setSynthesized _ _ _ _).trans_ne ?_
    split
    · exact nofun
    · exact hw
  | dropped _ _ hrun | hidden _ _ hrun | left _ _ _ _ hrun | quit _ _ _ hrun =>
    rw [hrun]
    exact h

/-- An answer that is there when a journey begins is there throughout. -/
theorem Journey.kept (h : pass.Journey c s vs t) (hs : s.ledger.synthesized? key ≠ none) :
    t.ledger.synthesized? key ≠ none ∧ ∀ v ∈ vs, v.state.ledger.synthesized? key ≠ none := by
  have hall := h.invariant (fun s => s.ledger.synthesized? key ≠ none)
    (fun _ _ ha _ hs => (ha.synthesized? key).trans_ne hs) (fun _ _ _ _ _ _ ht => ht)
    (fun _ _ _ _ hb hv => hb.kept_inner hv) (fun _ _ _ _ hb _ _ hu => hb.kept_run hu) hs
  exact ⟨hall.1, fun v hv => (hall.2 v hv).1⟩

/-- Behind a call that gathers the materials of an object come the visits of the slots, and
then none without an answer for the object. -/
theorem Journey.gathered_behind (h : pass.Journey c s visits t)
    (hvisits : visits = before ++ v :: rest) (hg : pass.gathered? name v = some r) :
    t.ledger.synthesized? (multiMaterialName name) ≠ none ∧
      ∃ after, rest = pass.slotsTrace v.depth (pass.nodeTrace v.depth) v.state ++ after ∧
        ∀ w ∈ after, w.state.ledger.synthesized? (multiMaterialName name) ≠ none := by
  induction h generalizing before rest with
  | quiet => simp at hvisits
  | chosen _ _ ih => exact ih hvisits
  | @append c s t u vs ws _ hj' ih ih' =>
    rcases List.append_eq_append_iff.mp hvisits with ⟨more, -, hws⟩ | ⟨more, hvs, hcons⟩
    · exact ih' hws
    · rcases List.cons_eq_append_iff.mp hcons with ⟨rfl, hws⟩ | ⟨last, rfl, rfl⟩
      · exact ih' (show _ = [] ++ _ from hws)
      · obtain ⟨ht, after, rfl, hafter⟩ := ih hvs
        obtain ⟨hu, hws⟩ := hj'.kept ht
        refine ⟨hu, after ++ ws, List.append_assoc _ _ _, fun w hw => ?_⟩
        exact (List.mem_append.mp hw).elim (hafter w) (hws w)
  | call _ hb _ ih =>
    rcases List.cons_eq_append_iff.mp hvisits with ⟨-, hcons⟩ | ⟨more, -, hvs⟩
    · cases hcons
      obtain ⟨-, hslots, hkept⟩ := hb.of_gathered hg
      exact ⟨hkept, [], by rw [hslots, List.append_nil], by simp⟩
    · obtain ⟨hu, hafter⟩ := ih hvs
      exact ⟨hb.kept_run hu, hafter⟩

end Pass

/-- Of two calls of a pass that gather the materials of one object, the second is made while
the first compiles the slots. -/
theorem nested_of_gathered (hvisits : pass.visits s = before ++ v :: (middle ++ w :: after))
    (hv : (pass.gathered? name v).isSome) (hw : (pass.gathered? name w).isSome) :
    ∃ rest, pass.slotsTrace v.depth (pass.nodeTrace v.depth) v.state = middle ++ w :: rest := by
  obtain ⟨r, hr⟩ := Option.isSome_iff_exists.mp hv
  obtain ⟨q, hq⟩ := Option.isSome_iff_exists.mp hw
  obtain ⟨-, behind, hrest, hkept⟩ := (journey_pass pass s).gathered_behind hvisits hr
  have hnot : w ∉ behind := by
    intro hmem
    obtain ⟨scope, -, -, -, -, -, rfl, -, hnone, -⟩ := of_gathered? hq
    exact hkept w hmem hnone
  rcases List.append_eq_append_iff.mp hrest with ⟨more, hslots, hcons⟩ | ⟨more, -, hbehind⟩
  · rcases List.cons_eq_append_iff.mp hcons with ⟨-, hbehind⟩ | ⟨last, rfl, -⟩
    · rw [hbehind] at hnot
      exact absurd List.mem_cons_self hnot
    · exact ⟨last, hslots⟩
  · rw [hbehind] at hnot
    exact absurd (List.mem_append_right _ List.mem_cons_self) hnot

/-! ### Slots that do not ask for the material of the object -/

/-- Behind the ends of the trees of an object's slots, no node asks for the material of the
object. -/
def Scene.SlotsClear (scene : Scene) (object : SceneObject) : Prop :=
  ∀ tree ∈ scene.slotTrees object, ∀ output, tree.materialOutput? = some output → ∀ node,
    ReflTransGen (fun x y => tree.Feeds y x) output node → node.kind ≠ .objectMaterial

/-- So it is if no node of these trees does. -/
theorem Scene.slotsClear_of_nodes {scene : Scene} (h : ∀ tree ∈ scene.slotTrees object,
    ∀ node ∈ tree.nodes.values, node.kind ≠ .objectMaterial) : scene.SlotsClear object := by
  intro tree ht output hout node hpath
  refine h tree ht node ?_
  rcases hpath.cases_tail with rfl | ⟨last, -, link, socket, -, hnode⟩
  · exact List.mem_of_find?_eq_some hout
  · exact OrderedMap.mem_values_of_get? hnode

/-- What is called in the scope of an object for its slots: the tree of a slot, a node behind
the end of one, or an object, but not the material of the object. -/
def Call.InSlots (scene : Scene) (object : SceneObject) : Call → Prop
  | .material tree => tree ∈ scene.slotTrees object
  | .node tree n _ => tree ∈ scene.slotTrees object ∧
      ∃ output, tree.materialOutput? = some output ∧
        ReflTransGen (fun x y => tree.Feeds y x) output n
  | .object _ => True
  | .ownMaterial => False

/-- In the scope of the object, only what is called for its slots is called. -/
def Visit.InSlots (scene : Scene) (scope : ObjectScope) (object : SceneObject) (v : Visit) : Prop :=
  v.state.scope = some scope → v.call.InSlots scene object

namespace Pass

/-- What is called for the slots is one of their trees. -/
theorem Calls.inSlots (h : pass.Calls (some w) v) (hcall : w.call = .ownMaterial)
    (hscope : w.state.scope = some scope) (ho : pass.scene.object? scope.name = some object) :
    v.InSlots pass.scene scope object := by
  intro _
  cases h with
  | slot _ hscope' ho' htree hv =>
    rw [hscope] at hscope'
    cases hscope'
    rw [ho] at ho'
    cases ho'
    rw [hv]
    exact htree
  | source hc | ownMaterial hc | selected hc | materialEnd hc | objectEnd hc | plain hc =>
    rw [hcall] at hc
    cases hc

/-- What is called for a visit in the slots of an object that is being compiled is in the
slots, too. -/
theorem Calls.inSlots_step (h : pass.Calls (some w) v)
    (hw : w.InSlots pass.scene scope object) (hclear : pass.scene.SlotsClear object)
    (hresolving : w.state.ledger.object? scope.name = some .resolving) :
    v.InSlots pass.scene scope object := by
  intro hscope
  -- the object is not compiled again, so a visit that leaves its scope does not come back
  have hother : ∀ {other : String} {found : SceneObject},
      w.state.ledger.object? other = none → v.state.scope ≠ some (found.scope other) := by
    intro other found hnone heq
    rw [hscope] at heq
    cases heq
    have hthis : w.state.ledger.object? other = some .resolving := hresolving
    rw [hnone] at hthis
    cases hthis
  have hcalled : v.state.scope = w.state.scope → w.call.InSlots pass.scene object :=
    fun hsame => hw (hsame.symm.trans hscope)
  cases h with
  | source hc hfeeds hv hs =>
    have hin := hcalled hs
    rw [hc] at hin
    obtain ⟨htree, output, hout, hpath⟩ := hin
    rw [hv]
    exact ⟨htree, output, hout, hpath.tail hfeeds⟩
  | ownMaterial hc hkind _ hs =>
    have hin := hcalled hs
    rw [hc] at hin
    obtain ⟨htree, output, hout, hpath⟩ := hin
    exact absurd hkind (hclear _ htree output hout _ hpath)
  | selected _ hv =>
    rw [hv]
    trivial
  | slot hc _ _ _ _ hs =>
    have hin := hcalled hs
    rw [hc] at hin
    exact hin.elim
  | materialEnd hc hout hfeeds hv hs =>
    have hin := hcalled hs
    rw [hc] at hin
    rw [hv]
    exact ⟨hin, _, hout, .single hfeeds⟩
  | objectEnd _ hnone _ _ _ _ _ _ hs => exact absurd hs (hother hnone)
  | plain _ hnone _ _ hs => exact absurd hs (hother hnone)

/-- A journey for a call in the slots, or for the slots, stays in the slots. -/
theorem Journey.inSlots (h : pass.Journey c s vs t) (hclear : pass.scene.SlotsClear object)
    (hc : ∀ v, pass.Calls c v → v.InSlots pass.scene scope object)
    (hs : s.ledger.object? scope.name = some .resolving) :
    ∀ v ∈ vs, v.InSlots pass.scene scope object := by
  induction h with
  | quiet => simp
  | chosen _ _ ih => exact ih hc hs
  | append hj _ ih ih' =>
    intro v hv
    exact (List.mem_append.mp hv).elim (ih hc hs v) (ih' hc (hj.object_kept hs).1 v)
  | call hcalls hb _ ih =>
    have hv := hc _ hcalls
    have hbelow := ih (fun _ hw => hw.inSlots_step hv hclear hs) (hb.object_kept_inner hs)
    exact List.forall_mem_cons.mpr ⟨hv, hbelow⟩

end Pass

/-- While the materials of an object whose slots do not ask for them are gathered, they are
not gathered again. -/
theorem not_gathered_in_slots (hv : v ∈ pass.visits s) (hg : pass.gathered? name v = some r)
    (ho : pass.scene.object? name = some object) (hclear : pass.scene.SlotsClear object)
    (hw : w ∈ pass.slotsTrace v.depth (pass.nodeTrace v.depth) v.state)
    (hmem : w ∈ pass.visits s) : pass.gathered? name w = none := by
  obtain ⟨scope, -, -, -, hcall, hscope, rfl, -⟩ := of_gathered? hg
  obtain ⟨hresolving, own, hown, hsame⟩ := placed_visit pass hv scope hscope
  rw [ho] at hown
  cases hown
  obtain ⟨inner, vs, u, hb, hj⟩ := (journey_pass pass s).call_of_mem hv
  obtain ⟨rfl, rfl, -⟩ := hb.of_gathered hg
  have hin := hj.inSlots hclear (fun _ hcalls => hcalls.inSlots hcall hscope ho) hresolving w hw
  rw [Option.eq_none_iff_forall_ne_some]
  intro q hq
  obtain ⟨scope', -, -, -, hcall', hscope', hname, -⟩ := of_gathered? hq
  obtain ⟨-, own', hown', hsame'⟩ := placed_visit pass hmem scope' hscope'
  have hscopes : scope' = scope := by
    rw [hname, ho] at hown'
    cases hown'
    rw [hsame', hname, ← hsame]
  rw [hscopes] at hscope'
  have hcalled := hin hscope'
  rw [hcall'] at hcalled
  exact hcalled

/-- What a call gathers is a record of the pass. -/
theorem sent_of_gathered (hv : v ∈ pass.visits s) (hg : pass.gathered? name v = some r) :
    r.plugin = "MtlMulti" ∧ r ∈ (pass.run.runOn s).2.sent := by
  have hpass := journey_pass pass s
  obtain ⟨inner, vs, u, hb, -⟩ := hpass.call_of_mem hv
  obtain ⟨-, -, hplugin, -, w, hw, hrun⟩ := hb.gathers hg
  have hlater := (hpass.precedes.2 v hv).2
  have hmem : r ∈ w.sent := hw.sent ▸ List.mem_concat_self
  rw [hrun] at hlater
  exact ⟨hplugin, hlater.sent.subset hmem⟩

/-- A call for the material of an object that gathers nothing writes none of its own. -/
theorem balances_of_not_gathered (hcall : v.call = .ownMaterial)
    (hnone : ∀ name, pass.gathered? name v = none) :
    pass.Balances (Survives (v.run pass).1) v.state ((v.calls pass).flatMap pass.ownRecords)
      (v.run pass).2 := by
  have hcombined : pass.combined? v = none := by
    unfold Pass.combined?
    cases v.state.scope with
    | none => rfl
    | some scope => exact hnone scope.name
  have hown : pass.ownRecords v = [] := by
    obtain ⟨call, depth, state⟩ := v
    obtain rfl : call = .ownMaterial := hcall
    rw [ownRecords_ownMaterial, hcombined]
    rfl
  have h := settles pass v
  rwa [hown, List.nil_append] at h

/-- **The materials of an object are gathered once if its slots do not ask for them.** The
calls of a pass that write a record for the materials of one object are nested: each later
one is made while the earlier compiles the slots. So there is one at most if no node behind
the ends of the slots' trees asks for the material of the object. Each of them writes one record
of its own, when its calls have returned, and keeps its name; a call for the material of an object
that gathers nothing, or fails, writes none of its own. -/
theorem gathered_once (pass : Pass) (s : PassState) (name : String) :
    let gathered := (pass.visits s).filterMap (pass.gathered? name)
    (∀ before v middle w after, pass.visits s = before ++ v :: (middle ++ w :: after) →
      (pass.gathered? name v).isSome → (pass.gathered? name w).isSome →
      ∃ rest, pass.slotsTrace v.depth (pass.nodeTrace v.depth) v.state = middle ++ w :: rest) ∧
    (∀ object, pass.scene.object? name = some object → pass.scene.SlotsClear object →
      gathered.length ≤ 1) ∧
    (∀ r ∈ gathered, r.plugin = "MtlMulti" ∧ r ∈ (pass.run.runOn s).2.sent) ∧
    ∀ v ∈ pass.visits s, v.call = .ownMaterial →
      (∀ r, pass.gathered? name v = some r →
        ∃ u w, pass.Balances True v.state ((v.calls pass).flatMap pass.ownRecords) u ∧
          u.Writes r w ∧ v.run pass =
            (.ok (some (.reference r.name)), w.synthesize (multiMaterialName name) r.name)) ∧
      ((∀ other, pass.gathered? other v = none) →
        pass.Balances (Survives (v.run pass).1) v.state
          ((v.calls pass).flatMap pass.ownRecords) (v.run pass).2) := by
  intro gathered
  refine ⟨fun _ _ _ _ _ => nested_of_gathered, fun object ho hclear => ?_, fun r hr => ?_,
    fun v hv hcall => ⟨fun r hr => ?_, balances_of_not_gathered hcall⟩⟩
  · rcases hlist : gathered with _ | ⟨r, _ | ⟨q, others⟩⟩
    · exact Nat.zero_le 1
    · exact Nat.le_refl 1
    · obtain ⟨before, v, behind, hvisits, -, hr, hbehind⟩ := List.filterMap_eq_cons_iff.mp hlist
      obtain ⟨middle, w, after, rfl, -, hq, -⟩ := List.filterMap_eq_cons_iff.mp hbehind
      have hv : v ∈ pass.visits s := by simp [hvisits]
      have hw : w ∈ pass.visits s := by simp [hvisits]
      obtain ⟨rest, hslots⟩ := nested_of_gathered hvisits
        (Option.isSome_iff_exists.mpr ⟨r, hr⟩) (Option.isSome_iff_exists.mpr ⟨q, hq⟩)
      have hnone := not_gathered_in_slots (w := w) hv hr ho hclear (by simp [hslots]) hw
      rw [hq] at hnone
      cases hnone
  · obtain ⟨v, hv, hg⟩ := List.mem_filterMap.mp hr
    exact sent_of_gathered hv hg
  · obtain ⟨inner, vs, u, hb, -⟩ := (journey_pass pass s).call_of_mem hv
    obtain ⟨-, -, -, hslots, w, hw, hrun⟩ := hb.gathers hr
    exact ⟨u, w, hslots, hw, hrun⟩

/-- An object with two materials that do not ask for its own has one record for them. -/
theorem gathered_once_cube :
    let pass := tonePass "Cube" "Ball"
    let gathered := (pass.visits {}).filterMap (pass.gathered? "Cube")
    let cube : SceneObject := { mesh := some "Cube", slots := [some "Red", some "Blue"] }
    pass.scene.SlotsClear cube ∧ gathered.length ≤ 1 ∧ gathered.map (·.name) = ["OBMACube"] := by
  intro pass gathered cube
  have hcube : pass.scene.object? "Cube" = some cube := by decide +kernel
  have hnodes : ∀ tree ∈ pass.scene.slotTrees cube, ∀ node ∈ tree.nodes.values,
      node.kind ≠ .objectMaterial := by decide +kernel
  have hclear := Scene.slotsClear_of_nodes hnodes
  obtain ⟨-, honce, -⟩ := gathered_once pass {} "Cube"
  exact ⟨hclear, honce cube hcube hclear, by decide +kernel⟩

/-- A tree that is an object's and a material's, and that uses the object's material behind
the end of either. -/
def glassTree : NodeTree :=
  .ofParts "Glass"
    [{ name := "Exit", kind := .objectOutput,
        inputs := [⟨"Object", .input, .plugin, none, none⟩] },
      { name := "Body", kind := .plugin .object "Node",
        inputs := [⟨"Material", .input, .material, some "material", none⟩] },
      { name := "Skin", kind := .objectMaterial },
      { name := "End", kind := .materialOutput false,
        inputs := [⟨"Material", .input, .material, none, none⟩] },
      { name := "Coat", kind := .plugin .material "MtlSingleBRDF",
        inputs := [⟨"Base", .input, .material, some "brdf", none⟩] }]
    [⟨⟨1⟩, ⟨"Body", "Out"⟩, ⟨"Exit", "Object"⟩⟩, ⟨⟨2⟩, ⟨"Skin", "Out"⟩, ⟨"Body", "Material"⟩⟩,
      ⟨⟨3⟩, ⟨"Coat", "Out"⟩, ⟨"End", "Material"⟩⟩, ⟨⟨4⟩, ⟨"Skin", "Out"⟩, ⟨"Coat", "Base"⟩⟩]

/-- An object with that tree, which is one of its two materials. -/
def vaseScene : Scene :=
  ((((({} : Scene).addTree glassTree).addTree (paintTree "Red" none)).addMaterial "Glass"
    ⟨some "Glass"⟩).addMaterial "Red" ⟨some "Red"⟩).addObject "Vase"
    { slots := [some "Glass", some "Red"], tree := some "Glass" }

/-- The pass over that scene. -/
def vasePass : Pass := ⟨⟨vaseScene, Catalog.builtin, {}⟩, { geometry := .external }, 1⟩

/-- Its materials are gathered twice, and both records are written. -/
theorem gathered_twice :
    vasePass.scene.Straight ∧
    ((vasePass.visits {}).filterMap (vasePass.gathered? "Vase")).map (·.name) =
      ["OBMAVase_1", "OBMAVase"] ∧
    ((vasePass.run.runOn {}).2.sent.filter (·.plugin = "MtlMulti")).map (·.name) =
      ["OBMAVase", "OBMAVase_1"] := by
  refine ⟨Scene.straight_of_direct (by decide), by decide +kernel, by decide +kernel⟩

end ShadeNet
