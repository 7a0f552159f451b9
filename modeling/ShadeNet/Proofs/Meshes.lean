/-
# Meshes that are handed out

With automatic meshes, the geometry of an object is the instance name of its mesh, and the
mesh is handed to the geometry exporter when that name is met for the first time. So under
each name exactly one mesh is handed out. Names of meshes that differ in a sign alone have
one instance name, though, and then the mesh that comes second is never handed out: its
objects have the geometry of the first.

Key definitions: `MeshRequest.OfScene`, `PassState.Handed`, `meshComparison`, `Pass.Shapes`,
`Scene.MeshAlone`.
Key theorems: `handed_run`, `mesh_handed_out_once`, `mesh_replaced`.
-/
import Mathlib.Data.List.Nodup
import ShadeNet.Proofs.PlainObject

namespace ShadeNet

open Compile

variable {pass : Pass} {s t u start : PassState} {v : Visit} {mesh token : String}
  {requests : List MeshRequest}

/-! ### Requests -/

/-- A mesh of an object of the scene, under the instance name of the mesh. -/
structure MeshRequest.OfScene (scene : Scene) (q : MeshRequest) : Prop where
  name : q.name = meshName q.mesh
  object : ∃ object, scene.object? q.object = some object ∧ object.mesh = some q.mesh

/-- What has been handed out since `start` are meshes of objects of the scene, no two under one
name, and the ledger has these names. The object in scope is one of the scene. -/
structure PassState.Handed (scene : Scene) (start s : PassState) : Prop where
  requests : ∃ requests, s.meshes = start.meshes ++ requests ∧
    s.ledger.meshes = requests.map (·.name) ∧ (requests.map (·.name)).Nodup ∧
    ∀ q ∈ requests, q.OfScene scene
  inScene : ∀ scope, s.scope = some scope →
    ∃ object, scene.object? scope.name = some object ∧ scope = object.scope scope.name

/-- No mesh is handed out in between, and the scope is the one before. -/
structure PassState.HandsNothing (s t : PassState) : Prop where
  meshes : t.meshes = s.meshes
  entered : t.ledger.meshes = s.ledger.meshes
  scope : t.scope = s.scope

theorem PassState.HandsNothing.refl (s : PassState) : s.HandsNothing s := ⟨rfl, rfl, rfl⟩

theorem PassState.HandsNothing.trans (h : s.HandsNothing t) (k : t.HandsNothing u) :
    s.HandsNothing u :=
  ⟨k.meshes.trans h.meshes, k.entered.trans h.entered, k.scope.trans h.scope⟩

theorem PassState.Handed.congr {scene : Scene} (h : start.Handed scene s)
    (ht : s.HandsNothing t) : start.Handed scene t where
  requests := by
    rw [ht.meshes, ht.entered]
    exact h.requests
  inScene := by
    rw [ht.scope]
    exact h.inScene

theorem PassState.Handed.enter {scene : Scene} {name : String} {object : SceneObject}
    (h : start.Handed scene s) (ho : scene.object? name = some object) :
    start.Handed scene (s.enter name object) where
  requests := h.requests
  inScene scope hscope := by
    cases hscope
    exact ⟨object, ho, rfl⟩

theorem PassState.Handed.rescope {scene : Scene} (h : start.Handed scene t)
    (hs : start.Handed scene s) (hmeshes : u.meshes = t.meshes)
    (hentered : u.ledger.meshes = t.ledger.meshes) (hscope : u.scope = s.scope) :
    start.Handed scene u where
  requests := by
    rw [hmeshes, hentered]
    exact h.requests
  inScene := by
    rw [hscope]
    exact hs.inScene

/-- A mesh whose name is new is handed out. -/
theorem PassState.Handed.handOut {scene : Scene} {scope : ObjectScope}
    (h : start.Handed scene s) (hscope : s.scope = some scope) (hmesh : scope.mesh = some mesh)
    (hnew : s.ledger.hasMesh (meshName mesh) = false) :
    start.Handed scene (s.handOut ⟨scope.name, mesh, meshName mesh⟩) where
  inScene := h.inScene
  requests := by
    obtain ⟨requests, hmeshes, hentered, hnodup, hscene⟩ := h.requests
    have hfresh : meshName mesh ∉ requests.map (·.name) := by
      rw [← hentered]
      simpa [Ledger.hasMesh] using hnew
    refine ⟨requests ++ [⟨scope.name, mesh, meshName mesh⟩], ?_, ?_, ?_, fun q hq => ?_⟩
    · rw [← List.append_assoc, ← hmeshes]
      rfl
    · show addMember s.ledger.meshes (meshName mesh) = _
      rw [hentered, addMember, if_neg hfresh, List.map_append]
      rfl
    · rw [List.map_append, List.nodup_append]
      refine ⟨hnodup, by simp, fun a ha b hb => ?_⟩
      rw [List.mem_singleton.mp hb]
      rintro rfl
      exact hfresh ha
    · rcases List.mem_append.mp hq with hq | hq
      · exact hscene q hq
      · rw [List.mem_singleton.mp hq]
        obtain ⟨object, ho, hown⟩ := h.inScene scope hscope
        refine ⟨rfl, object, ho, ?_⟩
        rw [hown] at hmesh
        exact hmesh

/-! ### Steps -/

section Steps

variable (pass)

theorem handsNothing_writeRecord (r : Record) (s : PassState) :
    s.HandsNothing ((pass.writeRecord r).runOn s).2 := by
  rcases writeRecord_cases pass r s with h | ⟨sink, -, h⟩ <;> rw [h] <;> exact ⟨rfl, rfl, rfl⟩

theorem handsNothing_emit (r : Record) (s : PassState) :
    s.HandsNothing ((pass.emit r).runOn s).2 :=
  emit_state (handsNothing_writeRecord pass r s) fun _ h => h.trans ⟨rfl, rfl, rfl⟩

theorem handsNothing_claimAndEmit (base : String) (reports : List LogLine)
    (record : String → Record) (s : PassState) :
    s.HandsNothing ((pass.claimAndEmit base reports record).runOn s).2 := by
  rw [claimAndEmit_runOn]
  have hclaim : s.HandsNothing (s.claim base reports) := ⟨rfl, rfl, rfl⟩
  exact hclaim.trans (handsNothing_emit pass _ _)

theorem handsNothing_writeDefaults (s : PassState) :
    s.HandsNothing (pass.writeDefaults.runOn s).2 :=
  rel_writeDefaults .refl (fun _ _ _ => .trans) (handsNothing_emit pass _)
    (handsNothing_emit pass _) s

theorem handed_writeGeometry (h : start.Handed pass.scene s) :
    start.Handed pass.scene (pass.writeGeometry.runOn s).2 := by
  refine writeGeometry_state h (h.congr ⟨rfl, rfl, rfl⟩) (fun _ => h.congr ⟨rfl, rfl, rfl⟩)
    fun scope mesh hscope hmesh hnew => (h.handOut hscope hmesh hnew).congr ?_
  exact rel_writeOut PassState.HandsNothing.refl (fun _ _ _ => .trans)
    (fun r _ => handsNothing_writeRecord pass r) (fun _ _ => ⟨rfl, rfl, rfl⟩) _

theorem scope_writeGeometry (s : PassState) : (pass.writeGeometry.runOn s).2.scope = s.scope :=
  (alike_writeGeometry pass s).scope

/-- What is handed out, as a comparison that the walk keeps. -/
def meshComparison (start : PassState) : Comparison pass where
  Rel s t := t.scope = s.scope ∧ (start.Handed pass.scene s → start.Handed pass.scene t)
  refl _ := ⟨rfl, id⟩
  trans h k := ⟨k.1.trans h.1, fun hs => k.2 (h.2 hs)⟩
  note _ := ⟨rfl, fun h => h.congr ⟨rfl, rfl, rfl⟩⟩
  emission {s base reports record} _ _ _ :=
    have h := handsNothing_claimAndEmit pass base reports record s
    ⟨h.scope, fun hs => hs.congr h⟩
  geometry s := ⟨scope_writeGeometry pass s, handed_writeGeometry pass⟩
  hide _ _ := ⟨rfl, fun h => h.congr ⟨rfl, rfl, rfl⟩⟩
  synthesize _ _ hr := ⟨hr.1, fun h => (hr.2 h).congr ⟨rfl, rfl, rfl⟩⟩
  finish _ _ hr := ⟨hr.1, fun h => (hr.2 (h.congr ⟨rfl, rfl, rfl⟩)).congr ⟨rfl, rfl, rfl⟩⟩
  abandon _ hr := ⟨hr.1, fun h => (hr.2 (h.congr ⟨rfl, rfl, rfl⟩)).congr ⟨rfl, rfl, rfl⟩⟩
  leave _ _ ho hr := ⟨rfl, fun h => (hr.2 (h.enter ho)).rescope h rfl rfl rfl⟩
  quit _ ho hr := ⟨rfl, fun h => (hr.2 (h.enter ho)).rescope h rfl rfl rfl⟩

end Steps

/-! ### Passes -/

variable (pass) in
/-- However a pass ends, the meshes that it has handed out are meshes of the scene, no two
under one name. -/
theorem handed_run (s : PassState) :
    s.Handed pass.scene (pass.run.runOn s).2 := by
  have hstart : s.Handed pass.scene (pass.headed s) :=
    ⟨⟨[], by simp [Pass.headed, PassState.note], rfl, List.nodup_nil, by simp⟩, nofun⟩
  have hrun : (meshComparison pass s).Rel (pass.headed s) (pass.run.runOn s).2 := by
    rw [Pass.run_runOn]
    refine pass.rel_afterHead ((meshComparison pass s).refl _) ?_
    refine rel_bind (meshComparison pass s).rel_trans (rel_bind (meshComparison pass s).rel_trans
      (rel_bind (meshComparison pass s).rel_trans ?_ fun _ t => ?_) fun _ t => ?_) fun _ t => ?_
    · have h := handsNothing_writeDefaults pass (pass.headed s)
      exact ⟨h.scope, fun hs => hs.congr h⟩
    · exact (meshComparison pass s).rel_writeOverride
        (fun _ _ => ⟨rfl, fun h => h.congr ⟨rfl, rfl, rfl⟩⟩) t
    · exact (meshComparison pass s).rel_items _ t
    · exact ⟨rfl, fun h => h.congr ⟨rfl, rfl, rfl⟩⟩
  exact hrun.2 hstart

/-- A visit gives the geometry of an object with the mesh: a node does, for the object in scope,
or the object has no tree and its record is written with it. -/
inductive Pass.Shapes (pass : Pass) (v : Visit) (mesh token : String) : Prop
  | node {tree node useLiterals scope} : v.call = .node tree node useLiterals →
    node.kind = .objectGeometry → v.state.scope = some scope → scope.mesh = some mesh →
    (v.run pass).1 = .ok (some (.reference token)) → Shapes pass v mesh token
  | object {name object r} : pass.scene.Plain name object mesh →
    pass.plainRecord? name v = some r → r.attr? "geometry" = some token →
    Shapes pass v mesh token

/-- No other mesh of an object of the scene has the instance name of this one. -/
def Scene.MeshAlone (scene : Scene) (mesh : String) : Prop :=
  ∀ name object other, scene.object? name = some object → object.mesh = some other →
    meshName other = meshName mesh → other = mesh

theorem Pass.Shapes.ofScene (h : pass.Shapes v mesh token) (hv : v.state.Placed pass.scene) :
    ∃ name object, pass.scene.object? name = some object ∧ object.mesh = some mesh := by
  cases h with
  | node _ _ hscope hmesh =>
    obtain ⟨-, object, ho, hown⟩ := hv _ hscope
    rw [hown] at hmesh
    exact ⟨_, object, ho, hmesh⟩
  | object hplain => exact ⟨_, _, hplain.found, hplain.mesh⟩

/-- The geometry of a record of an object without a tree is the one it was supplied with. -/
theorem geometry_of_objectSupply {desc : PluginDesc} {name material : String}
    {object : SceneObject} (h : (pass.pluginRecord desc name ∅
      (Pass.objectSupply (.reference (meshName mesh)) material object)).attr? "geometry" =
        some token) : token = meshName mesh := by
  unfold Record.attr? at h
  obtain ⟨e, hfind, rfl⟩ := Option.map_eq_some_iff.mp h
  obtain ⟨param, -, hvalue⟩ := List.mem_filterMap.mp (List.mem_of_find?_eq_some hfind)
  obtain ⟨value, hspell, rfl⟩ := Option.map_eq_some_iff.mp hvalue
  have hattr : param.attr = "geometry" := by simpa using List.find?_some hfind
  have hsupplied : (Pass.objectSupply (.reference (meshName mesh)) material object).get?
      param.attr = some (.reference (meshName mesh)) := by
    rw [hattr]
    rfl
  unfold Pass.spellParam at hspell
  rw [hsupplied] at hspell
  split at hspell
  · cases hspell
  · rw [spellResolved_reference (ne_empty_of_isInstanceName (meshName_fit mesh).1)] at hspell
    exact (Option.some.inj hspell).symm

/-- What a visit gives as the geometry of an object is the instance name of the mesh, and with
automatic meshes this mesh, or one with this name, has been handed out by then. -/
theorem Pass.Shapes.handed (h : pass.Shapes v mesh token)
    (hauto : pass.settings.autoMeshes = true) :
    token = meshName mesh ∧ meshName mesh ∈ (v.run pass).2.ledger.meshes := by
  cases h with
  | @node tree node useLiterals scope hcall hkind hscope hmesh hrun =>
    obtain ⟨call, depth, state⟩ := v
    obtain rfl : call = _ := hcall
    cases depth with
    | zero => cases hrun
    | succ depth =>
      have hgeometry : Visit.run pass ⟨.node tree node useLiterals, depth + 1, state⟩ =
          pass.writeGeometry.runOn state := by
        rw [Visit.run_node, Pass.walk, Pass.compileNode]
        simp only [hkind]
      rw [hgeometry] at hrun ⊢
      obtain ⟨htoken, hmem⟩ := writeGeometry_meshed hscope hmesh (Prod.ext hrun rfl)
      cases htoken
      exact ⟨rfl, hmem hauto⟩
  | @object name object r hplain hrecord hattr =>
    obtain ⟨desc, u, material, w, x, -, hgeometry, hmaterial, hr, hwrites, hrun⟩ :=
      built_of_plainRecord? hplain hrecord
    have hmem := (writeGeometry_meshed (rfl : (v.state.enter name object).scope =
      some (object.scope name)) hplain.mesh hgeometry).2 hauto
    have hframe := frame_of_keeps (Contract.keeps_writeObjectMaterial
      ((frameComparison pass).compiles_walk v.depth)) u
    rw [hmaterial] at hframe
    rw [hr] at hattr
    refine ⟨geometry_of_objectSupply hattr, ?_⟩
    rw [hrun]
    exact hwrites.alike.meshes (hframe.ledger.meshes hmem)

/-- Of what has one key each, exactly one has a key that occurs. -/
theorem length_filter_of_nodup {α β : Type} [DecidableEq β] {f : α → β} {l : List α} {b : β}
    (hl : (l.map f).Nodup) (hb : b ∈ l.map f) : (l.filter (f · = b)).length = 1 := by
  have hcount := List.count_eq_one_of_mem hl hb
  rw [List.count, List.countP_map, List.countP_eq_length_filter] at hcount
  simpa only [Function.comp_def, beq_eq_decide] using hcount

/-- **Under each name one mesh is handed out.** However a pass with automatic meshes ends, it
has handed out meshes of objects of the scene. Whatever visit gives the geometry of an object
gives the instance name of its mesh, and under this name exactly one mesh was handed out. If
no other mesh of the scene has that name, it is this mesh, and no visit gives the name for
another one. -/
theorem mesh_handed_out_once (pass : Pass) (hauto : pass.settings.autoMeshes = true)
    (s : PassState) :
    ∃ requests, (pass.run.runOn s).2.meshes = s.meshes ++ requests ∧
      (∀ q ∈ requests, q.OfScene pass.scene) ∧
      ∀ v ∈ pass.visits s, ∀ mesh token, pass.Shapes v mesh token →
        token = meshName mesh ∧ (requests.filter (·.name = token)).length = 1 ∧
        (pass.scene.MeshAlone mesh → (requests.filter (·.mesh = mesh)).length = 1 ∧
          ∀ w ∈ pass.visits s, ∀ other token', pass.Shapes w other token' →
            (token' = token ↔ other = mesh)) := by
  obtain ⟨requests, hmeshes, hentered, hnodup, hscene⟩ := (handed_run pass s).requests
  have hj := journey_pass pass s
  refine ⟨requests, hmeshes, hscene, fun v hv mesh token hshapes => ?_⟩
  obtain ⟨rfl, hmem⟩ := hshapes.handed hauto
  have hname : meshName mesh ∈ requests.map (·.name) := by
    rw [← hentered]
    exact (hj.meshes.2 v hv).2 hmem
  have hone := length_filter_of_nodup hnodup hname
  refine ⟨rfl, hone, fun halone => ⟨?_, fun w hw other token' hshapes' => ?_⟩⟩
  · -- a request for the name is one for the mesh
    have hsame : requests.filter (·.mesh = mesh) = requests.filter (·.name = meshName mesh) := by
      refine List.filter_congr fun q hq => ?_
      obtain ⟨hown, object, ho, hmesh⟩ := hscene q hq
      rw [decide_eq_decide, hown]
      exact ⟨fun h => by rw [h], fun h => halone _ _ _ ho hmesh h⟩
    rw [hsame]
    exact hone
  · obtain ⟨rfl, -⟩ := hshapes'.handed hauto
    obtain ⟨name, object, ho, hmesh⟩ := hshapes'.ofScene (placed_visit pass hw)
    exact ⟨fun heq => halone name object other ho hmesh heq, fun heq => by rw [heq]⟩

/-- An object with the given mesh and nothing else. -/
def meshObject (mesh : String) : SceneObject := { mesh := some mesh }

/-- The pass over two such objects. -/
def pairPass (first second : String) : Pass :=
  ⟨⟨(({} : Scene).addObject "Left" (meshObject first)).addObject "Right" (meshObject second),
    Catalog.builtin, {}⟩, { geometry := .external }, 1⟩

/-- A visit that writes the record of such an object gives its geometry. -/
theorem shapes_meshObject {name : String}
    (hfound : pass.scene.object? name = some (meshObject mesh))
    (h : (pass.plainRecord? name v).map (·.attr? "geometry") = some (some token)) :
    pass.Shapes v mesh token := by
  obtain ⟨r, hrecord, hattr⟩ := Option.map_eq_some_iff.mp h
  exact .object ⟨hfound, rfl, rfl, rfl⟩ hrecord hattr

/-- A cube and a ball have a geometry each, and both meshes are handed out. -/
theorem mesh_handed_out_once_pair :
    let pass := pairPass "Cube" "Ball"
    pass.settings.autoMeshes = true ∧ ∀ part ∈ [("Left", "Cube"), ("Right", "Ball")],
      pass.scene.MeshAlone part.2 ∧ ∃ v ∈ pass.visits {}, pass.Shapes v part.2 (meshName part.2) ∧
        ((pass.run.runOn {}).2.meshes.filter (·.name = meshName part.2)).length = 1 ∧
        ((pass.run.runOn {}).2.meshes.filter (·.mesh = part.2)).length = 1 := by
  intro pass
  refine ⟨rfl, fun part hpart => ?_⟩
  have hfound : ∀ part ∈ [("Left", "Cube"), ("Right", "Ball")],
      pass.scene.object? part.1 = some (meshObject part.2) := by decide +kernel
  have hrecords : ∀ part ∈ [("Left", "Cube"), ("Right", "Ball")], ∃ v ∈ pass.visits {},
      (pass.plainRecord? part.1 v).map (·.attr? "geometry") =
        some (some (meshName part.2)) := by decide +kernel
  have hnames : ∀ part ∈ [("Left", "Cube"), ("Right", "Ball")],
      ∀ other ∈ pass.scene.objects.values.filterMap (·.mesh),
        meshName other = meshName part.2 → other = part.2 := by decide +kernel
  have halone : pass.scene.MeshAlone part.2 := fun _ object other ho hother heq =>
    hnames part hpart other
      (List.mem_filterMap.mpr ⟨object, OrderedMap.mem_values_of_get? ho, hother⟩) heq
  obtain ⟨v, hv, hrecord⟩ := hrecords part hpart
  have hshapes := shapes_meshObject (hfound part hpart) hrecord
  obtain ⟨requests, hmeshes, -, hvisits⟩ := mesh_handed_out_once pass rfl {}
  obtain ⟨-, hname, hmesh⟩ := hvisits v hv _ _ hshapes
  have hmeshes : (pass.run.runOn {}).2.meshes = requests := hmeshes
  rw [hmeshes]
  exact ⟨halone, v, hv, hshapes, hname, (hmesh halone).1⟩

/-- The pass over two meshes whose names differ in a sign. -/
def signPass : Pass := pairPass "A." "A_"

theorem ends_signPass : ∃ summary, (signPass.run.runOn {}).1 = .ok summary := by
  have hcalm : signPass.Calm := ⟨fun _ => rfl, fun _ _ => rfl⟩
  have hring : signPass.scene.RingFree := fun _ _ hx => absurd hx List.not_mem_nil
  exact (calm_run hcalm rfl).resolve_right fun h => h.2 hring

theorem geometry_signPass : ∀ name ∈ ["Left", "Right"], ∃ v ∈ signPass.visits {},
    (signPass.plainRecord? name v).map (·.attr? "geometry") = some (some "MEA_") := by
  decide +kernel

/-- Of two meshes whose names differ in a sign, the second is not handed out, and its object has
the geometry of the first. -/
theorem mesh_replaced :
    (∃ summary, (signPass.run.runOn {}).1 = .ok summary) ∧
    (∃ v ∈ signPass.visits {}, ∃ w ∈ signPass.visits {}, signPass.Shapes v "A." "MEA_" ∧
      signPass.Shapes w "A_" "MEA_") ∧
    (signPass.run.runOn {}).2.meshes = [⟨"Left", "A.", "MEA_"⟩] := by
  have hfound : ∀ part ∈ [("Left", "A."), ("Right", "A_")],
      signPass.scene.object? part.1 = some (meshObject part.2) := by decide +kernel
  obtain ⟨v, hv, hfirst⟩ := geometry_signPass "Left" (by simp)
  obtain ⟨w, hw, hsecond⟩ := geometry_signPass "Right" (by simp)
  exact ⟨ends_signPass, ⟨v, hv, w, hw, shapes_meshObject (hfound ("Left", _) (by simp)) hfirst,
    shapes_meshObject (hfound ("Right", _) (by simp)) hsecond⟩, by decide +kernel⟩

end ShadeNet
