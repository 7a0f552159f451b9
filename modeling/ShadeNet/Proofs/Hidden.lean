/-
# Hidden objects are not seen

A hidden object has no record. Selectors and groups may name it, and the pass comes to it in its
turn; all that happens then is that the ledger enters it as compiled without a record. If the
entries about hidden objects are forgotten, the states of a pass become, step by step, those of
the pass over the scene without its hidden objects. So scenes that differ in hidden objects alone,
in what these are or in whether they are there, are exported alike.

Key definitions: `OrderedMap.filter`, `Scene.shown`, `PassState.veil`, `PassState.Discreet`,
`Veiled`, `EndsAlike`.
Key theorems: `veiled_writeObject`, `veiled_compileNode`, `veiled_runWith`,
`hidden_objects_unseen`.
-/
import ShadeNet.Proofs.Unreached

namespace ShadeNet

open Compile

variable {α β κ : Type}

/-! ### Maps without some of their entries -/

namespace OrderedMap

/-- The entries that pass a test, in their order. -/
def filter (m : OrderedMap κ α) (keep : κ → α → Bool) : OrderedMap κ α :=
  ⟨m.entries.filter fun e => keep e.1 e.2,
    m.keys_nodup.sublist (List.filter_sublist.map Prod.fst)⟩

theorem keys_filterMap_sublist (f : κ → α → Option α) : ∀ es : List (κ × α),
    ((es.filterMap fun e => (f e.1 e.2).map fun value => (e.1, value)).map Prod.fst).Sublist
      (es.map Prod.fst)
  | [] => .slnil
  | (k, a) :: rest => by
    have ih := keys_filterMap_sublist f rest
    cases h : f k a with
    | none => simpa [h] using ih.cons k
    | some value => simpa [h] using ih.cons_cons k

/-- The values with something done to each, some of them taken away with their keys. -/
def filterMap (m : OrderedMap κ α) (f : κ → α → Option α) : OrderedMap κ α :=
  ⟨m.entries.filterMap fun e => (f e.1 e.2).map fun value => (e.1, value),
    m.keys_nodup.sublist (keys_filterMap_sublist f m.entries)⟩

variable [DecidableEq κ]

/-- Look-up finds what it found before if that passes the test. -/
theorem get?_filter (m : OrderedMap κ α) (keep : κ → α → Bool) (key : κ) :
    (m.filter keep).get? key = (m.get? key).filter (keep key) := by
  have hsome : ∀ value, (m.filter keep).get? key = some value ↔
      m.get? key = some value ∧ keep key value = true := by
    intro value
    constructor
    · intro h
      obtain ⟨hmem, hkeep⟩ := List.mem_filter.mp (mem_of_lookupEntry h)
      exact ⟨get?_of_mem_entries hmem, hkeep⟩
    · rintro ⟨h, hkeep⟩
      exact get?_of_mem_entries (m := m.filter keep)
        (List.mem_filter.mpr ⟨mem_of_lookupEntry h, hkeep⟩)
  ext value
  rw [hsome, Option.filter_eq_some_iff]

theorem filter_setEntry_key (keep : κ → Bool) (key : κ) (value : α) : ∀ es : List (κ × α),
    (setEntry key value es).filter (fun e => keep e.1) =
      if keep key then setEntry key value (es.filter fun e => keep e.1)
      else es.filter fun e => keep e.1
  | [] => by cases h : keep key <;> simp [setEntry, h]
  | (k, a) :: rest => by
    have ih := filter_setEntry_key keep key value rest
    by_cases hk : k = key
    · subst hk
      cases h : keep k <;> simp [setEntry, h]
    · rw [setEntry, if_neg hk]
      cases h : keep k <;> cases h' : keep key <;> simp [h, h', ih, setEntry, hk]

/-- A key that passes is set among those that do. -/
theorem filter_insert (m : OrderedMap κ α) (keep : κ → Bool) {key : κ} (value : α)
    (h : keep key = true) : (m.insert key value).filter (fun k _ => keep k) =
      (m.filter fun k _ => keep k).insert key value :=
  ext ((filter_setEntry_key keep key value m.entries).trans (if_pos h))

/-- A key that does not pass is not seen to be set. -/
theorem filter_insert_of_not (m : OrderedMap κ α) (keep : κ → Bool) {key : κ} (value : α)
    (h : keep key = false) : (m.insert key value).filter (fun k _ => keep k) =
      m.filter fun k _ => keep k :=
  ext ((filter_setEntry_key keep key value m.entries).trans (if_neg (by simp [h])))

theorem filter_erase (m : OrderedMap κ α) (keep : κ → Bool) (key : κ) :
    (m.erase key).filter (fun k _ => keep k) = (m.filter fun k _ => keep k).erase key := by
  refine ext ?_
  simp only [filter, erase, List.filter_filter, Bool.and_comm]

end OrderedMap

/-! ### The scene that is shown -/

namespace Scene

/-- Whether the scene has an object of this name that is hidden. -/
def hides (scene : Scene) (name : String) : Bool :=
  (scene.object? name).any fun object => !object.visible

/-- The scene without its hidden objects. -/
def shown (scene : Scene) : Scene :=
  { scene with objects := scene.objects.filter fun _ object => object.visible }

variable {scene : Scene} {name : String}

theorem object?_shown (scene : Scene) (name : String) :
    scene.shown.object? name = (scene.object? name).filter (·.visible) :=
  OrderedMap.get?_filter _ _ _

theorem object?_shown_of_hides (h : scene.hides name = true) :
    scene.shown.object? name = none := by
  unfold hides at h
  rw [object?_shown]
  cases ho : scene.object? name with
  | none => rfl
  | some object => simpa [ho] using h

theorem object?_shown_of_not_hides (h : scene.hides name = false) :
    scene.shown.object? name = scene.object? name := by
  unfold hides at h
  rw [object?_shown]
  cases ho : scene.object? name with
  | none => rfl
  | some object => simpa [ho] using h

theorem visible_of_not_hides {object : SceneObject} (h : scene.hides name = false)
    (ho : scene.object? name = some object) : object.visible = true := by
  simpa [hides, ho] using h

/-- The objects that are shown are those that are not hidden, in their order. -/
theorem keys_shown (scene : Scene) :
    scene.shown.objects.keys = scene.objects.keys.filter fun name => !scene.hides name := by
  unfold OrderedMap.keys
  rw [List.filter_map]
  refine congrArg _ (List.filter_congr fun e he => ?_)
  have ho : scene.object? e.1 = some e.2 := OrderedMap.get?_of_mem_entries he
  simp [hides, ho]

/-- The scene with its hidden objects changed or taken away, each in its own manner. -/
def editHidden (scene : Scene) (edit : String → SceneObject → Option SceneObject) : Scene :=
  { scene with
    objects := scene.objects.filterMap fun name object =>
      if object.visible then some object
      else (edit name object).map fun edited => { edited with visible := false } }

/-- Whatever becomes of hidden objects, what is shown is what was shown. -/
theorem shown_editHidden (scene : Scene) (edit : String → SceneObject → Option SceneObject) :
    (scene.editHidden edit).shown = scene.shown := by
  have hobjects : ((scene.editHidden edit).objects.filter fun _ object => object.visible) =
      scene.objects.filter fun _ object => object.visible := by
    refine OrderedMap.ext ?_
    unfold editHidden OrderedMap.filter OrderedMap.filterMap
    simp only
    induction scene.objects.entries with
    | nil => rfl
    | cons e rest ih =>
      cases hv : e.2.visible with
      | true => simp [hv, ih]
      | false => cases he : edit e.1 e.2 <;> simp [hv, he, ih]
  exact congrArg (fun objects => { scene with objects := objects }) hobjects

end Scene

/-! ### States without hidden objects -/

namespace Ledger

variable {l : Ledger} {scene : Scene} {name : String}

/-- The ledger without what is entered about hidden objects. -/
def veil (l : Ledger) (scene : Scene) : Ledger :=
  { l with objects := l.objects.filter fun name _ => !scene.hides name }

/-- A hidden object is entered without a record if it is entered at all. -/
def Discreet (l : Ledger) (scene : Scene) : Prop :=
  ∀ name progress, scene.hides name = true → l.object? name = some progress →
    progress = .done none

theorem object?_veil_of_hides (l : Ledger) (h : scene.hides name = true) :
    (l.veil scene).object? name = none := by
  refine (OrderedMap.get?_filter _ _ _).trans ?_
  simp [h]

theorem object?_veil_of_not_hides (l : Ledger) (h : scene.hides name = false) :
    (l.veil scene).object? name = l.object? name := by
  refine (OrderedMap.get?_filter _ _ _).trans ?_
  rw [h]
  unfold object?
  cases l.objects.get? name <;> rfl

/-- What is entered about a hidden object is forgotten. -/
theorem veil_setObject_of_hides (l : Ledger) (progress : Progress (Option String))
    (h : scene.hides name = true) : (l.setObject name progress).veil scene = l.veil scene := by
  unfold veil setObject
  rw [OrderedMap.filter_insert_of_not _ (fun name => !scene.hides name) _ (by simp [h])]

theorem veil_setObject (l : Ledger) (progress : Progress (Option String))
    (h : scene.hides name = false) :
    (l.setObject name progress).veil scene = (l.veil scene).setObject name progress := by
  unfold veil setObject
  rw [OrderedMap.filter_insert _ (fun name => !scene.hides name) _ (by simp [h])]

theorem veil_abandonObject (l : Ledger) (scene : Scene) (name : String) :
    (l.abandonObject name).veil scene = (l.veil scene).abandonObject name := by
  unfold veil abandonObject
  rw [OrderedMap.filter_erase _ fun name => !scene.hides name]

theorem Discreet.setObject (h : l.Discreet scene) {progress : Progress (Option String)}
    (hp : scene.hides name = true → progress = .done none) :
    (l.setObject name progress).Discreet scene := by
  intro other progress' ho h'
  rw [object?_setObject] at h'
  split at h'
  · rename_i heq
    cases h'
    exact hp (heq ▸ ho)
  · exact h other progress' ho h'

theorem Discreet.abandonObject (h : l.Discreet scene) (name : String) :
    (l.abandonObject name).Discreet scene := by
  intro other progress ho h'
  rw [object?_abandonObject] at h'
  split at h'
  · cases h'
  · exact h other progress ho h'

end Ledger

namespace PassState

/-- The state without what is entered about hidden objects. -/
def veil (s : PassState) (scene : Scene) : PassState := { s with ledger := s.ledger.veil scene }

/-- Hidden objects have no records, and none of them is in scope. -/
structure Discreet (s : PassState) (scene : Scene) : Prop where
  ledger : s.ledger.Discreet scene
  scope : ∀ scope, s.scope = some scope → scene.hides scope.name = false

/-- Only what is entered about objects and the scope matter. -/
theorem Discreet.of_eq {s t : PassState} {scene : Scene} (h : s.Discreet scene)
    (ho : t.ledger.objects = s.ledger.objects) (hs : t.scope = s.scope) : t.Discreet scene where
  ledger name progress hn hp := by
    unfold Ledger.object? at hp
    rw [ho] at hp
    exact h.ledger name progress hn hp
  scope scope hscope := h.scope scope (hs ▸ hscope)

end PassState

/-! ### Steps -/

/-- From a state in which hidden objects have no records, the second step does without the entries
about them what the first one does with them. -/
def Veiled (scene : Scene) (c d : Compile α) : Prop :=
  ∀ s, s.Discreet scene →
    d.runOn (s.veil scene) = ((c.runOn s).1, (c.runOn s).2.veil scene) ∧
      (c.runOn s).2.Discreet scene

variable {scene : Scene} {c d : Compile α}

theorem veiled_pure (a : α) : Veiled scene (pure a) (pure a) := fun _ hs => ⟨rfl, hs⟩

theorem veiled_throw (failure : Failure) :
    Veiled scene (throw failure : Compile α) (throw failure) := fun _ hs => ⟨rfl, hs⟩

theorem veiled_report (line : LogLine) : Veiled scene (report line) (report line) :=
  fun _ hs => ⟨rfl, hs.of_eq rfl rfl⟩

theorem veiled_claimName (base : String) : Veiled scene (claimName base) (claimName base) :=
  fun _ hs => ⟨rfl, hs.of_eq rfl rfl⟩

theorem Veiled.bind {f g : α → Compile β} (hc : Veiled scene c d)
    (hf : ∀ a, Veiled scene (f a) (g a)) : Veiled scene (c >>= f) (d >>= g) := by
  intro s hs
  obtain ⟨hrun, hdiscreet⟩ := hc s hs
  rw [runOn_bind, runOn_bind, hrun]
  generalize c.runOn s = o at hdiscreet ⊢
  rcases o with ⟨failure | a, t⟩
  · exact ⟨rfl, hdiscreet⟩
  · exact hf a t hdiscreet

theorem Veiled.attempt (hc : Veiled scene c d) : Veiled scene (attempt c) (attempt d) := by
  intro s hs
  obtain ⟨hrun, hdiscreet⟩ := hc s hs
  rw [runOn_attempt, runOn_attempt, hrun]
  exact ⟨rfl, hdiscreet⟩

/-- A step that reads the state goes on alike with what it has read. -/
theorem veiled_get {f g : PassState → Compile α}
    (h : ∀ s, s.Discreet scene → Veiled scene (f s) (g (s.veil scene))) :
    Veiled scene (get >>= f) (get >>= g) := by
  intro s hs
  rw [runOn_bind_ok (runOn_get _), runOn_bind_ok (runOn_get _)]
  exact h s hs s hs

theorem veiled_report_pure (line : LogLine) (a : α) :
    Veiled scene (report line >>= fun _ => pure a) (report line >>= fun _ => pure a) :=
  (veiled_report line).bind fun _ => veiled_pure a

/-- Members that give nothing on the one side may be left out on the other. -/
theorem veiled_collect_filter {f g : α → Compile (Option β)} (keep : α → Bool) {l : List α}
    (h : ∀ a ∈ l, keep a = true → Veiled scene (f a) (g a))
    (hnone : ∀ a ∈ l, keep a = false → Veiled scene (f a) (pure none)) :
    Veiled scene (collect f l) (collect g (l.filter keep)) := by
  induction l with
  | nil => exact veiled_pure _
  | cons a rest ih =>
    have hrest := ih (fun b hb => h b (List.mem_cons_of_mem a hb))
      fun b hb => hnone b (List.mem_cons_of_mem a hb)
    cases hk : keep a with
    | true =>
      rw [List.filter_cons_of_pos hk]
      exact (h a List.mem_cons_self hk).bind fun _ => hrest.bind fun _ => veiled_pure _
    | false =>
      rw [List.filter_cons_of_neg (by simp [hk])]
      have hboth := (hnone a List.mem_cons_self hk).bind fun first =>
        hrest.bind fun others => veiled_pure (first.toList ++ others)
      simp only [pure_bind, Option.toList_none, List.nil_append, bind_pure] at hboth
      exact hboth

theorem veiled_collect {f g : α → Compile (Option β)} {l : List α}
    (h : ∀ a ∈ l, Veiled scene (f a) (g a)) : Veiled scene (collect f l) (collect g l) := by
  have hall := veiled_collect_filter (fun _ => true) (fun a ha _ => h a ha)
    (fun _ _ hk => nomatch hk)
  rwa [List.filter_true] at hall

/-- Members that do nothing on the one side may be left out on the other. -/
theorem veiled_forM_filter {f g : α → Compile Unit} (keep : α → Bool) {l : List α}
    (h : ∀ a ∈ l, keep a = true → Veiled scene (f a) (g a))
    (hnone : ∀ a ∈ l, keep a = false → Veiled scene (f a) (pure ())) :
    Veiled scene (l.forM f) ((l.filter keep).forM g) := by
  induction l with
  | nil => exact veiled_pure _
  | cons a rest ih =>
    have hrest := ih (fun b hb => h b (List.mem_cons_of_mem a hb))
      fun b hb => hnone b (List.mem_cons_of_mem a hb)
    cases hk : keep a with
    | true =>
      rw [List.filter_cons_of_pos hk]
      exact (h a List.mem_cons_self hk).bind fun _ => hrest
    | false =>
      rw [List.filter_cons_of_neg (by simp [hk])]
      exact (hnone a List.mem_cons_self hk).bind fun _ => hrest

theorem veiled_forM {f g : α → Compile Unit} {l : List α}
    (h : ∀ a ∈ l, Veiled scene (f a) (g a)) : Veiled scene (l.forM f) (l.forM g) := by
  have hall := veiled_forM_filter (fun _ => true) (fun a ha _ => h a ha)
    (fun _ _ hk => nomatch hk)
  rwa [List.filter_true] at hall

/-! ### Records -/

variable {pass : Pass}

theorem veiled_writeRecord (pass : Pass) (r : Record) :
    Veiled scene (pass.writeRecord r) (pass.writeRecord r) := by
  intro s hs
  rw [writeRecord_runOn, writeRecord_runOn]
  unfold PassState.receive PassState.veil
  split
  · exact ⟨rfl, hs.of_eq rfl rfl⟩
  · split <;> exact ⟨rfl, hs.of_eq rfl rfl⟩

theorem veiled_writeEntry (e : Entry) : Veiled scene (writeEntry e) (writeEntry e) := by
  intro s hs
  rw [writeEntry_runOn, writeEntry_runOn]
  exact ⟨rfl, hs.of_eq rfl rfl⟩

theorem veiled_writeOut (pass : Pass) (e : Entry) :
    Veiled scene (pass.writeOut e) (pass.writeOut e) := by
  cases e with
  | record r => exact veiled_writeRecord pass r
  | remark text => exact veiled_writeEntry (.remark text)

theorem veiled_emit (r : Record) : Veiled scene (pass.emit r) (pass.emit r) := by
  intro s hs
  obtain ⟨hrun, hdiscreet⟩ := veiled_writeRecord pass r s hs
  rw [emit_runOn, emit_runOn, hrun]
  generalize (pass.writeRecord r).runOn s = o at hdiscreet ⊢
  rcases o with ⟨failure | _, t⟩
  · exact ⟨rfl, hdiscreet⟩
  · exact ⟨rfl, hdiscreet.of_eq rfl rfl⟩

theorem veiled_claimAndEmit (base : String) (record : String → Record) :
    Veiled scene (claimName base >>= fun name => pass.emit (record name))
      (claimName base >>= fun name => pass.emit (record name)) :=
  (veiled_claimName base).bind fun _ => veiled_emit _

theorem veiled_writePlugin (desc : PluginDesc) (name : String) (params : OrderedMap String Value)
    (supplied : OrderedMap String Resolved) :
    Veiled scene (pass.writePlugin desc name params supplied)
      (pass.writePlugin desc name params supplied) :=
  (veiled_forM fun line _ => veiled_report line).bind fun _ => veiled_emit _

/-- The object in scope is not hidden, so its mesh is handed out for both. -/
theorem veiled_writeGeometry : Veiled scene pass.writeGeometry pass.writeGeometry := by
  intro s hs
  rw [writeGeometry_runOn, writeGeometry_runOn]
  have hscope : (s.veil scene).scope = s.scope := rfl
  rw [hscope]
  rcases s.scope with _ | scope
  · exact ⟨rfl, hs.of_eq rfl rfl⟩
  simp only
  rcases scope.mesh with _ | mesh
  · exact ⟨rfl, hs.of_eq rfl rfl⟩
  simp only
  have hmesh : (s.veil scene).ledger.hasMesh (meshName mesh) =
    s.ledger.hasMesh (meshName mesh) := rfl
  rw [hmesh]
  split
  · obtain ⟨hrun, hdiscreet⟩ := veiled_forM (fun e _ => veiled_writeOut pass e)
      (l := (pass.geometry.answer s.meshes ⟨scope.name, mesh, meshName mesh⟩).entries)
      (s.handOut ⟨scope.name, mesh, meshName mesh⟩) (hs.of_eq rfl rfl)
    have hhandOut : (s.veil scene).handOut ⟨scope.name, mesh, meshName mesh⟩ =
        (s.handOut ⟨scope.name, mesh, meshName mesh⟩).veil scene := rfl
    have hmeshes : (s.veil scene).meshes = s.meshes := rfl
    rw [hhandOut, hmeshes, hrun]
    generalize Compile.runOn _ _ = o at hdiscreet ⊢
    rcases o with ⟨failure | _, t⟩
    · exact ⟨rfl, hdiscreet⟩
    · unfold geometryEnd
      cases (pass.geometry.answer s.meshes ⟨scope.name, mesh, meshName mesh⟩).failure <;>
        exact ⟨rfl, hdiscreet⟩
  · exact ⟨rfl, hs⟩

/-- A node is marked while it is built, which says nothing about objects. -/
theorem veiled_once (tree : NodeTree) (node : Node) {build build' : Compile (Option Resolved)}
    (hb : Veiled scene build build') :
    Veiled scene (once tree node build) (once tree node build') := by
  intro s hs
  rw [once_runOn, once_runOn]
  have hkey : (s.veil scene).treeKey tree.name = s.treeKey tree.name := rfl
  have hnode : (s.veil scene).ledger.node? (s.treeKey tree.name) node.name =
      s.ledger.node? (s.treeKey tree.name) node.name := rfl
  rw [hkey, hnode]
  rcases s.ledger.node? (s.treeKey tree.name) node.name with _ | _ | value
  · obtain ⟨hrun, hdiscreet⟩ := hb (s.mark (s.treeKey tree.name) node.name) (hs.of_eq rfl rfl)
    have hmark : (s.veil scene).mark (s.treeKey tree.name) node.name =
        (s.mark (s.treeKey tree.name) node.name).veil scene := rfl
    simp only
    rw [hmark, hrun]
    generalize build.runOn _ = o at hdiscreet ⊢
    rcases o with ⟨failure | _ | value, t⟩ <;> exact ⟨rfl, hdiscreet.of_eq rfl rfl⟩
  · exact ⟨rfl, hs⟩
  · exact ⟨rfl, hs⟩

/-! ### Nodes -/

/-- Two compilers of nodes, of which the second one does without hidden objects what the first
one does with them. -/
def VeiledAll (scene : Scene) (compile further : NodeCompiler) : Prop :=
  ∀ tree node useLiterals,
    Veiled scene (compile tree node useLiterals) (further tree node useLiterals)

variable {compile further : NodeCompiler}

section Nodes

variable (hc : VeiledAll scene compile further) (tree : NodeTree) (node : Node)

include hc

theorem veiled_resolveSocket (socket : Socket) (useLiterals : Bool) :
    Veiled scene (resolveSocket compile tree node socket useLiterals)
      (resolveSocket further tree node socket useLiterals) := by
  unfold resolveSocket
  split
  · exact veiled_pure _
  · split
    · exact veiled_report_pure _ _
    · exact (hc _ _ _).bind fun _ => veiled_pure _

theorem veiled_resolveInput (name : String) (useLiterals : Bool) :
    Veiled scene (resolveInput compile tree node name useLiterals)
      (resolveInput further tree node name useLiterals) := by
  unfold resolveInput
  split
  · exact veiled_report_pure _ _
  · exact veiled_resolveSocket hc tree node _ useLiterals

theorem veiled_writePluginNode (plugin : String) (useLiterals : Bool) :
    Veiled scene (pass.writePluginNode compile tree node plugin useLiterals)
      (pass.writePluginNode further tree node plugin useLiterals) := by
  unfold Pass.writePluginNode
  split
  · exact veiled_report_pure _ _
  · refine (veiled_collect fun socket _ => ?_).bind fun supplied =>
      (veiled_claimName _).bind fun _ => (veiled_writePlugin _ _ _ _).bind fun _ => veiled_pure _
    unfold supply
    split
    · exact veiled_pure _
    · exact (veiled_resolveSocket hc tree node socket useLiterals).bind fun _ => veiled_pure _

theorem veiled_writeLayeredTexture :
    Veiled scene (pass.writeLayeredTexture compile tree node)
      (pass.writeLayeredTexture further tree node) := by
  unfold Pass.writeLayeredTexture
  refine (veiled_collect fun socket _ => ?_).bind fun layers => ?_
  · unfold textureLayer
    split
    · refine (veiled_resolveSocket hc tree node socket true).bind fun value => ?_
      split
      · exact veiled_pure _
      · exact veiled_report_pure _ _
    · exact veiled_pure _
  · split
    · exact veiled_report_pure _ _
    · exact (veiled_claimName _).bind fun _ => (veiled_emit _).bind fun _ => veiled_pure _

theorem veiled_linkedWeight (socket : String) :
    Veiled scene (Pass.linkedWeight compile tree node socket)
      (Pass.linkedWeight further tree node socket) := by
  unfold Pass.linkedWeight
  split
  · exact (hc _ _ _).bind fun _ => veiled_pure _
  · exact veiled_pure _

theorem veiled_brdfLayer (layer : Nat) :
    Veiled scene (pass.brdfLayer compile tree node layer)
      (pass.brdfLayer further tree node layer) := by
  unfold Pass.brdfLayer
  simp only
  split
  · exact veiled_pure _
  · split
    · refine (veiled_resolveSocket hc tree node _ true).bind fun value => ?_
      split
      · exact veiled_report_pure _ _
      · refine (veiled_linkedWeight hc tree node _).bind fun weight => ?_
        split
        · exact veiled_pure _
        · exact (veiled_claimAndEmit _ _).bind fun _ => veiled_pure _
    · exact veiled_pure _

theorem veiled_writeLayeredBrdf (additive : Bool) :
    Veiled scene (pass.writeLayeredBrdf compile tree node additive)
      (pass.writeLayeredBrdf further tree node additive) := by
  unfold Pass.writeLayeredBrdf
  refine (veiled_collect fun layer _ => veiled_brdfLayer hc tree node layer).bind fun layers => ?_
  split
  · exact veiled_report_pure _ _
  · exact (veiled_claimName _).bind fun _ => (veiled_emit _).bind fun _ => veiled_pure _

/-! ### Materials -/

omit hc in
theorem veiled_materialToken (r : Except Failure (Option Resolved)) :
    Veiled scene (materialToken tree r) (materialToken tree r) := by
  unfold materialToken
  split
  · exact veiled_pure _
  · exact veiled_report_pure _ _
  · exact veiled_report_pure _ _
  · exact veiled_throw _

theorem veiled_writeMaterialTree :
    Veiled scene (writeMaterialTree compile tree) (writeMaterialTree further tree) := by
  unfold writeMaterialTree
  split
  · exact veiled_report_pure _ _
  · refine veiled_get fun s hs => ?_
    have htoken : (s.veil scene).overrideToken = s.overrideToken := rfl
    rw [htoken]
    split
    · exact veiled_pure _
    · split
      · exact (veiled_resolveInput hc tree _ _ _).attempt.bind fun r => veiled_materialToken tree r
      · exact veiled_report_pure _ _

theorem veiled_writeObjectTree :
    Veiled scene (writeObjectTree compile tree) (writeObjectTree further tree) := by
  unfold writeObjectTree
  split
  · exact veiled_report_pure _ _
  · refine (veiled_resolveInput hc tree _ _ _).attempt.bind fun r => ?_
    unfold objectToken
    split
    · exact veiled_pure _
    · exact veiled_report_pure _ _
    · exact veiled_throw _

end Nodes

/-! ### Objects

From here on the two passes look objects up in the scene: the one finds hidden objects there and
the other one does not. -/

section Objects

variable (hc : VeiledAll pass.scene compile further)

include hc

theorem veiled_slotMaterial (slot : Option String) :
    Veiled pass.scene (pass.slotMaterial compile slot)
      ((pass.over pass.scene.shown).slotMaterial further slot) := by
  unfold Pass.slotMaterial
  have htrees : (pass.over pass.scene.shown).scene.materialTree? = pass.scene.materialTree? := rfl
  rw [htrees]
  split
  · exact veiled_pure _
  · exact (veiled_writeMaterialTree hc _).bind fun _ => veiled_pure _

theorem veiled_writeObjectMaterial :
    Veiled pass.scene (pass.writeObjectMaterial compile)
      ((pass.over pass.scene.shown).writeObjectMaterial further) := by
  unfold Pass.writeObjectMaterial
  refine veiled_get fun s hs => ?_
  have hscope : (s.veil pass.scene).scope = s.scope := rfl
  rw [hscope]
  split
  · exact veiled_report_pure _ _
  · rename_i scope hscope
    -- the object in scope is not hidden
    have hobject : (pass.over pass.scene.shown).scene.object? scope.name =
        pass.scene.object? scope.name :=
      Scene.object?_shown_of_not_hides (hs.scope scope hscope)
    have htoken : (s.veil pass.scene).ledger.synthesized? (multiMaterialName scope.name) =
        s.ledger.synthesized? (multiMaterialName scope.name) := rfl
    simp only [hobject, htoken]
    split
    · exact veiled_pure _
    · split
      · exact veiled_pure _
      · refine (veiled_collect fun slot _ => veiled_slotMaterial hc slot).bind fun materials => ?_
        refine Veiled.bind ?_ fun token => Veiled.bind (fun t ht => ⟨rfl, ht.of_eq rfl rfl⟩)
          fun _ => veiled_pure _
        unfold Pass.combineMaterials
        split
        · exact veiled_pure _
        · exact veiled_pure _
        · exact veiled_claimAndEmit _ _

theorem veiled_buildObject (name : String) (object : SceneObject) :
    Veiled pass.scene (pass.buildObject compile name object)
      ((pass.over pass.scene.shown).buildObject further name object) := by
  unfold Pass.buildObject
  split
  · unfold Pass.writePlainObject
    have hcatalog : (pass.over pass.scene.shown).catalog = pass.catalog := rfl
    rw [hcatalog]
    split
    · exact veiled_report_pure _ _
    · refine Veiled.bind veiled_writeGeometry fun geometry => ?_
      split
      · exact veiled_pure _
      · exact (veiled_writeObjectMaterial hc).bind fun material =>
          (veiled_claimName _).bind fun _ => (veiled_writePlugin _ _ _ _).bind fun _ =>
            veiled_pure _
  · rename_i key _
    have htree : (pass.over pass.scene.shown).scene.tree? key = pass.scene.tree? key := rfl
    rw [htree]
    split
    · exact veiled_writeObjectTree hc _
    · exact veiled_report_pure _ _

omit hc in
/-- A hidden object is entered without a record, which is forgotten. -/
theorem veiled_writeObject_of_hides {name : String} (h : pass.scene.hides name = true)
    (compile : NodeCompiler) :
    Veiled pass.scene (pass.writeObject compile name) (pure none) := by
  intro s hs
  rw [writeObject_runOn]
  cases hl : s.ledger.object? name with
  | some progress =>
    rw [hs.ledger name progress h hl]
    exact ⟨rfl, hs⟩
  | none =>
    obtain ⟨object, ho, hv⟩ := (Option.any_eq_true _ _).mp h
    have hhidden : object.visible = false := by simpa using hv
    have hforgotten : (s.hide name).veil pass.scene = s.veil pass.scene := by
      unfold PassState.veil PassState.hide
      rw [Ledger.veil_setObject_of_hides _ _ h]
    simp only [ho, hhidden, Bool.false_eq_true, if_false]
    rw [hforgotten]
    exact ⟨rfl, hs.ledger.setObject fun _ => rfl, hs.scope⟩

/-- An object compiles alike with and without hidden objects in the scene. -/
theorem veiled_writeObject (name : String) :
    Veiled pass.scene (pass.writeObject compile name)
      ((pass.over pass.scene.shown).writeObject further name) := by
  cases h : pass.scene.hides name with
  | true =>
    intro s hs
    obtain ⟨hrun, hdiscreet⟩ := veiled_writeObject_of_hides h compile s hs
    refine ⟨?_, hdiscreet⟩
    rw [← hrun, writeObject_runOn]
    have hscene : (pass.over pass.scene.shown).scene.object? name = none :=
      Scene.object?_shown_of_hides h
    have hledger : (s.veil pass.scene).ledger.object? name = none :=
      Ledger.object?_veil_of_hides _ h
    rw [hledger, hscene]
    rfl
  | false =>
    intro s hs
    have hledger : (s.veil pass.scene).ledger.object? name = s.ledger.object? name :=
      Ledger.object?_veil_of_not_hides _ h
    have hscene : (pass.over pass.scene.shown).scene.object? name = pass.scene.object? name :=
      Scene.object?_shown_of_not_hides h
    rw [writeObject_runOn, writeObject_runOn, hledger, hscene]
    rcases s.ledger.object? name with _ | _ | token
    · cases ho : pass.scene.object? name with
      | none => exact ⟨rfl, hs⟩
      | some object =>
        simp only [Scene.visible_of_not_hides h ho, if_true]
        have hshown : ∀ progress, pass.scene.hides name = true →
            progress = Progress.done (none : Option String) := fun _ hn => by simp [h] at hn
        have henter : (s.veil pass.scene).enter name object =
            (s.enter name object).veil pass.scene := by
          unfold PassState.enter PassState.veil
          rw [Ledger.veil_setObject _ _ h]
        obtain ⟨hrun, hdiscreet⟩ := veiled_buildObject hc name object (s.enter name object)
          ⟨hs.ledger.setObject (hshown _), fun scope hscope => by cases hscope; exact h⟩
        rw [henter, hrun]
        generalize (pass.buildObject compile name object).runOn _ = o at hdiscreet ⊢
        rcases o with ⟨failure | token, t⟩
        · refine ⟨?_, hdiscreet.ledger.abandonObject name, hs.scope⟩
          unfold objectEnd PassState.quit PassState.veil
          simp only
          rw [Ledger.veil_abandonObject]
        · refine ⟨?_, hdiscreet.ledger.setObject (hshown _), hs.scope⟩
          unfold objectEnd PassState.leave PassState.veil
          simp only
          rw [Ledger.veil_setObject _ _ h]
    · exact ⟨rfl, hs.of_eq rfl rfl⟩
    · exact ⟨rfl, hs⟩

theorem veiled_selectMember (tree : NodeTree) (node : Node) (name : String) :
    Veiled pass.scene (pass.selectMember compile tree node name)
      ((pass.over pass.scene.shown).selectMember further tree node name) := by
  unfold Pass.selectMember
  refine veiled_get fun s hs => ?_
  have hresolving : (s.veil pass.scene).ledger.object? name = some .resolving ↔
      s.ledger.object? name = some .resolving := by
    cases h : pass.scene.hides name with
    | true =>
      have hveiled : (s.veil pass.scene).ledger.object? name = none :=
        Ledger.object?_veil_of_hides _ h
      rw [hveiled]
      exact ⟨fun hp => (nomatch hp), fun hp => (nomatch hs.ledger name _ h hp)⟩
    | false => exact iff_of_eq (congrArg (· = _) (Ledger.object?_veil_of_not_hides _ h))
  simp only [hresolving]
  split
  · exact veiled_throw _
  · exact veiled_writeObject hc name

/-- A selector may name hidden objects. -/
theorem veiled_select (tree : NodeTree) (node : Node) (names : List String) :
    Veiled pass.scene (pass.select compile tree node names)
      ((pass.over pass.scene.shown).select further tree node names) :=
  (veiled_collect fun name _ => veiled_selectMember hc tree node name).bind fun _ => veiled_pure _

/-- A selector of one object passes over a hidden one as over one that is not there. -/
theorem veiled_selectObject (tree : NodeTree) (node : Node) (object : Option String) :
    Veiled pass.scene (pass.selectObject compile tree node object)
      ((pass.over pass.scene.shown).selectObject further tree node object) := by
  have hnames : (object.toList.filter fun name => (pass.scene.shown.object? name).isSome) =
      (object.toList.filter fun name => (pass.scene.object? name).isSome).filter
        fun name => !pass.scene.hides name := by
    rw [List.filter_filter]
    refine List.filter_congr fun name _ => ?_
    cases h : pass.scene.hides name with
    | true => rw [Scene.object?_shown_of_hides h]; rfl
    | false => rw [Scene.object?_shown_of_not_hides h]; rfl
  have hhidden : ∀ name, pass.scene.hides name = true →
      Veiled pass.scene (pass.selectMember compile tree node name) (pure none) := by
    intro name h s hs
    unfold Pass.selectMember
    have hnew : s.ledger.object? name ≠ some .resolving := fun hp =>
      nomatch hs.ledger name _ h hp
    rw [runOn_bind_ok (runOn_get s), if_neg hnew]
    exact veiled_writeObject_of_hides h compile s hs
  unfold Pass.selectObject
  show Veiled _ _ (Pass.select _ further tree node
    (object.toList.filter fun name => (pass.scene.shown.object? name).isSome))
  rw [hnames]
  exact (veiled_collect_filter _ (fun name _ _ => veiled_selectMember hc tree node name)
    fun name _ h => hhidden name (by simpa using h)).bind fun _ => veiled_pure _

/-- One step of the walk is veiled if the steps below it are. -/
theorem veiled_compileNode : VeiledAll pass.scene (pass.compileNode compile)
    ((pass.over pass.scene.shown).compileNode further) := by
  intro tree node useLiterals
  unfold Pass.compileNode
  cases node.kind with
  | plugin category plugin =>
    exact veiled_once tree node (veiled_writePluginNode hc tree node plugin useLiterals)
  | unset => exact veiled_pure _
  | layeredTexture => exact veiled_once tree node (veiled_writeLayeredTexture hc tree node)
  | layeredBrdf additive =>
    exact veiled_once tree node (veiled_writeLayeredBrdf hc tree node additive)
  | selectObject object =>
    exact (veiled_selectObject hc tree node object).bind fun _ => veiled_pure _
  | selectGroup group => exact (veiled_select hc tree node _).bind fun _ => veiled_pure _
  | objectGeometry => exact veiled_writeGeometry
  | objectMaterial => exact (veiled_writeObjectMaterial hc).bind fun _ => veiled_pure _
  | materialOutput refuses => exact veiled_resolveInput hc tree node "Material" useLiterals
  | objectOutput => exact veiled_resolveInput hc tree node "Object" useLiterals

end Objects

/-! ### Passes -/

/-- The walk is veiled at every depth. -/
theorem veiled_walk (pass : Pass) : ∀ depth,
    VeiledAll pass.scene (pass.walk depth) ((pass.over pass.scene.shown).walk depth)
  | 0 => fun _ _ _ => veiled_throw _
  | depth + 1 => veiled_compileNode (veiled_walk pass depth)

/-- All that a pass does behind its defaults is veiled; the objects that come in their turn on
the one side alone are hidden. -/
theorem veiled_sceneWith (hc : VeiledAll pass.scene compile further) :
    Veiled pass.scene (pass.sceneWith compile)
      ((pass.over pass.scene.shown).sceneWith further) := by
  have htrees : (pass.over pass.scene.shown).scene.materialTree? = pass.scene.materialTree? := rfl
  have hsettings : (pass.over pass.scene.shown).settings = pass.settings := rfl
  have hoverride : Veiled pass.scene (pass.overrideWith compile)
      ((pass.over pass.scene.shown).overrideWith further) := by
    unfold Pass.overrideWith
    rw [htrees, hsettings]
    split
    · exact veiled_pure _
    · split
      · exact veiled_report _
      · exact (veiled_writeMaterialTree hc _).bind fun token => (veiled_report _).bind fun _ =>
          fun s hs => ⟨rfl, hs.of_eq rfl rfl⟩
  have hmaterial : ∀ material, Veiled pass.scene (pass.materialWith compile material)
      ((pass.over pass.scene.shown).materialWith further material) := by
    intro material
    unfold Pass.materialWith
    rw [htrees]
    split
    · exact veiled_pure _
    · exact (veiled_writeMaterialTree hc _).bind fun _ => veiled_pure _
  unfold Pass.sceneWith
  refine hoverride.bind fun _ => (veiled_forM fun material _ => hmaterial material).bind fun _ => ?_
  show Veiled _ _ (pass.scene.shown.objects.keys.forM _)
  rw [Scene.keys_shown]
  refine veiled_forM_filter _ (fun name _ _ => ?_) fun name _ h => ?_
  · exact (veiled_writeObject hc name).bind fun _ => veiled_pure _
  · exact (veiled_writeObject_of_hides (by simpa using h) compile).bind fun _ => veiled_pure ()

/-- Two runs end alike: with the same result, the same records and text, the same meshes and the
same reports. -/
structure EndsAlike (o p : Except Failure α × PassState) : Prop where
  result : p.1 = o.1
  sink : p.2.sink = o.2.sink
  sent : p.2.sent = o.2.sent
  meshes : p.2.meshes = o.2.meshes
  log : p.2.log = o.2.log

theorem EndsAlike.symm {o p : Except Failure α × PassState} (h : EndsAlike o p) : EndsAlike p o :=
  ⟨h.result.symm, h.sink.symm, h.sent.symm, h.meshes.symm, h.log.symm⟩

theorem EndsAlike.trans {o p q : Except Failure α × PassState} (h : EndsAlike o p)
    (h' : EndsAlike p q) : EndsAlike o q :=
  ⟨h'.result.trans h.result, h'.sink.trans h.sink, h'.sent.trans h.sent,
    h'.meshes.trans h.meshes, h'.log.trans h.log⟩

/-- Nothing of how a run ends is about hidden objects. -/
theorem Veiled.endsAlike (h : Veiled scene c d) {s : PassState} (hs : s.Discreet scene) :
    EndsAlike (c.runOn s) (d.runOn (s.veil scene)) := by
  rw [(h s hs).1]
  exact ⟨rfl, rfl, rfl, rfl, rfl⟩

/-- A pass and the pass over what the scene shows end alike, from any state. -/
theorem veiled_runWith (hc : VeiledAll pass.scene compile further) (s : PassState) :
    EndsAlike ((pass.runWith compile).runOn s)
      (((pass.over pass.scene.shown).runWith further).runOn s) := by
  have hdefaults : Veiled pass.scene pass.writeDefaults
      (pass.over pass.scene.shown).writeDefaults := by
    unfold Pass.writeDefaults
    refine veiled_get fun t _ => ?_
    have htaken : (t.veil pass.scene).ledger.isTaken defaultMaterial =
        t.ledger.isTaken defaultMaterial := rfl
    rw [htaken]
    split
    · exact veiled_pure _
    · exact (veiled_emit _).bind fun _ => (veiled_emit _).bind fun _ => veiled_pure _
  have hhead : Veiled pass.scene (writeRemark (headerText pass.scene.name pass.frame))
      (writeRemark (headerText pass.scene.name pass.frame)) := veiled_writeEntry pass.header
  have hclosing : Veiled pass.scene pass.closing (pass.over pass.scene.shown).closing :=
    fun t ht => ⟨rfl, ht.of_eq rfl rfl⟩
  have hrest := hhead.bind fun _ => hdefaults.bind fun _ => (veiled_sceneWith hc).bind
    fun _ => hclosing
  -- a pass begins with an empty ledger and outside objects
  let start : PassState := { s.note (.exporting pass.scene.name pass.frame) with
    ledger := {}, scope := none, overrideToken := none }
  have hstart : start.Discreet pass.scene :=
    ⟨fun _ _ _ h => (nomatch h), fun _ h => (nomatch h)⟩
  have halike := hrest.endsAlike hstart
  unfold Pass.runWith
  rw [runOn_bind_ok (runOn_report _ s), runOn_bind_ok (runOn_modify _ _),
    runOn_bind_ok (runOn_report _ s), runOn_bind_ok (runOn_modify _ _)]
  exact halike

/-- Without hidden objects, the bound of the walk is no larger. -/
theorem walkDepth_shown_le (scene : Scene) : scene.shown.walkDepth ≤ scene.walkDepth := by
  have hsize : scene.shown.objects.size ≤ scene.objects.size := List.length_filter_le _ _
  have hmarks := Nat.mul_le_mul_left scene.nodeCount (Nat.add_le_add_right hsize 2)
  exact Nat.add_le_add_right
    (Nat.mul_le_mul_right _ (Nat.add_le_add_right (Nat.add_le_add hmarks hsize) 1)) 1

/-- With a larger bound on the walk, a pass that ended within its own ends as it did. -/
theorem runWith_of_ends {pass : Pass} {s : PassState} {depth more : Nat} (h : depth ≤ more)
    (hend : ((pass.runWith (pass.walk depth)).runOn s).1 ≠ .error .depthExceeded) :
    (pass.runWith (pass.walk more)).runOn s = (pass.runWith (pass.walk depth)).runOn s :=
  (deepens_runWith (walk_deepens pass h) s).resolve_left hend

/-- **Hidden objects do not leak.** Another scene shows what the scene of a pass shows: it differs
in hidden objects alone, in their meshes, slots, trees and places or in whether they are there at
all, whatever selectors and groups name. With any bound on the walk the passes over the two end
alike: with the same result and summary, the same records in the same order, the same meshes and
the same reports. Each pass has a bound made from its own scene; if neither needs more, they end
alike, and neither does if nothing comes back to itself over the ends of trees. -/
theorem hidden_objects_unseen (pass : Pass) {scene : Scene}
    (h : scene.shown = pass.scene.shown) :
    let other := pass.over scene
    (∀ depth s, EndsAlike ((pass.runWith (pass.walk depth)).runOn s)
        ((other.runWith (other.walk depth)).runOn s)) ∧
      (∀ s, (pass.run.runOn s).1 ≠ .error .depthExceeded →
        (other.run.runOn s).1 ≠ .error .depthExceeded →
        EndsAlike (pass.run.runOn s) (other.run.runOn s)) ∧
      (pass.scene.shown.Straight → ∀ s, EndsAlike (pass.run.runOn s) (other.run.runOn s)) := by
  intro other
  let bare := pass.over pass.scene.shown
  have hbare : other.over other.scene.shown = bare :=
    congrArg (fun shown => { pass with scene := shown }) h
  have hpass : ∀ depth s, EndsAlike ((pass.runWith (pass.walk depth)).runOn s)
      ((bare.runWith (bare.walk depth)).runOn s) :=
    fun depth s => veiled_runWith (veiled_walk pass depth) s
  have hother : ∀ depth s, EndsAlike ((other.runWith (other.walk depth)).runOn s)
      ((bare.runWith (bare.walk depth)).runOn s) := by
    intro depth s
    have hrun := veiled_runWith (veiled_walk other depth) s
    rwa [hbare] at hrun
  have hsame : ∀ depth s, EndsAlike ((pass.runWith (pass.walk depth)).runOn s)
      ((other.runWith (other.walk depth)).runOn s) :=
    fun depth s => (hpass depth s).trans (hother depth s).symm
  have hends : ∀ s, (pass.run.runOn s).1 ≠ .error .depthExceeded →
      (other.run.runOn s).1 ≠ .error .depthExceeded →
      EndsAlike (pass.run.runOn s) (other.run.runOn s) := by
    intro s hp ho
    rw [← pass.runWith_compiler] at hp ⊢
    rw [← other.runWith_compiler] at ho ⊢
    have hboth := hsame (max pass.scene.walkDepth other.scene.walkDepth) s
    rwa [runWith_of_ends (Nat.le_max_left _ _) hp, runWith_of_ends (Nat.le_max_right _ _) ho]
      at hboth
  refine ⟨hsame, hends, fun hstraight s => ?_⟩
  -- the pass over what is shown ends within its bound, which the other bounds are no less than
  have hshown : ((bare.runWith (bare.walk bare.scene.walkDepth)).runOn s).1 ≠
      .error .depthExceeded := by
    have hrun : (bare.run.runOn s).1 ≠ .error .depthExceeded := unbounded_run hstraight.ringFree s
    rwa [← bare.runWith_compiler] at hrun
  have hwithin : ∀ p : Pass, bare.scene.walkDepth ≤ p.scene.walkDepth →
      (∀ depth s, EndsAlike ((p.runWith (p.walk depth)).runOn s)
        ((bare.runWith (bare.walk depth)).runOn s)) →
      (p.run.runOn s).1 ≠ .error .depthExceeded := by
    intro p hle hp
    have hend : ((p.runWith (p.walk bare.scene.walkDepth)).runOn s).1 ≠
        .error .depthExceeded := by
      rw [← (hp _ s).result]
      exact hshown
    rw [← p.runWith_compiler]
    unfold Pass.compiler
    rw [runWith_of_ends hle hend]
    exact hend
  refine hends s (hwithin pass (walkDepth_shown_le pass.scene) hpass) (hwithin other ?_ hother)
  have hle := walkDepth_shown_le other.scene
  rwa [show other.scene.shown = bare.scene from h] at hle

/-- A fog that thickens near the objects of a site, one of which is also picked alone. -/
def fogTree : NodeTree := .ofParts "Fog"
  [{ name := "End", kind := .materialOutput false,
      inputs := [⟨"Material", .input, .material, none, none⟩] },
    { name := "Mist", kind := .plugin .brdf "BRDFDiffuse",
      inputs := [⟨"Colour", .input, .texture, some "color_tex", none⟩],
      outputs := [⟨"Out", .output, .brdf, none, none⟩] },
    { name := "Near", kind := .plugin .texture "TexDistance",
      inputs := [⟨"Objects", .input, .objects, some "objects", none⟩,
        ⟨"Far", .input, .objects, some "far_tex", none⟩],
      outputs := [⟨"Out", .output, .texture, none, none⟩] },
    { name := "Site", kind := .selectGroup (some "Site"),
      outputs := [⟨"Out", .output, .objects, none, none⟩] },
    { name := "Alone", kind := .selectObject (some "Ghost"),
      outputs := [⟨"Out", .output, .objects, none, none⟩] }]
  [⟨⟨1⟩, ⟨"Mist", "Out"⟩, ⟨"End", "Material"⟩⟩, ⟨⟨2⟩, ⟨"Near", "Out"⟩, ⟨"Mist", "Colour"⟩⟩,
    ⟨⟨3⟩, ⟨"Site", "Out"⟩, ⟨"Near", "Objects"⟩⟩, ⟨⟨4⟩, ⟨"Alone", "Out"⟩, ⟨"Near", "Far"⟩⟩]

/-- A cabin in the fog with two hidden objects, all of them in the group of the site. -/
def sitePass : Pass where
  scene := (((((({} : Scene).addTree fogTree).addMaterial "Fog" ⟨some "Fog"⟩).addObject "Ghost"
    { mesh := some "Sheet", slots := [some "Fog"], tree := some "Fog", visible := false }).addObject
      "Cabin" { mesh := some "Cabin", slots := [some "Fog"] }).addObject
      "Shade" { visible := false }).addGroup "Site" ⟨["Ghost", "Cabin", "Nobody", "Shade"]⟩
  catalog := Catalog.builtin
  settings := {}
  geometry := .external
  frame := 1

/-- The ghost goes away, and the shade gets a mesh and a material. -/
def siteEdit (name : String) (object : SceneObject) : Option SceneObject :=
  if name = "Ghost" then none else some { object with mesh := some "Veil", slots := [some "Fog"] }

theorem hidden_objects_unseen_site :
    (sitePass.scene.editHidden siteEdit).shown = sitePass.scene.shown ∧
      sitePass.scene.shown.Straight ∧
      sitePass.scene.objects.keys = ["Ghost", "Cabin", "Shade"] ∧
      (sitePass.scene.editHidden siteEdit).objects.keys = ["Cabin", "Shade"] ∧
      EndsAlike (sitePass.run.runOn {})
        ((sitePass.over (sitePass.scene.editHidden siteEdit)).run.runOn {}) := by
  have hshown := sitePass.scene.shown_editHidden siteEdit
  have hstraight : sitePass.scene.shown.Straight := Scene.straight_of_direct (by decide)
  exact ⟨hshown, hstraight, by decide, by decide,
    (hidden_objects_unseen sitePass hshown).2.2 hstraight {}⟩

end ShadeNet
