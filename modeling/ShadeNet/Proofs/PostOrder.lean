/-
# A record stands behind the records it refers to

A token reaches a record over the ledger, the override, the default material, the lists
of a selector or the scope of an object. Whichever way it came, the record that it stands
for was written before: the ledger holds no other tokens, and a pass that goes on has
written everything it has tried to.

Key definitions: `Pass.Knows`, `Pass.PostOrdered`, `Pass.Cached`, `Sorted`, `sortedContract`.
Key theorems: `sorted_claimAndEmit`, `sorted_writeGeometry`, `sorted_run`,
`references_earlier`.
-/
import Mathlib.Data.List.Infix
import ShadeNet.Proofs.Distinct
import ShadeNet.Proofs.Escape
import ShadeNet.Proofs.Legible

namespace ShadeNet

/-- What holds of every member of a list and those before it, and of one more and the
list, holds of the longer list. -/
theorem forall_split_concat {α : Type} {P : List α → α → Prop} {l : List α} {x : α}
    (h : ∀ before a after, l = before ++ a :: after → P before a) (hx : P l x) :
    ∀ before a after, l ++ [x] = before ++ a :: after → P before a := by
  intro before a after he
  rcases List.append_eq_append_iff.mp he with ⟨between, rfl, hlast⟩ | ⟨between, rfl, hlast⟩
  · rcases between with _ | ⟨first, between⟩
    · cases hlast
      rwa [List.append_nil]
    · simp at hlast
  · rcases between with _ | ⟨first, between⟩
    · cases hlast
      rwa [List.append_nil] at hx
    · cases hlast
      exact h before a between rfl

/-! ### Names that may be referred to -/

/-- For every mesh one record without attributes is written, under the mesh's name. -/
def GeometryExporter.WritesEach (geometry : GeometryExporter) : Prop :=
  ∀ earlier request, (geometry.answer earlier request).failure = none →
    ∃ r, (geometry.answer earlier request).entries = [.record r] ∧ r.name = request.name ∧
      r.attrs = []

/-- Nothing is written for any mesh. -/
def GeometryExporter.WritesNothing (geometry : GeometryExporter) : Prop :=
  ∀ earlier request, (geometry.answer earlier request).entries = []

/-- The mesh of an object of the scene. -/
def Scene.HasMesh (scene : Scene) (mesh : String) : Prop :=
  ∃ object ∈ scene.objects.values, object.mesh = some mesh

namespace Pass

variable (pass : Pass)

/-- The meshes are in a file of their own. -/
def MeshesExternal : Prop := pass.geometry.WritesNothing ∨ pass.settings.autoMeshes = false

/-- A name that may be referred to behind some records: that of one of them, or of a
mesh of the scene in a file of its own. -/
def Knows (earlier : List Record) (name : String) : Prop :=
  (∃ r ∈ earlier, r.name = name) ∨
    pass.MeshesExternal ∧ ∃ mesh, pass.scene.HasMesh mesh ∧ name = meshName mesh

/-- Each record refers to nothing but what may be referred to behind those before it. -/
def PostOrdered (records : List Record) : Prop :=
  ∀ earlier r later, records = earlier ++ r :: later → RefersOnly (pass.Knows earlier) r

variable {pass} {rs rs' : List Record}

theorem Knows.mono {name : String} (h : pass.Knows rs name) (hsub : rs ⊆ rs') :
    pass.Knows rs' name := h.imp_left fun ⟨r, hr, hn⟩ => ⟨r, hsub hr, hn⟩

theorem postOrdered_nil : pass.PostOrdered [] := fun earlier r later h => by simp at h

/-- One more record, whose references are known. -/
theorem PostOrdered.concat {r : Record} (h : pass.PostOrdered rs)
    (hr : RefersOnly (pass.Knows rs) r) : pass.PostOrdered (rs ++ [r]) :=
  forall_split_concat h hr

end Pass

/-! ### Ledgers -/

/-- The tokens that a pass has at hand stand for records that are written. -/
structure Pass.Cached (pass : Pass) (rs : List Record) (s : PassState) : Prop where
  mesh : ∀ scope, s.scope = some scope → ∀ mesh, scope.mesh = some mesh → pass.scene.HasMesh mesh
  node : ∀ key name v, s.ledger.node? key name = some (.done v) → IsOwn (pass.Knows rs) v
  object : ∀ name token, s.ledger.object? name = some (.done (some token)) →
    IsWorth (pass.Knows rs) (.reference token)
  override : ∀ token, s.overrideToken = some token → IsWorth (pass.Knows rs) (.reference token)
  synthesized : ∀ key token, s.ledger.synthesized? key = some token →
    IsWorth (pass.Knows rs) (.reference token)
  handedOut : ∀ name ∈ s.ledger.meshes, pass.Knows rs name

namespace Pass.Cached

variable {pass : Pass} {rs rs' : List Record} {s t : PassState}

theorem mono (h : pass.Cached rs s) (hsub : rs ⊆ rs') : pass.Cached rs' s where
  mesh := h.mesh
  node key name v hv := (h.node key name v hv).mono fun _ hn => hn.mono hsub
  object name token ht := (h.object name token ht).mono fun _ hn => hn.mono hsub
  override token ht := (h.override token ht).mono fun _ hn => hn.mono hsub
  synthesized key token ht := (h.synthesized key token ht).mono fun _ hn => hn.mono hsub
  handedOut name hm := (h.handedOut name hm).mono hsub

/-- A state with the same tokens at hand. -/
theorem congr (h : pass.Cached rs s) (hscope : t.scope = s.scope)
    (hover : t.overrideToken = s.overrideToken) (hnodes : t.ledger.nodes = s.ledger.nodes)
    (hobjects : t.ledger.objects = s.ledger.objects)
    (hsynth : t.ledger.synthesized = s.ledger.synthesized)
    (hmeshes : t.ledger.meshes = s.ledger.meshes) : pass.Cached rs t where
  mesh := hscope ▸ h.mesh
  node key name v hv := h.node key name v (by rwa [Ledger.node?, ← hnodes])
  object name token ht := h.object name token (by rwa [Ledger.object?, ← hobjects])
  override := hover ▸ h.override
  synthesized key token ht := h.synthesized key token (by rwa [Ledger.synthesized?, ← hsynth])
  handedOut := hmeshes ▸ h.handedOut

/-- A node that is entered with a value, or marked. -/
theorem setNode (h : pass.Cached rs s) (key name : String) {progress : Progress Resolved}
    (hp : ∀ v, progress = .done v → IsOwn (pass.Knows rs) v) :
    pass.Cached rs { s with ledger := s.ledger.setNode key name progress } where
  mesh := h.mesh
  node k n v hv := by
    rw [Ledger.node?_setNode] at hv
    split at hv
    · exact hp v (Option.some.inj hv)
    · exact h.node k n v hv
  object := h.object
  override := h.override
  synthesized := h.synthesized
  handedOut := h.handedOut

theorem abandonNode (h : pass.Cached rs s) (key name : String) :
    pass.Cached rs { s with ledger := s.ledger.abandonNode key name } where
  mesh := h.mesh
  node k n v hv := by
    rw [Ledger.node?_abandonNode] at hv
    split at hv
    · cases hv
    · exact h.node k n v hv
  object := h.object
  override := h.override
  synthesized := h.synthesized
  handedOut := h.handedOut

/-- An object that is entered with a token, or marked, and the scope of an object. -/
theorem setObject (h : pass.Cached rs s) (name : String) {progress : Progress (Option String)}
    {scope : Option ObjectScope}
    (hp : ∀ token, progress = .done (some token) → IsWorth (pass.Knows rs) (.reference token))
    (hs : ∀ own, scope = some own → ∀ mesh, own.mesh = some mesh → pass.scene.HasMesh mesh) :
    pass.Cached rs { s with ledger := s.ledger.setObject name progress, scope := scope } where
  mesh := hs
  node := h.node
  object n token ht := by
    rw [Ledger.object?_setObject] at ht
    split at ht
    · exact hp token (Option.some.inj ht)
    · exact h.object n token ht
  override := h.override
  synthesized := h.synthesized
  handedOut := h.handedOut

theorem abandonObject (h : pass.Cached rs s) (name : String) {scope : Option ObjectScope}
    (hs : ∀ own, scope = some own → ∀ mesh, own.mesh = some mesh → pass.scene.HasMesh mesh) :
    pass.Cached rs { s with ledger := s.ledger.abandonObject name, scope := scope } where
  mesh := hs
  node := h.node
  object n token ht := by
    rw [Ledger.object?_abandonObject] at ht
    split at ht
    · cases ht
    · exact h.object n token ht
  override := h.override
  synthesized := h.synthesized
  handedOut := h.handedOut

theorem setSynthesized (h : pass.Cached rs s) (key : String) {token : String}
    (hp : IsWorth (pass.Knows rs) (.reference token)) :
    pass.Cached rs { s with ledger := s.ledger.setSynthesized key token } where
  mesh := h.mesh
  node := h.node
  object := h.object
  override := h.override
  synthesized k other ht := by
    rw [Ledger.synthesized?_setSynthesized] at ht
    split at ht
    · cases ht
      exact hp
    · exact h.synthesized k other ht
  handedOut := h.handedOut

end Pass.Cached

/-! ### States -/

/-- The records that were tried since a pass had its head. -/
def PassState.since (s start : PassState) : List Record := s.sent.drop start.sent.length

theorem since_grows {s t : PassState} (h : s.sent <+: t.sent) (start : PassState) :
    s.since start <+: t.since start := h.drop _

/-- Whatever a pass has tried since `start` is written, in post-order, and the tokens that
it has at hand stand for what is written. -/
structure Sorted (pass : Pass) (start s : PassState) : Prop where
  grown : start.sent <+: s.sent
  sink : s.sink = start.sink.writeAll ((s.since start).map Entry.record)
  ordered : pass.PostOrdered (s.since start)
  default : ∃ r ∈ s.since start, r.name = defaultMaterial
  cached : pass.Cached (s.since start) s

namespace Sorted

variable {pass : Pass} {start s t : PassState}

/-- A step that writes nothing. -/
theorem keep (h : Sorted pass start s) (hsent : t.sent = s.sent) (hsink : t.sink = s.sink)
    (hc : pass.Cached (s.since start) t) : Sorted pass start t := by
  have hsince : t.since start = s.since start := by rw [PassState.since, hsent, PassState.since]
  refine ⟨hsent ▸ h.grown, ?_, ?_, ?_, ?_⟩
  · rw [hsink, hsince]
    exact h.sink
  · rw [hsince]
    exact h.ordered
  · rw [hsince]
    exact h.default
  · rw [hsince]
    exact hc

theorem since_concat (h : Sorted pass start s) {r : Record} (hsent : t.sent = s.sent ++ [r]) :
    t.since start = s.since start ++ [r] := by
  rw [PassState.since, hsent, List.drop_append_of_le_length h.grown.length_le, PassState.since]

/-- A record that is written. -/
theorem send (h : Sorted pass start s) {r : Record} (hsent : t.sent = s.sent ++ [r])
    (hsink : t.sink = (s.sink.write (.record r)).1)
    (hr : RefersOnly (pass.Knows (s.since start)) r)
    (hc : pass.Cached (s.since start ++ [r]) t) : Sorted pass start t := by
  have hsince := h.since_concat hsent
  refine ⟨?_, ?_, ?_, ?_, ?_⟩
  · rw [hsent]
    exact h.grown.trans (List.prefix_append _ _)
  · rw [hsink, h.sink, hsince, List.map_append, Sink.writeAll_append]
    rfl
  · rw [hsince]
    exact h.ordered.concat hr
  · obtain ⟨q, hq, hn⟩ := h.default
    exact ⟨q, by rw [hsince]; exact List.mem_append_left _ hq, hn⟩
  · rw [hsince]
    exact hc

theorem note (h : Sorted pass start s) (line : LogLine) : Sorted pass start (s.note line) :=
  h.keep rfl rfl (h.cached.congr rfl rfl rfl rfl rfl rfl)

theorem knows_mono (hsent : s.sent <+: t.sent) (name : String)
    (h : pass.Knows (s.since start) name) : pass.Knows (t.since start) name :=
  h.mono (since_grows hsent start).subset

theorem worth_default (h : Sorted pass start s) :
    IsWorth (pass.Knows (s.since start)) (.reference defaultMaterial) := by
  have hname : isIdentifier defaultMaterial = true := by decide
  exact IsOwn.worth (v := .reference defaultMaterial) ⟨hname, Or.inl h.default⟩

end Sorted

theorem isIdentifier_of_isInstanceName {name : String} (h : isInstanceName name = true) :
    isIdentifier name = true := by
  unfold isInstanceName at h
  rcases hl : name.toList with _ | ⟨c, word⟩
  · simp [hl] at h
  · rw [hl] at h
    simp only [Bool.and_eq_true, List.all_eq_true] at h
    refine isIdentifier_iff.mpr ⟨c, word, hl, isDigit_eq_false_of_isAlpha h.1, ?_, h.2⟩
    simp [isWordChar, Char.isAlphanum, h.1]

/-! ### Steps -/

variable {pass : Pass} {start s : PassState}

/-- How a step ends that keeps a pass in post-order. -/
abbrev EndsSorted {α : Type} (pass : Pass) (start : PassState) (Q : α → PassState → Prop)
    (s : PassState) : Except Failure α × PassState → Prop :=
  Ends (Sorted pass start) (fun s t => s.sent <+: t.sent) (fun _ => True) Q s

/-- A record of a node or an object refers to what is known, and is known afterwards. -/
theorem sorted_claimAndEmit {base : String} {reports : List LogLine} {record : String → Record}
    (h : Sorted pass start s) (hb : OwnBase base) (hn : ∀ name, (record name).name = name)
    (hf : ∀ name, RefersOnly (pass.Knows (s.since start)) (record name)) :
    EndsSorted pass start (fun token t => IsOwn (pass.Knows (t.since start)) (.reference token)) s
      ((pass.claimAndEmit base reports record).runOn s) := by
  rw [claimAndEmit_runOn]
  generalize hname : freeName s.ledger.names base = name
  have hfit : isInstanceName name = true := hname ▸ isInstanceName_freeName hb.fit.1 _
  rcases writeRecord_cases pass (record name) (s.claim base reports) with hw | ⟨sink, -, hw⟩
  · rw [emit_runOn_ok hw]
    have hsent : (((s.claim base reports).receive (record name)).count (record name).name).sent =
        s.sent ++ [record name] := rfl
    refine ⟨?_, ?_, ?_, ?_⟩
    · refine h.send hsent rfl (hf name) ?_
      exact (h.cached.mono (List.subset_append_left _ _)).congr rfl rfl rfl rfl rfl rfl
    · exact List.prefix_append _ _
    · rw [hn]
      exact isIdentifier_of_isInstanceName hfit
    · refine Or.inl ⟨record name, ?_, rfl⟩
      rw [h.since_concat hsent]
      exact List.mem_append_right _ List.mem_cons_self
  · rw [emit_runOn_error hw]
    exact ⟨List.prefix_append _ _, trivial, fun hc => by cases hc⟩

/-- The mesh of an object in scope is known once it need not be handed out any more. -/
theorem knows_oldMesh (h : Sorted pass start s) {scope : ObjectScope} {mesh : String}
    (hs : s.scope = some scope) (hm : scope.mesh = some mesh)
    (hold : pass.settings.autoMeshes = false ∨ s.ledger.hasMesh (meshName mesh) = true) :
    pass.Knows (s.since start) (meshName mesh) := by
  rcases hold with hoff | hhas
  · exact Or.inr ⟨Or.inr hoff, mesh, h.cached.mesh scope hs mesh hm, rfl⟩
  · exact h.cached.handedOut _ (by simpa [Ledger.hasMesh] using hhas)

/-- A mesh that is handed out is at hand from then on. -/
theorem cached_handOut {rs : List Record} {request : MeshRequest} (h : pass.Cached rs s)
    (hk : pass.Knows rs request.name) : pass.Cached rs (s.handOut request) :=
  { h with
    handedOut := fun name hm => by
      rcases mem_addMember.mp hm with hm | rfl
      · exact h.handedOut name hm
      · exact hk }

/-- A mesh that is handed out is written, or is in a file of its own. -/
theorem sorted_handOut (hg : pass.geometry.WritesEach ∨ pass.geometry.WritesNothing)
    (h : Sorted pass start s) {scope : ObjectScope} {mesh : String} {t : PassState}
    (hs : s.scope = some scope) (hm : scope.mesh = some mesh)
    (hf : (pass.geometry.answer s.meshes ⟨scope.name, mesh, meshName mesh⟩).failure = none)
    (ht : ((pass.geometry.answer s.meshes ⟨scope.name, mesh, meshName mesh⟩).entries.forM
      pass.writeOut).runOn (s.handOut ⟨scope.name, mesh, meshName mesh⟩) = (.ok (), t)) :
    Sorted pass start t ∧ pass.Knows (t.since start) (meshName mesh) := by
  rcases hg with heach | hnothing
  · obtain ⟨r, hr, hn, ha⟩ := heach s.meshes ⟨scope.name, mesh, meshName mesh⟩ hf
    have hn : r.name = meshName mesh := hn
    have hone : [Entry.record r].forM pass.writeOut = pass.writeRecord r := by simp
    rw [hr, hone] at ht
    rcases writeRecord_cases pass r (s.handOut ⟨scope.name, mesh, meshName mesh⟩)
      with hw | ⟨sink, -, hw⟩
    · rw [hw] at ht
      cases ht
      have hknows : pass.Knows (s.since start ++ [r]) (meshName mesh) :=
        Or.inl ⟨r, List.mem_append_right _ List.mem_cons_self, hn⟩
      have hrefers : RefersOnly (pass.Knows (s.since start)) r := refersOnly_of_attrs (by simp [ha])
      have hcached : pass.Cached (s.since start ++ [r])
          (s.handOut ⟨scope.name, mesh, meshName mesh⟩) :=
        cached_handOut (h.cached.mono (List.subset_append_left _ _)) hknows
      refine ⟨h.send rfl rfl hrefers (hcached.congr rfl rfl rfl rfl rfl rfl), ?_⟩
      rwa [h.since_concat rfl]
    · rw [hw] at ht
      cases ht
  · rw [hnothing] at ht
    cases ht
    have hknows : pass.Knows (s.since start) (meshName mesh) :=
      Or.inr ⟨Or.inl hnothing, mesh, h.cached.mesh scope hs mesh hm, rfl⟩
    exact ⟨h.keep rfl rfl (cached_handOut h.cached hknows), hknows⟩

theorem sorted_writeGeometry (hg : pass.geometry.WritesEach ∨ pass.geometry.WritesNothing)
    (h : Sorted pass start s) :
    EndsSorted pass start (fun value t => ∀ v ∈ value, IsOwn (pass.Knows (t.since start)) v) s
      (pass.writeGeometry.runOn s) := by
  have hframe := frame_writeGeometry pass s
  have hcycle := neverCycles_writeGeometry pass s
  have hgrown : s.sent <+: (pass.writeGeometry.runOn s).2.sent := by
    obtain ⟨tried, -, hsent, -⟩ := hframe.appends
    exact ⟨tried, hsent.symm⟩
  have hown : ∀ mesh, isIdentifier (meshName mesh) = true := fun mesh =>
    isIdentifier_of_isInstanceName (meshName_fit mesh).1
  rcases hrun : pass.writeGeometry.runOn s with ⟨f | value, t⟩ <;> rw [hrun] at hcycle hgrown
  · refine ⟨hgrown, trivial, fun hc => ?_⟩
    rw [hcycle f rfl] at hc
    cases hc
  · rcases writeGeometry_ok hrun with ⟨rfl, line, rfl⟩ | ⟨scope, mesh, hs, hm, rfl, hcases⟩
    · exact ⟨h.note line, hgrown, fun v hv => by cases hv⟩
    · have hend : Sorted pass start t ∧ pass.Knows (t.since start) (meshName mesh) := by
        rcases hcases with ⟨hold, rfl⟩ | ⟨answer, rfl, hf, ht⟩
        · exact ⟨h, knows_oldMesh h hs hm hold⟩
        · exact sorted_handOut hg h hs hm hf ht
      refine ⟨hend.1, hgrown, fun v hv => ?_⟩
      cases hv
      exact ⟨hown mesh, hend.2⟩

/-! ### The walk -/

/-- Every step of the walk keeps a pass in post-order, and every value that flows through it
stands for what is written. -/
def sortedContract (hl : pass.toJob.Legible)
    (hg : pass.geometry.WritesEach ∨ pass.geometry.WritesNothing) (start : PassState) :
    Contract pass where
  Inv := Sorted pass start
  Rel s t := s.sent <+: t.sent
  Known tree node := node.Legible ∧ ∀ other ∈ tree.nodes.values, other.Legible
  Made s v := IsOwn (pass.Knows (s.since start)) v
  Val s v := IsWorth (pass.Knows (s.since start)) v
  Fit s r := RefersOnly (pass.Knows (s.since start)) r
  Fault _ := True
  refl _ := List.prefix_refl _
  trans h k := h.trans k
  val_of_made h := h.worth
  val_mono h hv := hv.mono (Sorted.knows_mono h)
  fault_cycle _ _ := trivial
  known_source hk hn := ⟨hk.2 _ (OrderedMap.mem_values_of_get? hn), hk.2⟩
  known_material _ hm _ _ hn := by
    obtain ⟨key, -, ht⟩ := Option.bind_eq_some_iff.mp hm
    have hnodes := hl.nodes _ (OrderedMap.mem_values_of_get? ht)
    exact ⟨hnodes _ hn, hnodes⟩
  known_object _ _ ht hn := by
    have hnodes := hl.nodes _ (OrderedMap.mem_values_of_get? ht)
    exact ⟨hnodes _ hn, hnodes⟩
  literal hk hs hv := hk.1.literals _ hs _ hv
  transform ho := ⟨hl.transforms _ (OrderedMap.mem_values_of_get? ho), by simp [Value.type]⟩
  objects h := h
  default h := h.worth_default
  node h hn := h.cached.node _ _ _ hn
  object h ho := h.cached.object _ _ ho
  override h ho := h.cached.override _ ho
  synthesized h hs := h.cached.synthesized _ _ hs
  select_own hk _ hv name := hv.selectOutput fun own ho => by
    obtain ⟨socket, hs, ha⟩ := Option.bind_eq_some_iff.mp ho
    exact hk.1.outputs socket (List.mem_of_find?_eq_some hs) own ha
  select_passed {s tree source v} hk hp hv name := by
    have hnone : (source.output? name).bind (·.attr) = none := by
      cases ho : source.output? name with
      | none => rfl
      | some socket => exact hk.1.passing hp socket (List.mem_of_find?_eq_some ho)
    rw [hnone, selectOutput_none]
    exact hv
  fit_plugin name _ hd hp hs :=
    refersOnly_plugin (hl.schema _ (OrderedMap.mem_values_of_get? hd))
      (fun attr v hv => by
        obtain ⟨tree, node, hk, hn⟩ := hp attr v hv
        exact hk.1.params _ (OrderedMap.mem_values_of_get? hn)) hs name
  fit_texture name hk h := refersOnly_layeredTexture (fun layer hm => by
    obtain ⟨hw, socket, hs, he⟩ := h layer hm
    refine ⟨hw, ?_⟩
    rw [he]
    exact reads_number (hk.1.isFinite_layerWeight fun own ho => by cases ho; exact hs)) name
  fit_weight name socket hk := refersOnly_weight (hk.1.isFinite_layerWeight fun own ho =>
    List.mem_of_find?_eq_some ho) name
  fit_brdf name additive h := refersOnly_layeredBrdf additive h name
  fit_multi name h := refersOnly_multiMaterial h name
  reported h _ := ⟨h.note _, List.prefix_refl _⟩
  emission h hb _ hn hf := sorted_claimAndEmit h hb hn hf
  geometry h := sorted_writeGeometry hg h
  synthesize _ _ _ _ hr h hv :=
    ⟨h.keep rfl rfl (h.cached.setSynthesized _ hv), hr, hv⟩
  hide h _ _ _ := ⟨h.keep rfl rfl (h.cached.setObject _ (fun _ he => by cases he) h.cached.mesh),
    List.prefix_refl _⟩
  mark key name h := h.keep rfl rfl (h.cached.setNode key name fun _ he => by cases he)
  finish _ _ _ hr h hv := ⟨h.keep rfl rfl (h.cached.setNode _ _ fun _ he => by cases he; exact hv),
    hr, hv⟩
  abandon _ _ hr := ⟨hr, fun h => h.keep rfl rfl (h.cached.abandonNode _ _)⟩
  enter {s name object} h ho := h.keep rfl rfl (h.cached.setObject name (fun _ he => by cases he)
    fun own he mesh hm => by
      cases he
      exact ⟨object, OrderedMap.mem_values_of_get? ho, hm⟩)
  leave hs _ _ _ hr h hv :=
    ⟨h.keep rfl rfl (h.cached.setObject _ (fun _ he => by cases he; exact hv _ rfl) hs.cached.mesh),
      hr, hv⟩
  quit hs _ _ _ hr := ⟨hr, fun _ h => h.keep rfl rfl (h.cached.abandonObject _ hs.cached.mesh)⟩

/-! ### Passes -/

/-- The default material is the first to be written, and refers to its shading model. -/
theorem sorted_writeDefaults {t : PassState}
    (h : pass.writeDefaults.runOn (pass.headed s) = (.ok (), t)) :
    Sorted pass (pass.headed s) t := by
  unfold Pass.writeDefaults at h
  rw [Compile.runOn_bind_ok (Compile.runOn_get _), if_neg (by exact nofun)] at h
  obtain ⟨_, u, hbrdf, h⟩ := Compile.of_runOn_bind_ok h
  obtain ⟨_, v, hmaterial, h⟩ := Compile.of_runOn_bind_ok h
  obtain rfl : v = t := (Prod.mk.inj h).2
  obtain rfl := emit_ok hbrdf
  obtain rfl := emit_ok hmaterial
  generalize hv : PassState.count _ _ = v
  have hsent : v.sent = s.sent ++ [defaultBrdfRecord] ++ [defaultMaterialRecord] := by
    rw [← hv]
    rfl
  have hsince : v.since (pass.headed s) = [] ++ [defaultBrdfRecord] ++ [defaultMaterialRecord] := by
    have hheaded : (pass.headed s).sent.length = s.sent.length := rfl
    rw [PassState.since, hsent, hheaded, List.append_assoc, List.drop_left]
    rfl
  have hknown : pass.Knows ([] ++ [defaultBrdfRecord]) defaultBrdf :=
    Or.inl ⟨_, List.mem_cons_self, rfl⟩
  refine ⟨⟨[defaultBrdfRecord, defaultMaterialRecord], ?_⟩, ?_, ?_, ?_, ?_⟩
  · rw [hsent, List.append_assoc]
    rfl
  · rw [hsince, ← hv]
    rfl
  · rw [hsince]
    exact (Pass.postOrdered_nil.concat refersOnly_defaultBrdf).concat
      (refersOnly_defaultMaterial hknown)
  · rw [hsince]
    exact ⟨defaultMaterialRecord, by simp, rfl⟩
  · subst hv
    exact ⟨nofun, nofun, nofun, nofun, nofun, nofun⟩

theorem sorted_run (hl : pass.toJob.Legible)
    (hg : pass.geometry.WritesEach ∨ pass.geometry.WritesNothing) {t : PassState}
    {summary : Summary} (h : pass.run.runOn s = (.ok summary, t)) :
    Sorted pass (pass.headed s) t := by
  let K := sortedContract hl hg (pass.headed s)
  have hc : K.Compiles pass.compiler := Contract.walk K trivial _
  have hoverride : K.Keeps (fun _ => True) pass.writeOverride fun _ _ => True :=
    Contract.keeps_writeOverride hc fun u token hu hv =>
      ⟨Sorted.keep hu rfl rfl
        { hu.cached with override := fun other ho => by cases ho; exact hv }, List.prefix_refl _⟩
  have hclosing : K.Keeps (fun _ => True) pass.closing fun _ _ => True :=
    fun u hu _ => ⟨Sorted.note hu _, List.prefix_refl _, trivial⟩
  have hrest := (hoverride.bind fun _ => Contract.keeps_items hc pass.items.length).bind
    fun _ => hclosing
  rw [Pass.run_runOn] at h
  unfold Pass.afterHead at h
  split at h
  · unfold Pass.body Pass.opening at h
    simp only [bind_assoc] at h hrest
    obtain ⟨_, u, hdefaults, h⟩ := Compile.of_runOn_bind_ok h
    have hends := hrest u (sorted_writeDefaults hdefaults) trivial
    rw [h] at hends
    exact hends.1
  · cases h

/-- **Records come behind the records they refer to.** If a pass over a legible job ends
well, each reference of a record that it wrote is the name of a record that it wrote
before, or, if the meshes are in a file of their own, the name of the mesh of an object.
The scene may have cycles, missing nodes, hidden objects, selectors that compile objects
in the middle of a tree, and a material that overrides all others. -/
theorem references_earlier (job : Job) (hl : job.Legible) (outside : Surroundings)
    (hg : outside.geometry.WritesEach ∨ outside.geometry.WritesNothing) (frame : Int32)
    (s : PassState) (summary : Summary)
    (hrun : ((job.exportFrame outside frame).runOn s).1 = .ok summary) :
    ∃ records : List Record,
      ((job.exportFrame outside frame).runOn s).2.sink =
        s.sink.writeAll (.remark (headerText job.scene.name frame) :: records.map Entry.record) ∧
      ∀ earlier r later, records = earlier ++ r :: later → ∀ name ∈ r.references,
        (∃ q ∈ earlier, q.name = name) ∨
          (outside.geometry.WritesNothing ∨ job.settings.autoMeshes = false) ∧
            ∃ mesh, job.scene.HasMesh mesh ∧ name = meshName mesh := by
  let pass : Pass := { toJob := job, toSurroundings := outside, frame := frame }
  have hpair : pass.run.runOn s = (.ok summary, (pass.run.runOn s).2) := Prod.ext hrun rfl
  have hsorted : Sorted pass (pass.headed s) (pass.run.runOn s).2 := sorted_run hl hg hpair
  exact ⟨_, hsorted.sink, hsorted.ordered⟩

theorem bare_writesEach : GeometryExporter.bare.WritesEach := fun _ _ _ => ⟨_, rfl, rfl, rfl⟩

theorem legible_colliding : (⟨collidingScene, Catalog.builtin, {}⟩ : Job).Legible where
  nodes _ ht := absurd ht List.not_mem_nil
  transforms := by decide
  schema := by decide

/-- The objects of this scene refer to the mesh that they share and to the default
material. -/
theorem references_earlier_colliding :
    let job : Job := ⟨collidingScene, Catalog.builtin, {}⟩
    job.Legible ∧ GeometryExporter.bare.WritesEach ∧
    ∃ summary, ((job.exportFrame { geometry := .bare } 1).runOn {}).1 = .ok summary ∧
    ∃ records : List Record,
      ((job.exportFrame { geometry := .bare } 1).runOn {}).2.sink =
        (Sink.records {}).writeAll
          (.remark (headerText job.scene.name 1) :: records.map Entry.record) ∧
      ∀ earlier r later, records = earlier ++ r :: later → ∀ name ∈ r.references,
        ∃ q ∈ earlier, q.name = name := by
  intro job
  have hcalm : (Pass.mk job { geometry := .bare } 1).Calm := ⟨fun _ => rfl, fun _ _ => rfl⟩
  have hring : job.scene.RingFree := fun _ _ hx => absurd hx List.not_mem_nil
  rcases calm_run hcalm (s := {}) rfl with ⟨summary, hok⟩ | ⟨-, hno⟩
  · refine ⟨legible_colliding, bare_writesEach, summary, hok, ?_⟩
    obtain ⟨records, hsink, hrefers⟩ := references_earlier job legible_colliding
      { geometry := .bare } (Or.inl bare_writesEach) 1 {} summary hok
    refine ⟨records, hsink, fun earlier r later he name hn => ?_⟩
    rcases hrefers earlier r later he name hn with hq | ⟨hnothing | hoff, -⟩
    · exact hq
    · exact absurd (hnothing [] ⟨"", "", ""⟩) (List.cons_ne_nil _ _)
    · exact absurd hoff (by decide)
  · exact absurd hring hno

end ShadeNet
