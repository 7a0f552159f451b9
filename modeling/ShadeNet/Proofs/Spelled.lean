/-
# No token is an empty text

A token is the name of a record, with the selector of an output behind it at most, or
that of the default material. So the tokens that a pass has at hand are never empty, and
an attribute that is given one is written.

Key definitions: `PassState.Alike`, `Resolved.Spelled`, `PassState.Spelled`,
`spelledContract`.
Key theorems: `alike_claimAndEmit`, `alike_writeGeometry`, `spelled_writeMaterialTree`.
-/
import ShadeNet.Proofs.Escape
import ShadeNet.Proofs.Naming

namespace ShadeNet

variable {α : Type} {pass : Pass} {s t u : PassState}

/-! ### Steps that enter nothing -/

/-- Nothing was entered and no scope was left in between: names were taken, meshes handed
out, records sent and things reported at most. -/
structure PassState.Alike (s t : PassState) : Prop where
  scope : t.scope = s.scope
  overrideToken : t.overrideToken = s.overrideToken
  nodes : t.ledger.nodes = s.ledger.nodes
  objects : t.ledger.objects = s.ledger.objects
  synthesized : t.ledger.synthesized = s.ledger.synthesized
  meshes : s.ledger.meshes ⊆ t.ledger.meshes
  appends : s.Appends t

namespace PassState.Alike

theorem refl (s : PassState) : s.Alike s :=
  ⟨rfl, rfl, rfl, rfl, rfl, List.Subset.refl _, .of_eq rfl rfl⟩

theorem trans (h : s.Alike t) (k : t.Alike u) : s.Alike u :=
  ⟨k.scope.trans h.scope, k.overrideToken.trans h.overrideToken, k.nodes.trans h.nodes,
    k.objects.trans h.objects, k.synthesized.trans h.synthesized,
    List.Subset.trans h.meshes k.meshes, appends_trans s t u h.appends k.appends⟩

theorem sent (h : s.Alike t) : s.sent <+: t.sent := by
  obtain ⟨tried, -, hsent, -⟩ := h.appends
  exact hsent ▸ List.prefix_append _ _

theorem node? (h : s.Alike t) (key name : String) :
    t.ledger.node? key name = s.ledger.node? key name := by
  unfold Ledger.node?
  rw [h.nodes]

theorem object? (h : s.Alike t) (name : String) :
    t.ledger.object? name = s.ledger.object? name := by
  unfold Ledger.object?
  rw [h.objects]

theorem synthesized? (h : s.Alike t) (key : String) :
    t.ledger.synthesized? key = s.ledger.synthesized? key := by
  unfold Ledger.synthesized?
  rw [h.synthesized]

end PassState.Alike

theorem alike_trans (s t u : PassState) (h : s.Alike t) (k : t.Alike u) : s.Alike u := h.trans k

theorem alike_note (s : PassState) (line : LogLine) : s.Alike (s.note line) :=
  { PassState.Alike.refl s with }

theorem alike_claim (s : PassState) (base : String) (reports : List LogLine) :
    s.Alike (s.claim base reports) := { PassState.Alike.refl s with }

theorem alike_count (s : PassState) (name : String) : s.Alike (s.count name) :=
  { PassState.Alike.refl s with }

theorem alike_handOut (s : PassState) (request : MeshRequest) : s.Alike (s.handOut request) :=
  { PassState.Alike.refl s with meshes := subset_addMember _ _ }

variable (pass)

theorem alike_writeRecord (r : Record) (s : PassState) :
    s.Alike ((pass.writeRecord r).runOn s).2 := by
  have happends := appends_writeRecord pass r s
  rcases writeRecord_cases pass r s with h | ⟨sink, -, h⟩ <;> rw [h] at happends ⊢ <;>
    exact { PassState.Alike.refl s with appends := happends }

theorem alike_comment (s : PassState) (text : String) : s.Alike (s.comment text) :=
  { PassState.Alike.refl s with appends := (s.frame_comment text).appends }

/-- What is written for a mesh enters nothing. -/
theorem alike_writeOut (entries : List Entry) (s : PassState) :
    s.Alike ((entries.forM pass.writeOut).runOn s).2 :=
  rel_writeOut PassState.Alike.refl alike_trans (fun r _ => alike_writeRecord pass r) alike_comment s

theorem alike_emit (r : Record) (s : PassState) : s.Alike ((pass.emit r).runOn s).2 :=
  emit_state (alike_writeRecord pass r s) fun t h => h.trans (alike_count t r.name)

theorem alike_claimAndEmit (base : String) (reports : List LogLine) (record : String → Record)
    (s : PassState) : s.Alike ((pass.claimAndEmit base reports record).runOn s).2 := by
  rw [claimAndEmit_runOn]
  exact (alike_claim s base reports).trans (alike_emit pass _ _)

theorem alike_writeGeometry (s : PassState) : s.Alike (pass.writeGeometry.runOn s).2 :=
  writeGeometry_state (.refl s) (alike_note s _) (fun _ => alike_note s _) fun _ _ _ _ _ =>
    (alike_handOut s _).trans (alike_writeOut pass _ _)

variable {pass} in
/-- The geometry of an object with a mesh is the instance name of the mesh; with automatic
meshes the mesh has been handed out by then. -/
theorem writeGeometry_meshed {scope : ObjectScope} {mesh : String} {value : Option Resolved}
    (hscope : s.scope = some scope) (hmesh : scope.mesh = some mesh)
    (h : pass.writeGeometry.runOn s = (.ok value, t)) :
    value = some (.reference (meshName mesh)) ∧
      (pass.settings.autoMeshes = true → meshName mesh ∈ t.ledger.meshes) := by
  rw [writeGeometry_runOn, hscope] at h
  simp only [hmesh] at h
  split at h
  · have hout := alike_writeOut pass
      (pass.geometry.answer s.meshes ⟨scope.name, mesh, meshName mesh⟩).entries
      (s.handOut ⟨scope.name, mesh, meshName mesh⟩)
    generalize Compile.runOn _ _ = o at h hout
    rcases o with ⟨_ | _, u⟩
    · cases h
    · unfold geometryEnd at h
      cases hf : (pass.geometry.answer s.meshes ⟨scope.name, mesh, meshName mesh⟩).failure <;>
        rw [hf] at h <;> cases h
      exact ⟨rfl, fun _ => hout.meshes (mem_addMember.mpr (Or.inr rfl))⟩
  · rename_i hold
    cases h
    exact ⟨rfl, fun hauto => by simpa [Ledger.hasMesh, hauto] using hold⟩

theorem alike_writeDefaults (s : PassState) : s.Alike (pass.writeDefaults.runOn s).2 :=
  rel_writeDefaults .refl alike_trans (alike_emit pass _) (alike_emit pass _) s

variable {pass}

/-! ### Tokens -/

/-- A value that is no reference to an empty name. -/
def Resolved.Spelled (v : Resolved) : Prop := ∀ token, v = .reference token → token ≠ ""

theorem spelled_reference {token : String} : (Resolved.reference token).Spelled ↔ token ≠ "" :=
  ⟨fun h => h token rfl, fun h _ he => by cases he; exact h⟩

theorem Resolved.Spelled.selectOutput {v : Resolved} (h : v.Spelled) (source : Node)
    (attr : Option String) : (selectOutput source attr v).Spelled := by
  cases v with
  | reference token =>
    have htoken : token ≠ "" := h token rfl
    unfold ShadeNet.selectOutput
    cases attr with
    | none => exact h
    | some attr =>
      simp only
      split
      · exact h
      · exact spelled_reference.mpr fun hempty => htoken (String.append_eq_empty_iff.mp hempty).1
  | literal => exact h
  | objects => exact h

theorem ne_empty_of_isInstanceName {name : String} (h : isInstanceName name = true) :
    name ≠ "" := by
  rintro rfl
  cases h

/-- The tokens that a pass has at hand are not empty. -/
structure PassState.Spelled (s : PassState) : Prop where
  override : ∀ token, s.overrideToken = some token → token ≠ ""
  node : ∀ key name v, s.ledger.node? key name = some (.done v) → v.Spelled
  object : ∀ name token, s.ledger.object? name = some (.done (some token)) → token ≠ ""
  synthesized : ∀ key token, s.ledger.synthesized? key = some token → token ≠ ""

namespace PassState.Spelled

theorem congr (h : s.Spelled) (ha : s.Alike t) : t.Spelled where
  override := ha.overrideToken ▸ h.override
  node key name := ha.node? key name ▸ h.node key name
  object name := ha.object? name ▸ h.object name
  synthesized key := ha.synthesized? key ▸ h.synthesized key

theorem setNode (h : s.Spelled) (key name : String) {progress : Progress Resolved}
    (hp : ∀ v, progress = .done v → v.Spelled) :
    PassState.Spelled { s with ledger := s.ledger.setNode key name progress } :=
  { h with
    node := fun k n v hv => by
      rw [Ledger.node?_setNode] at hv
      split at hv
      · exact hp v (Option.some.inj hv)
      · exact h.node k n v hv }

theorem abandonNode (h : s.Spelled) (key name : String) :
    PassState.Spelled { s with ledger := s.ledger.abandonNode key name } :=
  { h with
    node := fun k n v hv => by
      rw [Ledger.node?_abandonNode] at hv
      split at hv
      · cases hv
      · exact h.node k n v hv }

theorem setObject (h : s.Spelled) (name : String) {progress : Progress (Option String)}
    (scope : Option ObjectScope) (hp : ∀ token, progress = .done (some token) → token ≠ "") :
    PassState.Spelled { s with ledger := s.ledger.setObject name progress, scope := scope } :=
  { h with
    object := fun n token ht => by
      rw [Ledger.object?_setObject] at ht
      split at ht
      · exact hp token (Option.some.inj ht)
      · exact h.object n token ht }

theorem abandonObject (h : s.Spelled) (name : String) (scope : Option ObjectScope) :
    PassState.Spelled { s with ledger := s.ledger.abandonObject name, scope := scope } :=
  { h with
    object := fun n token ht => by
      rw [Ledger.object?_abandonObject] at ht
      split at ht
      · cases ht
      · exact h.object n token ht }

theorem setSynthesized (h : s.Spelled) (key : String) {token : String} (ht : token ≠ "") :
    PassState.Spelled { s with ledger := s.ledger.setSynthesized key token } :=
  { h with
    synthesized := fun k other hk => by
      rw [Ledger.synthesized?_setSynthesized] at hk
      split at hk
      · cases hk
        exact ht
      · exact h.synthesized k other hk }

end PassState.Spelled

/-- A step that writes a record ends with its name, or with a failure that is no cycle. -/
theorem ends_claimAndEmit {Inv : PassState → Prop} {Rel : PassState → PassState → Prop}
    {Fault : Failure → Prop} {Q : String → PassState → Prop} {base : String}
    {reports : List LogLine} {record : String → Record} (hb : OwnBase base)
    (hn : ∀ name, (record name).name = name)
    (hinv : Inv ((pass.claimAndEmit base reports record).runOn s).2)
    (hrel : Rel s ((pass.claimAndEmit base reports record).runOn s).2)
    (hfault : Fault .sinkFull)
    (hq : ∀ name t, isInstanceName name = true → Q name t) :
    Ends Inv Rel Fault Q s ((pass.claimAndEmit base reports record).runOn s) := by
  rcases ho : (pass.claimAndEmit base reports record).runOn s with ⟨f | token, t⟩ <;>
    rw [ho] at hinv hrel <;> rw [claimAndEmit_runOn] at ho
  · rw [emit_error ho]
    exact ⟨hrel, hfault, fun hc => by cases hc⟩
  · refine ⟨hinv, hrel, hq token t ?_⟩
    rw [emit_token ho, hn]
    exact isInstanceName_freeName hb.fit.1 _

/-- The geometry of an object ends with the name of its mesh, or with none, or with a
failure that is no cycle. -/
theorem ends_writeGeometry {Inv : PassState → Prop} {Rel : PassState → PassState → Prop}
    {Fault : Failure → Prop} {Q : Option Resolved → PassState → Prop}
    (hinv : Inv (pass.writeGeometry.runOn s).2) (hrel : Rel s (pass.writeGeometry.runOn s).2)
    (hfault : ∀ message, Fault (.io message)) (hnone : ∀ t, Q none t)
    (hq : ∀ mesh t, Q (some (.reference (meshName mesh))) t) :
    Ends Inv Rel Fault Q s (pass.writeGeometry.runOn s) := by
  rcases ho : pass.writeGeometry.runOn s with ⟨f | value, t⟩ <;> rw [ho] at hinv hrel
  · obtain ⟨message, rfl⟩ := writeGeometry_error ho
    exact ⟨hrel, hfault message, fun hc => by cases hc⟩
  · refine ⟨hinv, hrel, ?_⟩
    rcases writeGeometry_ok ho with ⟨rfl, -⟩ | ⟨scope, mesh, -, -, rfl, -⟩
    · exact hnone t
    · exact hq mesh t

/-- Every step of the walk keeps tokens from being empty. -/
def spelledContract (pass : Pass) : Contract pass where
  Inv := PassState.Spelled
  Rel _ _ := True
  Known _ _ := True
  Made _ v := v.Spelled
  Val _ v := v.Spelled
  Fit _ _ := True
  Fault _ := True
  refl _ := trivial
  trans _ _ := trivial
  val_of_made h := h
  val_mono _ h := h
  fault_cycle _ _ := trivial
  known_source _ _ := trivial
  known_material _ _ _ _ _ := trivial
  known_object _ _ _ _ := trivial
  literal _ _ _ := nofun
  transform _ := nofun
  objects _ := nofun
  default _ := spelled_reference.mpr (by decide)
  node h hn := h.node _ _ _ hn
  object h ho := spelled_reference.mpr (h.object _ _ ho)
  override h ho := spelled_reference.mpr (h.override _ ho)
  synthesized h hs := spelled_reference.mpr (h.synthesized _ _ hs)
  select_own _ _ h _ := h.selectOutput _ _
  select_passed _ _ h _ := h.selectOutput _ _
  fit_plugin _ _ _ _ _ := trivial
  fit_texture _ _ _ := trivial
  fit_weight _ _ _ := trivial
  fit_brdf _ _ _ := trivial
  fit_multi _ _ := trivial
  reported h _ := ⟨h.congr (alike_note _ _), trivial⟩
  emission {s base reports record} h hb _ hn _ :=
    ends_claimAndEmit hb hn (h.congr (alike_claimAndEmit pass base reports record s))
      trivial trivial fun _ _ hname => spelled_reference.mpr (ne_empty_of_isInstanceName hname)
  geometry {s} h :=
    ends_writeGeometry (h.congr (alike_writeGeometry pass s)) trivial (fun _ => trivial)
      (fun _ => nofun) fun mesh _ v hv => by
        cases hv
        exact spelled_reference.mpr (ne_empty_of_isInstanceName (meshName_fit mesh).1)
  synthesize _ _ _ _ _ h hv :=
    ⟨h.setSynthesized _ (spelled_reference.mp hv), trivial, hv⟩
  hide {s name object} h _ _ _ := ⟨h.setObject name s.scope nofun, trivial⟩
  mark key name h := h.setNode key name nofun
  finish _ _ _ _ h hv := ⟨h.setNode _ _ fun _ he => by cases he; exact hv, trivial, hv⟩
  abandon _ _ _ := ⟨trivial, fun h => h.abandonNode _ _⟩
  enter {s name object} h _ := h.setObject name _ nofun
  leave {s t name object compile token} _ _ _ _ _ h hv :=
    ⟨h.setObject name s.scope fun _ he => by cases he; exact spelled_reference.mp (hv _ rfl),
      trivial, hv⟩
  quit {s t name object compile failure} _ _ _ _ _ :=
    ⟨trivial, fun _ h => h.abandonObject name s.scope⟩

/-- The material of a tree has a token that is not empty. -/
theorem spelled_writeMaterialTree {tree : NodeTree} {token : String} (hs : s.Spelled)
    (h : (writeMaterialTree pass.compiler tree).runOn s = (.ok token, t)) : token ≠ "" := by
  have hc : (spelledContract pass).Compiles pass.compiler := Contract.walk _ trivial _
  have hmeets : (spelledContract pass).Meets tree := fun _ _ _ _ _ _ _ => trivial
  have hends := Contract.keeps_writeMaterialTree hc hmeets s hs trivial
  rw [h] at hends
  exact spelled_reference.mp hends.2.2

end ShadeNet
