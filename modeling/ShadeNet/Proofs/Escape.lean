/-
# What ends a pass

A cycle is thrown where a node or an object needs itself, and it is caught where the
tree of a material or an object ends. So it never leaves a material, an object or a
pass. What is left to end a pass is the sink, the geometry exporter and, in a scene
with a ring, the bound of the walk.

Key definitions: `Composes`, `Pass.Parts`, `NeverCycles`, `Pass.Calm`, `calmGuard`,
`EndsWell`.
Key theorems: `Pass.Parts.body`, `neverCycles_writeMaterialTree`,
`neverCycles_writeObject`, `neverCycles_run`, `calm_run`.
-/
import ShadeNet.Proofs.Depth

namespace ShadeNet

variable {α β : Type}

/-! ### Failures of single steps -/

theorem writeRecord_error {pass : Pass} {r : Record} {s t : PassState} {f : Failure}
    (h : (pass.writeRecord r).runOn s = (.error f, t)) : f = .sinkFull := by
  rcases writeRecord_cases pass r s with hw | ⟨sink, -, hw⟩
  · rw [hw] at h
    cases h
  · rw [hw] at h
    cases h
    rfl

theorem emit_error {pass : Pass} {r : Record} {s t : PassState} {f : Failure}
    (h : (pass.emit r).runOn s = (.error f, t)) : f = .sinkFull := by
  rcases hw : (pass.writeRecord r).runOn s with ⟨f' | _, u⟩
  · rw [emit_runOn_error hw] at h
    cases h
    exact writeRecord_error hw
  · rw [emit_runOn_ok hw] at h
    cases h

theorem writeRemark_error {text : String} {s t : PassState} {f : Failure}
    (h : (writeRemark text).runOn s = (.error f, t)) : f = .sinkFull := by
  rw [writeRemark_runOn] at h
  split at h
  · cases h
  · cases h
    rfl

theorem writeOut_error {pass : Pass} {entries : List Entry} {s t : PassState} {f : Failure}
    (h : (entries.forM pass.writeOut).runOn s = (.error f, t)) : f = .sinkFull := by
  induction entries generalizing s with
  | nil => cases h
  | cons e rest ih =>
    rcases hw : (pass.writeOut e).runOn s with ⟨f' | _, u⟩
    · have h' : (.error f', u) = ((.error f, t) : Except Failure Unit × PassState) :=
        (Compile.runOn_bind_error hw _).symm.trans h
      cases h'
      cases e with
      | record r => exact writeRecord_error hw
      | remark text => exact writeRemark_error hw
    · exact ih ((Compile.runOn_bind_ok hw fun _ => rest.forM pass.writeOut).symm.trans h)

/-- The geometry of an object fails at the sink or in the geometry exporter. -/
theorem writeGeometry_error {pass : Pass} {s t : PassState} {f : Failure}
    (h : pass.writeGeometry.runOn s = (.error f, t)) : ∃ message, f = .io message := by
  rw [writeGeometry_runOn] at h
  rcases hs : s.scope with _ | scope <;> rw [hs] at h
  · cases h
  simp only at h
  rcases hm : scope.mesh with _ | mesh <;> rw [hm] at h
  · cases h
  simp only at h
  split at h
  · generalize hrun : Compile.runOn _ _ = o at h
    rcases o with ⟨e | _, u⟩
    · cases h
      exact ⟨_, writeOut_error hrun⟩
    · unfold geometryEnd at h
      cases hf : (pass.geometry.answer s.meshes ⟨scope.name, mesh, meshName mesh⟩).failure <;>
        rw [hf] at h <;> cases h
      exact ⟨_, rfl⟩
  · cases h

/-! ### Properties of steps put together -/

/-- A property that steps have if they are put together from steps that have it. -/
structure Composes (P : ∀ {α : Type}, Compile α → Prop) : Prop where
  pure : ∀ {α : Type} (a : α), P (pure a : Compile α)
  bind : ∀ {α β : Type} {c : Compile α} {g : α → Compile β}, P c → (∀ a, P (g a)) → P (c >>= g)

section Composed

variable {P : ∀ {α : Type}, Compile α → Prop}

theorem Composes.forM (hP : Composes P) {g : α → Compile Unit} {l : List α}
    (h : ∀ a ∈ l, P (g a)) : P (l.forM g) := by
  induction l with
  | nil => exact hP.pure _
  | cons a rest ih =>
    exact hP.bind (h a List.mem_cons_self) fun _ => ih fun b hb => h b (List.mem_cons_of_mem a hb)

theorem Composes.collect (hP : Composes P) {g : α → Compile (Option β)} {l : List α}
    (h : ∀ a ∈ l, P (g a)) : P (ShadeNet.collect g l) := by
  induction l with
  | nil => exact hP.pure _
  | cons a rest ih =>
    refine hP.bind (h a List.mem_cons_self) fun _ => ?_
    exact hP.bind (ih fun b hb => h b (List.mem_cons_of_mem a hb)) fun _ => hP.pure _

/-- The parts of a pass have a property. -/
structure Pass.Parts (pass : Pass) (P : ∀ {α : Type}, Compile α → Prop) : Prop where
  composes : Composes P
  get : P (get : Compile PassState)
  report : ∀ line, P (report line)
  override : ∀ token, P (modify fun s : PassState => { s with overrideToken := some token })
  emit : ∀ r, P (pass.emit r)
  material : ∀ {material tree}, pass.scene.materialTree? material = some tree →
    P (writeMaterialTree pass.compiler tree)
  object : ∀ name, P (pass.writeObject pass.compiler name)

theorem Pass.Parts.item {pass : Pass} (h : pass.Parts P) {item : Compile Unit}
    (hi : item ∈ pass.items) : P item := by
  rcases List.mem_append.mp hi with hi | hi
  · obtain ⟨material, -, rfl⟩ := List.mem_map.mp hi
    unfold Pass.writeMaterial
    split
    · exact h.composes.pure _
    · rename_i tree hm
      exact h.composes.bind (h.material hm) fun _ => h.composes.pure _
  · obtain ⟨object, -, rfl⟩ := List.mem_map.mp hi
    exact h.composes.bind (h.object object) fun _ => h.composes.pure _

/-- What the parts of a pass have, all that it does behind its head has. -/
theorem Pass.Parts.body {pass : Pass} (h : pass.Parts P) (index : Nat) : P (pass.body index) := by
  have hdefaults : P pass.writeDefaults := by
    unfold Pass.writeDefaults
    refine h.composes.bind h.get fun s => ?_
    split
    · exact h.composes.pure _
    · exact h.composes.bind (h.emit _) fun _ => h.composes.bind (h.emit _) fun _ =>
        h.composes.pure _
  have hoverride : P pass.writeOverride := by
    unfold Pass.writeOverride
    split
    · exact h.composes.pure _
    · split
      · exact h.report _
      · rename_i tree hm
        exact h.composes.bind (h.material hm) fun _ => h.composes.bind (h.report _) fun _ =>
          h.override _
  exact h.composes.bind (h.composes.bind hdefaults fun _ => hoverride) fun _ =>
    h.composes.forM fun item hi => h.item (List.mem_of_mem_take hi)

end Composed

/-! ### Steps that throw no cycle -/

/-- A result that is no cycle. -/
def Except.NoCycle (r : Except Failure α) : Prop := ∀ f, r = .error f → f.isCycle = false

/-- A step that does not end with a cycle. -/
def NeverCycles (c : Compile α) : Prop := ∀ s, Except.NoCycle (c.runOn s).1

theorem noCycle_ok (a : α) : Except.NoCycle (.ok a) := fun _ h => by cases h

theorem noCycle_io (message : String) : Except.NoCycle (.error (.io message) : Except Failure α) :=
  fun _ h => by cases h; rfl

theorem neverCycles_pure (a : α) : NeverCycles (pure a) := fun _ => noCycle_ok a

theorem NeverCycles.bind {c : Compile α} {g : α → Compile β} (hc : NeverCycles c)
    (hg : ∀ a, NeverCycles (g a)) : NeverCycles (c >>= g) := by
  intro s
  have hc := hc s
  rw [Compile.runOn_bind]
  generalize c.runOn s = o at hc ⊢
  rcases o with ⟨e | a, t⟩
  · exact fun f h => hc f (by cases h; rfl)
  · exact hg a t

theorem neverCycles_get : NeverCycles get := fun _ => noCycle_ok _

theorem neverCycles_report (line : LogLine) : NeverCycles (report line) := fun _ => noCycle_ok _

theorem neverCycles_modifyLedger (g : Ledger → Ledger) : NeverCycles (modifyLedger g) :=
  fun _ => noCycle_ok _

theorem neverCycles_claimName (base : String) : NeverCycles (claimName base) := fun _ => noCycle_ok _

theorem neverCycles_attempt (c : Compile α) : NeverCycles (attempt c) := fun _ => noCycle_ok _

theorem neverCycles_throw {f : Failure} (h : f.isCycle = false) : NeverCycles (throw f : Compile α) :=
  fun _ _ hf => by cases hf; exact h

theorem neverCycles_emit (pass : Pass) (r : Record) : NeverCycles (pass.emit r) := by
  intro s
  rcases hw : (pass.emit r).runOn s with ⟨f | _, t⟩
  · rw [emit_error hw]
    exact noCycle_io _
  · exact noCycle_ok _

theorem composes_neverCycles : Composes NeverCycles := ⟨neverCycles_pure, NeverCycles.bind⟩

/-! ### Materials and objects -/

/-- A material is given the default material where its tree needs itself. -/
theorem neverCycles_materialToken (tree : NodeTree) (r : Except Failure (Option Resolved)) :
    NeverCycles (materialToken tree r) := by
  unfold materialToken
  split
  · exact neverCycles_pure _
  · exact (neverCycles_report _).bind fun _ => neverCycles_pure _
  · exact (neverCycles_report _).bind fun _ => neverCycles_pure _
  · rename_i f hf
    refine neverCycles_throw ?_
    cases f with
    | cycle name node => exact absurd rfl (hf name node)
    | io message => rfl
    | depthExceeded => rfl

theorem neverCycles_writeMaterialTree (compile : NodeCompiler) (tree : NodeTree) :
    NeverCycles (writeMaterialTree compile tree) := by
  unfold writeMaterialTree
  split
  · exact (neverCycles_report _).bind fun _ => neverCycles_pure _
  · refine neverCycles_get.bind fun s => ?_
    split
    · exact neverCycles_pure _
    · split
      · exact (neverCycles_attempt _).bind fun r => neverCycles_materialToken tree r
      · exact (neverCycles_report _).bind fun _ => neverCycles_pure _

/-- An object is skipped where its tree needs itself. -/
theorem neverCycles_objectToken (r : Except Failure (Option Resolved)) :
    NeverCycles (objectToken r) := by
  unfold objectToken
  split
  · exact neverCycles_pure _
  · exact (neverCycles_report _).bind fun _ => neverCycles_pure _
  · rename_i f hf
    refine neverCycles_throw ?_
    cases f with
    | cycle name node => exact absurd rfl (hf name node)
    | io message => rfl
    | depthExceeded => rfl

theorem neverCycles_writeObjectTree (compile : NodeCompiler) (tree : NodeTree) :
    NeverCycles (writeObjectTree compile tree) := by
  unfold writeObjectTree
  split
  · exact (neverCycles_report _).bind fun _ => neverCycles_pure _
  · exact (neverCycles_attempt _).bind fun r => neverCycles_objectToken r

variable (pass : Pass) (compile : NodeCompiler)

theorem neverCycles_writeGeometry : NeverCycles pass.writeGeometry := by
  intro s
  rcases hg : pass.writeGeometry.runOn s with ⟨f | value, t⟩
  · obtain ⟨message, rfl⟩ := writeGeometry_error hg
    exact noCycle_io message
  · exact noCycle_ok value

theorem neverCycles_writeObjectMaterial : NeverCycles (pass.writeObjectMaterial compile) := by
  unfold Pass.writeObjectMaterial
  refine neverCycles_get.bind fun s => ?_
  split
  · exact (neverCycles_report _).bind fun _ => neverCycles_pure _
  · split
    · exact neverCycles_pure _
    · simp only
      split
      · exact neverCycles_pure _
      · refine NeverCycles.bind (composes_neverCycles.collect fun slot _ => ?_) fun materials => ?_
        · unfold Pass.slotMaterial
          split
          · exact neverCycles_pure _
          · exact (neverCycles_writeMaterialTree _ _).bind fun _ => neverCycles_pure _
        · refine NeverCycles.bind ?_ fun token =>
            (neverCycles_modifyLedger _).bind fun _ => neverCycles_pure _
          unfold Pass.combineMaterials
          split
          · exact neverCycles_pure _
          · exact neverCycles_pure _
          · exact (neverCycles_claimName _).bind fun _ => neverCycles_emit _ _

theorem neverCycles_writePlugin (desc : PluginDesc) (name : String)
    (params : OrderedMap String Value) (supplied : OrderedMap String Resolved) :
    NeverCycles (pass.writePlugin desc name params supplied) := by
  unfold Pass.writePlugin
  exact (composes_neverCycles.forM fun line _ => neverCycles_report line).bind fun _ =>
    neverCycles_emit _ _

theorem neverCycles_buildObject (name : String) (object : SceneObject) :
    NeverCycles (pass.buildObject compile name object) := by
  unfold Pass.buildObject
  split
  · unfold Pass.writePlainObject
    split
    · exact (neverCycles_report _).bind fun _ => neverCycles_pure _
    · refine (neverCycles_writeGeometry pass).bind fun geometry => ?_
      split
      · exact neverCycles_pure _
      · refine (neverCycles_writeObjectMaterial pass compile).bind fun material => ?_
        refine (neverCycles_claimName _).bind fun instanceName => ?_
        exact (neverCycles_writePlugin pass _ _ _ _).bind fun _ => neverCycles_pure _
  · split
    · exact neverCycles_writeObjectTree _ _
    · exact (neverCycles_report _).bind fun _ => neverCycles_pure _

theorem neverCycles_writeObject (name : String) : NeverCycles (pass.writeObject compile name) := by
  intro s
  rw [writeObject_runOn]
  rcases s.ledger.object? name with _ | _ | token
  · simp only
    rcases pass.scene.object? name with _ | object
    · exact noCycle_ok _
    simp only
    split
    · have hb := neverCycles_buildObject pass compile name object (s.enter name object)
      generalize Compile.runOn _ _ = o at hb ⊢
      rcases o with ⟨e | token, t⟩
      · exact fun f h => hb f (by cases h; rfl)
      · exact noCycle_ok _
    · exact noCycle_ok _
  · exact noCycle_ok _
  · exact noCycle_ok _

/-! ### Passes -/

theorem parts_neverCycles : pass.Parts NeverCycles where
  composes := composes_neverCycles
  get := neverCycles_get
  report := neverCycles_report
  override _ _ := noCycle_ok _
  emit := neverCycles_emit pass
  material _ := neverCycles_writeMaterialTree _ _
  object := neverCycles_writeObject pass _

/-- No cycle leaves a pass. -/
theorem neverCycles_run : NeverCycles pass.run := by
  intro s
  rw [Pass.run_runOn]
  unfold Pass.afterHead
  split
  · have hclosing : NeverCycles pass.closing := fun _ => noCycle_ok _
    exact ((parts_neverCycles pass).body _).bind (fun _ => hclosing) _
  · exact noCycle_io _

/-! ### Calm passes -/

/-- A destination that takes every record. -/
def Pass.Accepts : Prop := ∀ index, pass.refuses index = false

/-- Nothing goes wrong outside: no record is refused and no mesh fails. -/
structure Pass.Calm : Prop where
  accepts : pass.Accepts
  succeeds : ∀ earlier request, (pass.geometry.answer earlier request).failure = none

variable {pass}

namespace Pass.Accepts

theorem writeRecord_runOn (h : pass.Accepts) (r : Record) {s : PassState}
    (hs : s.sink.unlimited = true) : (pass.writeRecord r).runOn s = (.ok (), s.receive r) := by
  rw [ShadeNet.writeRecord_runOn, if_neg (by rw [h]; decide),
    if_pos (Sink.write_of_unlimited hs _).1]

theorem emit_runOn (h : pass.Accepts) (r : Record) {s : PassState} (hs : s.sink.unlimited = true) :
    (pass.emit r).runOn s = (.ok r.name, (s.receive r).count r.name) :=
  emit_runOn_ok (h.writeRecord_runOn r hs)

theorem claimAndEmit_runOn (h : pass.Accepts) (base : String) (reports : List LogLine)
    (record : String → Record) {s : PassState} (hs : s.sink.unlimited = true) :
    (pass.claimAndEmit base reports record).runOn s =
      (.ok (record (freeName s.ledger.names base)).name,
        ((s.claim base reports).receive (record (freeName s.ledger.names base))).count
          (record (freeName s.ledger.names base)).name) := by
  rw [ShadeNet.claimAndEmit_runOn, h.emit_runOn _ (s := s.claim base reports) hs]

end Pass.Accepts

namespace Pass.Calm

theorem writeOut_ok (h : pass.Calm) (entries : List Entry) {s : PassState}
    (hs : s.sink.unlimited = true) : ∃ t, (entries.forM pass.writeOut).runOn s = (.ok (), t) := by
  induction entries generalizing s with
  | nil => exact ⟨s, rfl⟩
  | cons e rest ih =>
    obtain ⟨u, hu, hroom⟩ :
        ∃ u, (pass.writeOut e).runOn s = (.ok (), u) ∧ u.sink.unlimited = true := by
      have hwrite := Sink.write_of_unlimited hs e
      cases e with
      | record r => exact ⟨_, h.accepts.writeRecord_runOn r hs, hwrite.2⟩
      | remark text =>
        refine ⟨s.comment text, ?_, hwrite.2⟩
        rw [Pass.writeOut_remark, writeRemark_runOn, if_pos hwrite.1]
    obtain ⟨t, ht⟩ := ih hroom
    refine ⟨t, ?_⟩
    rw [← ht]
    exact Compile.runOn_bind_ok hu _

theorem writeGeometry_ok (h : pass.Calm) {s : PassState} (hs : s.sink.unlimited = true) :
    ∃ value t, pass.writeGeometry.runOn s = (.ok value, t) := by
  rw [writeGeometry_runOn]
  rcases s.scope with _ | scope
  · exact ⟨_, _, rfl⟩
  simp only
  rcases scope.mesh with _ | mesh
  · exact ⟨_, _, rfl⟩
  simp only
  split
  · obtain ⟨t, ht⟩ := h.writeOut_ok
      (pass.geometry.answer s.meshes ⟨scope.name, mesh, meshName mesh⟩).entries
      (s := s.handOut ⟨scope.name, mesh, meshName mesh⟩) hs
    rw [ht, h.succeeds]
    exact ⟨_, _, rfl⟩
  · exact ⟨_, _, rfl⟩

end Pass.Calm

variable {Fault : Failure → Prop}

/-- In a calm pass nothing is thrown but cycles and what else the walk throws. -/
def calmGuard (h : pass.Calm) (Fault : Failure → Prop) : Guard (frameComparison pass) where
  Inv s := s.sink.unlimited = true
  Known _ _ := True
  Fault f := f.isCycle = true ∨ Fault f
  lasts {s t} hr hs := by
    obtain ⟨tried, arrived, -, -, hsink⟩ := hr.appends
    rw [hsink]
    exact Sink.unlimited_writeAll hs _
  mark _ _ hs := hs
  enter hs _ := hs
  known_source _ _ := trivial
  known_tree _ _ := trivial
  fault_cycle _ _ := Or.inl rfl
  fault_emission {s t f base reports record} hs he := by
    rw [h.accepts.claimAndEmit_runOn _ _ _ hs] at he
    cases he
  fault_geometry hs he := by
    obtain ⟨value, t, ht⟩ := h.writeGeometry_ok hs
    rw [ht] at he
    cases he

/-- A step that, in a state whose sink has no limit, ends well or with one of some
failures. -/
def EndsWell (Fault : Failure → Prop) (c : Compile α) : Prop :=
  ∀ s : PassState, s.sink.unlimited = true → match c.runOn s with
    | (.ok _, t) => t.sink.unlimited = true
    | (.error f, _) => Fault f

theorem endsWell_pure (a : α) : EndsWell Fault (pure a) := fun _ hs => hs

theorem EndsWell.bind {c : Compile α} {g : α → Compile β} (hc : EndsWell Fault c)
    (hg : ∀ a, EndsWell Fault (g a)) : EndsWell Fault (c >>= g) := by
  intro s hs
  have hc := hc s hs
  rw [Compile.runOn_bind]
  generalize c.runOn s = o at hc ⊢
  rcases o with ⟨f | a, t⟩
  · exact hc
  · exact hg a t hc

theorem composes_endsWell : Composes (EndsWell Fault) := ⟨endsWell_pure, EndsWell.bind⟩

/-- What never ends with a cycle ends with another failure if with any. -/
theorem EndsWell.of_ends (hcalm : pass.Calm) {c : Compile α} (hn : NeverCycles c)
    (he : ∀ s, (calmGuard hcalm Fault).Inv s →
      Ends (calmGuard hcalm Fault).Inv PassState.Frame (calmGuard hcalm Fault).Fault
        (fun _ _ => True) s (c.runOn s)) : EndsWell Fault c := by
  intro s hs
  have he := he s hs
  have hn := hn s
  generalize c.runOn s = o at he hn ⊢
  rcases o with ⟨f | a, t⟩
  · have hf : f.isCycle = true ∨ Fault f := he.2.1
    rw [hn f rfl] at hf
    simpa using hf
  · exact he.1

/-- The parts of a calm pass end well if its materials and objects do. -/
theorem parts_endsWell (hcalm : pass.Calm)
    (hm : ∀ {material tree}, pass.scene.materialTree? material = some tree →
      EndsWell Fault (writeMaterialTree pass.compiler tree))
    (ho : ∀ name, EndsWell Fault (pass.writeObject pass.compiler name)) :
    pass.Parts (EndsWell Fault) where
  composes := composes_endsWell
  get _ hs := hs
  report _ _ hs := hs
  override _ _ hs := hs
  emit r s hs := by
    rw [hcalm.accepts.emit_runOn r hs]
    exact (Sink.write_of_unlimited hs _).2
  material := hm
  object := ho

/-- Where there is no ring, they give a result. -/
theorem endsWell_of_ringFree (hcalm : pass.Calm) (hring : pass.scene.RingFree) :
    pass.Parts (EndsWell fun _ => False) :=
  parts_endsWell hcalm
    (fun hm => .of_ends hcalm (neverCycles_writeMaterialTree _ _) fun _ hs =>
      Guard.ends_writeMaterialTree (G := calmGuard hcalm _) hring hm hs)
    fun name => .of_ends hcalm (neverCycles_writeObject _ _ _) fun _ hs =>
      Guard.ends_writeObject (G := calmGuard hcalm _) hring name hs

theorem compiles_of_calm (hcalm : pass.Calm) :
    (calmGuard hcalm (· = .depthExceeded)).contract.Compiles pass.compiler :=
  Contract.walk _ (Or.inr rfl) _

/-- In any scene they give a result unless the walk is too deep. -/
theorem endsWell_of_calm (hcalm : pass.Calm) : pass.Parts (EndsWell (· = .depthExceeded)) :=
  parts_endsWell hcalm
    (fun _ => .of_ends hcalm (neverCycles_writeMaterialTree _ _) fun _ hs =>
      (Contract.keeps_writeMaterialTree (compiles_of_calm hcalm)
        fun _ _ _ _ _ _ _ => trivial).imp
        (fun _ h => h) (fun _ _ _ => trivial) _ hs trivial)
    fun name => .of_ends hcalm (neverCycles_writeObject _ _ _) fun _ hs =>
      (Contract.keeps_writeObject (compiles_of_calm hcalm) name).imp
        (fun _ h => h) (fun _ _ _ => trivial) _ hs trivial

theorem endsWell_run (h : pass.Parts (EndsWell Fault)) : EndsWell Fault pass.run := by
  intro s hs
  have hhead := Sink.write_of_unlimited hs pass.header
  have hclosing : EndsWell Fault pass.closing := fun _ hs => hs
  rw [Pass.run_runOn]
  unfold Pass.afterHead
  rw [if_pos hhead.1]
  exact (h.body _).bind (fun _ => hclosing) _ hhead.2

/-- A calm pass gives a summary, unless its scene has a ring that the walk follows. -/
theorem calm_run (hcalm : pass.Calm) {s : PassState} (hs : s.sink.unlimited = true) :
    (∃ summary, (pass.run.runOn s).1 = .ok summary) ∨
      (pass.run.runOn s).1 = .error .depthExceeded ∧ ¬ pass.scene.RingFree := by
  have hdeep := endsWell_run (endsWell_of_calm hcalm) s hs
  have hring : pass.scene.RingFree → EndsWell (fun _ => False) pass.run := fun hring =>
    endsWell_run (endsWell_of_ringFree hcalm hring)
  rcases ho : pass.run.runOn s with ⟨f | summary, t⟩
  · rw [ho] at hdeep
    refine Or.inr ⟨by rw [hdeep], fun hr => ?_⟩
    have h := hring hr s hs
    rw [ho] at h
    exact h
  · exact Or.inl ⟨summary, rfl⟩

end ShadeNet
