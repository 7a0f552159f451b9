/-
# The refusal of a record ends a pass

Every function of the walk hands the refusal of a record on: what handles failures
handles cycles alone, and a bracket only takes its mark away before the failure
goes on. So the pass in which one record is refused is the pass in which none is, cut
at that record. A pass that meets nothing of the kind ends well, unless the scene has a
ring of ends, which is walked without end.

Key definitions: `Pass.refusing`, `cutPairing`.
Key theorems: `cuts_walk`, `cutRun_run`, `refusal_ends_pass`, `coiled_pass_endless`.
-/
import Mathlib.Data.List.Basic
import ShadeNet.Proofs.Endless
import ShadeNet.Proofs.Pairing
import ShadeNet.Proofs.Refusal

namespace ShadeNet

variable {limit : Nat}

/-- The pass whose destination refuses the record at one place and no other. -/
def Pass.refusing (pass : Pass) (limit : Nat) : Pass :=
  { pass with refuses := fun index => index == limit }

/-- Two compilers of nodes of which the second is cut. -/
def CutsAll (limit : Nat) (compile cut : NodeCompiler) : Prop :=
  ∀ tree node useLiterals, Cuts limit (compile tree node useLiterals) (cut tree node useLiterals)

variable {pass : Pass} {compile cut : NodeCompiler}

/-! ### Records -/

theorem cuts_writeRecord (ha : pass.Accepts) (r : Record) :
    Cuts limit (pass.writeRecord r) ((pass.refusing limit).writeRecord r) := by
  intro s hs
  have hwrite := Sink.write_of_unlimited hs (.record r)
  have hc : (pass.writeRecord r).runOn s = (.ok (), s.receive r) := ha.writeRecord_runOn r hs
  have hrefuses : (pass.refusing limit).refuses s.sent.length = (s.sent.length == limit) := rfl
  rw [hc, writeRecord_runOn, hrefuses]
  refine ⟨[.record r], rfl, rfl, fun hle => ?_, fun earlier q later he hplace => ?_⟩
  · have hne : s.sent.length ≠ limit := Nat.ne_of_lt hle
    rw [if_neg (by simpa using hne), if_pos hwrite.1]
  · obtain rfl : earlier = [] := by
      rcases earlier with _ | ⟨first, rest⟩
      · rfl
      · simp at he
    have heq : s.sent.length = limit := hplace
    rw [if_pos (beq_iff_eq.mpr heq)]
    exact ⟨rfl, rfl⟩

/-- Text that is no record is written in both runs. -/
theorem cuts_writeRemark (text : String) : Cuts limit (writeRemark text) (writeRemark text) := by
  intro s hs
  rw [writeRemark_runOn, if_pos (Sink.write_of_unlimited hs _).1]
  refine ⟨[.remark text], by simp [PassState.comment, recordsOf, Entry.record?], rfl,
    fun _ => rfl, fun earlier r later he _ => ?_⟩
  rcases earlier with _ | ⟨first, rest⟩ <;> simp at he

theorem cuts_writeOut (ha : pass.Accepts) (e : Entry) :
    Cuts limit (pass.writeOut e) ((pass.refusing limit).writeOut e) := by
  cases e with
  | record r => exact cuts_writeRecord ha r
  | remark text => exact cuts_writeRemark text

theorem cuts_emit (ha : pass.Accepts) (r : Record) :
    Cuts limit (pass.emit r) ((pass.refusing limit).emit r) := by
  unfold Pass.emit
  refine (cuts_writeRecord ha r).bind fun _ => .of_quiet fun s => ?_
  rw [Compile.runOn_bind_ok (Compile.runOn_get s)]
  split <;> exact ⟨rfl, rfl⟩

theorem cutRun_geometryEnd {s : PassState} {o p : Except Failure Unit × PassState}
    (h : CutRun limit s o p) (name : String) (failure : Option String) :
    CutRun limit s (geometryEnd name failure o) (geometryEnd name failure p) := by
  have hquiet : CutRun limit o.2 (geometryEnd name failure o) (geometryEnd name failure o) :=
    .of_quiet (by rw [geometryEnd_state]) (by rw [geometryEnd_state])
  refine h.next hquiet (fun he => by rw [he]) fun he => ?_
  rcases p with ⟨r, t⟩
  cases he
  exact ⟨rfl, rfl⟩

theorem cuts_writeGeometry (ha : pass.Accepts) :
    Cuts limit pass.writeGeometry (pass.refusing limit).writeGeometry := by
  intro s hs
  rw [writeGeometry_runOn, writeGeometry_runOn]
  rcases s.scope with _ | scope
  · exact .of_quiet rfl rfl
  simp only
  rcases scope.mesh with _ | mesh
  · exact .of_quiet rfl rfl
  simp only
  by_cases hnew : (pass.settings.autoMeshes && !s.ledger.hasMesh (meshName mesh)) = true
  · have hnew' : ((pass.refusing limit).settings.autoMeshes &&
        !s.ledger.hasMesh (meshName mesh)) = true := hnew
    rw [if_pos hnew, if_pos hnew']
    have hout : CutRun limit s _ _ := cuts_forM (fun e _ => cuts_writeOut ha e)
      (l := (pass.geometry.answer s.meshes ⟨scope.name, mesh, meshName mesh⟩).entries)
      (s.handOut ⟨scope.name, mesh, meshName mesh⟩) hs
    exact cutRun_geometryEnd hout _ _
  · have hnew' : ¬((pass.refusing limit).settings.autoMeshes &&
        !s.ledger.hasMesh (meshName mesh)) = true := hnew
    rw [if_neg hnew, if_neg hnew']
    exact .of_quiet rfl rfl

theorem cuts_renders (ha : pass.Accepts) {r r' : Record}
    (h : pass.Renders (pass.refusing limit) r r') :
    Cuts limit (pass.emit r) ((pass.refusing limit).emit r') := by
  cases h <;> exact cuts_emit ha _

/-! ### The walk -/

/-- The cut as a comparison that the walk keeps. -/
def cutPairing (ha : pass.Accepts) : Pairing pass (pass.refusing limit) where
  Pairs := Cuts limit
  scene := rfl
  catalog := rfl
  override := rfl
  reports _ _ _ := rfl
  pure := cuts_pure
  throw := cuts_throw
  get h _ := cuts_get.bind h
  report := cuts_report
  modifyLedger := cuts_modifyLedger
  claimName := cuts_claimName
  replaceScope := cuts_replaceScope
  choose _ := .of_quiet fun _ => ⟨rfl, rfl⟩
  emit h := cuts_renders ha h
  writeGeometry := cuts_writeGeometry ha
  bind := Cuts.bind
  attempt hc hg hands := hc.attempt hg fun s => hands .sinkFull rfl s

theorem cuts_walk (ha : pass.Accepts) : ∀ depth,
    CutsAll limit (pass.walk depth) ((pass.refusing limit).walk depth)
  | 0 => fun _ _ _ => cuts_throw _
  | depth + 1 => (cutPairing ha).compileNode (cuts_walk ha depth)

/-- A pass is cut behind its head, which is no record. -/
theorem cutRun_run (ha : pass.Accepts) {s : PassState} (hs : s.sink.unlimited = true) :
    CutRun limit (pass.headed s) (pass.run.runOn s) ((pass.refusing limit).run.runOn s) := by
  have hhead := Sink.write_of_unlimited hs pass.header
  have hhead' : (s.sink.write (pass.refusing limit).header).2 = true := hhead.1
  have hheaded : (pass.refusing limit).headed s = pass.headed s := rfl
  have hclosing : Cuts limit pass.closing (pass.refusing limit).closing :=
    .of_quiet fun _ => ⟨rfl, rfl⟩
  rw [Pass.run_runOn, Pass.run_runOn]
  unfold Pass.afterHead
  rw [if_pos hhead.1, if_pos hhead', hheaded]
  exact ((cutPairing ha).body (cuts_walk ha _)).bind (fun _ => hclosing) _ hhead.2

/-- Before the record at a place of some entries stand as many records. -/
theorem exists_of_lt_recordsOf {n : Nat} {entries : List Entry}
    (h : n < (recordsOf entries).length) : ∃ earlier r later,
      entries = earlier ++ .record r :: later ∧ recordsOf earlier = (recordsOf entries).take n := by
  induction entries generalizing n with
  | nil => cases h
  | cons e rest ih =>
    cases e with
    | remark text =>
      obtain ⟨earlier, r, later, rfl, hr⟩ := ih (n := n) h
      exact ⟨.remark text :: earlier, r, later, rfl, hr⟩
    | record q =>
      cases n with
      | zero => exact ⟨[], q, rest, rfl, rfl⟩
      | succ n =>
        obtain ⟨earlier, r, later, rfl, hr⟩ := ih (Nat.lt_of_succ_lt_succ h)
        exact ⟨.record q :: earlier, r, later, rfl, congrArg (q :: ·) hr⟩

/-- **Only what goes wrong outside ends a pass.** Among surroundings that take every
record a pass writes some records, and what text goes with the meshes. If the record at
place `n` is refused, the pass ends with that failure, and what was written before that
record is in the sink and nothing else; if there is no such record, nothing differs. No
cycle leaves the pass in either case. Where no node passes on what it has itself, and no
mesh fails, a pass that can write everything ends with a summary. -/
theorem refusal_ends_pass (job : Job) (geometry : GeometryExporter)
    (fileExists : String → Bool) (frame : Int32) (s : PassState)
    (hs : s.sink.unlimited = true) (n : Nat) :
    let outside : Surroundings := { geometry := geometry, fileExists := fileExists }
    let refusing : Surroundings :=
      { outside with refuses := fun index => index == s.sent.length + n }
    let whole := (job.exportFrame outside frame).runOn s
    let cut := (job.exportFrame refusing frame).runOn s
    let header : Entry := .remark (headerText job.scene.name frame)
    ∃ entries : List Entry,
      whole.2.sent = s.sent ++ recordsOf entries ∧
      whole.2.sink = s.sink.writeAll (header :: entries) ∧
      (n < (recordsOf entries).length → (∃ message, cut.1 = .error (.io message)) ∧
        ∃ earlier r later, entries = earlier ++ .record r :: later ∧
          recordsOf earlier = (recordsOf entries).take n ∧
          cut.2.sink = s.sink.writeAll (header :: earlier)) ∧
      ((recordsOf entries).length ≤ n → cut = whole) ∧
      (∀ tree node, whole.1 ≠ .error (.cycle tree node)) ∧
      (∀ tree node, cut.1 ≠ .error (.cycle tree node)) ∧
      (job.scene.RingFree → (∀ earlier request, (geometry.answer earlier request).failure = none) →
        ∃ summary, whole.1 = .ok summary) := by
  intro outside refusing whole cut header
  let pass : Pass := { toJob := job, toSurroundings := outside, frame := frame }
  have ha : pass.Accepts := fun _ => rfl
  have hcut : cut = (pass.refusing (s.sent.length + n)).run.runOn s := rfl
  have hrun : CutRun (s.sent.length + n) (pass.headed s) whole cut := cutRun_run ha hs
  obtain ⟨entries, hsent, hsink, hsame, hrefused⟩ := hrun
  have hheaded : (pass.headed s).sent = s.sent := rfl
  rw [hheaded] at hsent hsame hrefused
  refine ⟨entries, hsent, hsink, fun hn => ?_, fun hn => ?_, fun tree node he => ?_,
    fun tree node he => ?_, fun hring hsucceeds => ?_⟩
  · obtain ⟨earlier, r, later, he, htake⟩ := exists_of_lt_recordsOf hn
    have hlength : (recordsOf earlier).length = n := by
      rw [htake, List.length_take, Nat.min_eq_left (Nat.le_of_lt hn)]
    obtain ⟨hfailed, hcutsink⟩ := hrefused earlier r later he (by omega)
    exact ⟨⟨_, hfailed⟩, earlier, r, later, he, htake, hcutsink⟩
  · exact hsame (by omega)
  · cases neverCycles_run pass s _ he
  · rw [hcut] at he
    cases neverCycles_run _ s _ he
  · exact (calm_run ⟨ha, hsucceeds⟩ hs).resolve_right fun hendless => hendless.2 hring

/-- The second of the two default records is refused, and the first one is kept. -/
theorem refusal_ends_pass_default :
    ({} : PassState).sink.unlimited = true ∧
    let job : Job := ⟨{}, {}, {}⟩
    let refusing : Surroundings :=
      { geometry := .external, refuses := fun index => index == 1 }
    let cut := (job.exportFrame refusing 1).runOn {}
    (∃ message, cut.1 = .error (.io message)) ∧
      cut.2.sink.recordList = [defaultBrdfRecord] ∧
      job.scene.RingFree ∧
      ∃ summary, ((job.exportFrame { geometry := .external } 1).runOn {}).1 = .ok summary := by
  refine ⟨rfl, ?_⟩
  intro job refusing cut
  obtain ⟨entries, hsent, -, hcut, -, -, -, hends⟩ :=
    refusal_ends_pass job .external (fun _ => false) 1 {} rfl 1
  have hrecords : recordsOf entries = [defaultBrdfRecord, defaultMaterialRecord] := by
    have hwhole : ((job.exportFrame { geometry := .external } 1).runOn {}).2.sent =
        [defaultBrdfRecord, defaultMaterialRecord] := by decide +kernel
    exact hsent.symm.trans hwhole
  have hring : job.scene.RingFree := fun _ _ hx => absurd hx List.not_mem_nil
  obtain ⟨hmessage, earlier, r, later, -, htake, hsink⟩ := hcut (by simp [hrecords])
  rw [hrecords] at htake
  refine ⟨hmessage, ?_, hring, hends hring fun _ _ => rfl⟩
  exact (congrArg Sink.recordList hsink).trans ((Sink.recordList_writeAll _ _).trans htake)

/-- The two ends of a material are linked in a ring, and the pass does not end: however deep
the walk may go, it goes deeper, in every state without an override. -/
theorem coiled_pass_endless :
    (∀ earlier request, (GeometryExporter.external.answer earlier request).failure = none) ∧
    ((coilJob.exportFrame { geometry := .external } 1).runOn {}).1 = .error .depthExceeded ∧
    ∀ (pass : Pass) (depth : Nat) (s : PassState), s.overrideToken = none →
      (writeMaterialTree (pass.walk depth) coil).runOn s = (.error .depthExceeded, s) := by
  refine ⟨fun _ _ => rfl, by decide +kernel, fun pass depth s hs => ?_⟩
  obtain ⟨a, b, ha, hb, hab, hba⟩ : ∃ a b, coil.materialOutput? = some a ∧
      coil.feeder? a "Material" = some b ∧ coil.Relays a b ∧ coil.Relays b a :=
    ⟨_, _, rfl, rfl, Or.inl ⟨rfl, rfl⟩, Or.inl ⟨rfl, rfl⟩⟩
  exact writeMaterialTree_of_ring ha hb ((Relation.TransGen.single hba).tail hab) depth hs

end ShadeNet
