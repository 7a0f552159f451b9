/-
# The text of an export and its records

An export writes into a text what it writes into memory: pass by pass a comment and then the
records of the pass. No step of the walk looks at the sink. A step writes some entries, whatever
the sink is; if all of them go through it ends in one way, and otherwise it ends there and nothing
more is written. So the text that has room for some bytes only holds these bytes of the whole.

Text of its own that the geometry exporter writes between records is in no record, so the text is
a transcript of the records where it writes none.

Key definitions: `PassState.into`, `Writes`, `WritesOnly`, `Pass.Accords`, `writingPairing`,
`Job.passes`, `script`, `Transcribes`, `GeometryExporter.WritesNoText`.
Key theorems: `Writes.bind`, `writes_run`, `writes_exportFrames`, `text_is_transcript`,
`annotated_text_is_no_transcript`.
-/
import ShadeNet.Proofs.Escape
import ShadeNet.Proofs.Feed
import ShadeNet.Proofs.Pairing
import ShadeNet.Schema.Builtin

namespace ShadeNet

open Compile

variable {α β : Type}

/-- The state with another sink. -/
def PassState.into (s : PassState) (sink : Sink) : PassState := { s with sink := sink }

/-- Whatever the sink is, the step writes the entries into it, one after another. If all of them
go through it ends as `o` does, and otherwise it ends at the first one that does not. -/
structure Writes (c : Compile α) (s : PassState) (entries : List Entry)
    (o : Except Failure α × PassState) : Prop where
  whole : ∀ sink : Sink, (sink.feed entries).2 = true →
    c.runOn (s.into sink) = (o.1, o.2.into (sink.feed entries).1)
  cut : ∀ sink : Sink, (sink.feed entries).2 = false →
    (c.runOn (s.into sink)).1 = .error .sinkFull ∧
      (c.runOn (s.into sink)).2.sink = (sink.feed entries).1

variable {c : Compile α} {s t : PassState} {a : α} {failure : Failure} {first rest : List Entry}

/-! ### Sequences -/

/-- A step that writes nothing and does not look at the sink. -/
theorem Writes.of_quiet {o : Except Failure α × PassState}
    (h : ∀ sink, c.runOn (s.into sink) = (o.1, o.2.into sink)) : Writes c s [] o where
  whole sink _ := h sink
  cut _ hcut := nomatch hcut

theorem Writes.bind {f : α → Compile β} {o : Except Failure β × PassState}
    (hc : Writes c s first (.ok a, t)) (hf : Writes (f a) t rest o) :
    Writes (c >>= f) s (first ++ rest) o := by
  constructor
  · intro sink hwhole
    rw [Sink.feed_append] at hwhole ⊢
    by_cases hfirst : (sink.feed first).2 = true
    · rw [if_pos hfirst] at hwhole ⊢
      rw [runOn_bind_ok (hc.whole sink hfirst)]
      exact hf.whole _ hwhole
    · rw [if_neg hfirst] at hwhole
      exact absurd hwhole hfirst
  · intro sink hcut
    rw [Sink.feed_append] at hcut ⊢
    by_cases hfirst : (sink.feed first).2 = true
    · rw [if_pos hfirst] at hcut ⊢
      rw [runOn_bind_ok (hc.whole sink hfirst)]
      exact hf.cut _ hcut
    · rw [if_neg hfirst]
      obtain ⟨hfails, hsink⟩ := hc.cut sink (by simpa using hfirst)
      rw [runOn_bind_error (Prod.ext hfails rfl)]
      exact ⟨rfl, hsink⟩

/-- A step that fails of itself ends the steps behind it too. -/
theorem Writes.bind_error (hc : Writes c s first (.error failure, t)) (f : α → Compile β) :
    Writes (c >>= f) s first (.error failure, t) := by
  constructor
  · intro sink hwhole
    exact runOn_bind_error (hc.whole sink hwhole) f
  · intro sink hcut
    obtain ⟨hfails, hsink⟩ := hc.cut sink hcut
    rw [runOn_bind_error (Prod.ext hfails rfl)]
    exact ⟨rfl, hsink⟩

/-- What is done with the result of a step writes nothing. -/
theorem Writes.map {r : Except Failure α} (hc : Writes c s first (r, t)) (f : α → β) :
    Writes (c >>= fun a => pure (f a)) s first (r.map f, t) := by
  rcases r with failure | a
  · exact hc.bind_error _
  · have hpure : Writes (pure (f a)) t [] (.ok (f a), t) := .of_quiet fun _ => rfl
    exact List.append_nil first ▸ Writes.bind hc hpure

/-- A failure that is handled goes on if it is that of the sink. -/
theorem Writes.attempt {g : Except Failure α → Compile β} {r : Except Failure α}
    {o : Except Failure β × PassState} (hc : Writes c s first (r, t))
    (hg : Writes (g r) t rest o) (hands : HandsOn g) :
    Writes (attempt c >>= g) s (first ++ rest) o := by
  have hrun : ∀ sink, (ShadeNet.attempt c >>= g).runOn (s.into sink) =
      (g (c.runOn (s.into sink)).1).runOn (c.runOn (s.into sink)).2 :=
    fun sink => runOn_bind_ok (runOn_attempt c _) g
  constructor
  · intro sink hwhole
    rw [Sink.feed_append] at hwhole ⊢
    by_cases hfirst : (sink.feed first).2 = true
    · rw [if_pos hfirst] at hwhole ⊢
      rw [hrun, hc.whole sink hfirst]
      exact hg.whole _ hwhole
    · rw [if_neg hfirst] at hwhole
      exact absurd hwhole hfirst
  · intro sink hcut
    rw [hrun]
    rw [Sink.feed_append] at hcut ⊢
    by_cases hfirst : (sink.feed first).2 = true
    · rw [if_pos hfirst] at hcut ⊢
      rw [hc.whole sink hfirst]
      exact hg.cut _ hcut
    · rw [if_neg hfirst]
      obtain ⟨hfails, hsink⟩ := hc.cut sink (by simpa using hfirst)
      rw [hfails, ← hsink]
      exact hands .sinkFull rfl _

/-- From any state, the step writes some entries, all of them such as are allowed. -/
def WritesOnly (Allowed : Entry → Prop) (c : Compile α) : Prop :=
  ∀ s, ∃ (entries : List Entry) (o : Except Failure α × PassState),
    (∀ e ∈ entries, Allowed e) ∧ Writes c s entries o

variable {Allowed : Entry → Prop}

theorem WritesOnly.of_quiet (h : ∀ s : PassState, ∃ o : Except Failure α × PassState,
    ∀ sink, c.runOn (s.into sink) = (o.1, o.2.into sink)) : WritesOnly Allowed c := by
  intro s
  obtain ⟨o, ho⟩ := h s
  exact ⟨[], o, nofun, .of_quiet ho⟩

theorem WritesOnly.bind {f : α → Compile β} (hc : WritesOnly Allowed c)
    (hf : ∀ a, WritesOnly Allowed (f a)) : WritesOnly Allowed (c >>= f) := by
  intro s
  obtain ⟨entries, ⟨failure | a, t⟩, hall, hw⟩ := hc s
  · exact ⟨entries, _, hall, hw.bind_error f⟩
  · obtain ⟨more, o, hall', hw'⟩ := hf a t
    exact ⟨entries ++ more, o, List.forall_mem_append.mpr ⟨hall, hall'⟩, hw.bind hw'⟩

theorem WritesOnly.attempt {g : Except Failure α → Compile β} (hc : WritesOnly Allowed c)
    (hg : ∀ r, WritesOnly Allowed (g r)) (hands : HandsOn g) :
    WritesOnly Allowed (attempt c >>= g) := by
  intro s
  obtain ⟨entries, ⟨r, t⟩, hall, hw⟩ := hc s
  obtain ⟨more, o, hall', hw'⟩ := hg r t
  exact ⟨entries ++ more, o, List.forall_mem_append.mpr ⟨hall, hall'⟩, hw.attempt hw' hands⟩

theorem writesOnly_forM {f : α → Compile Unit} {l : List α}
    (h : ∀ a ∈ l, WritesOnly Allowed (f a)) : WritesOnly Allowed (l.forM f) := by
  induction l with
  | nil => exact .of_quiet fun s => ⟨(.ok (), s), fun _ => rfl⟩
  | cons a rest ih =>
    exact (h a List.mem_cons_self).bind fun _ => ih fun b hb => h b (List.mem_cons_of_mem a hb)

/-! ### Records -/

variable {pass : Pass}

theorem Sink.feed_singleton (sink : Sink) (e : Entry) : sink.feed [e] = sink.write e := by
  unfold feed
  split
  · exact Prod.ext rfl (by simp_all [feed])
  · exact Prod.ext rfl (by simp_all)

theorem writes_writeEntry (e : Entry) (s : PassState) :
    Writes (writeEntry e) s [e] (.ok (), s) := by
  constructor <;> intro sink h <;> rw [Sink.feed_singleton] at h ⊢ <;>
    rw [writeEntry_runOn] <;> unfold PassState.into <;> simp [h]

theorem writes_writeRecord (ha : pass.Accepts) (r : Record) (s : PassState) :
    Writes (pass.writeRecord r) s [.record r] (.ok (), { s with sent := s.sent ++ [r] }) := by
  constructor <;> intro sink h <;> rw [Sink.feed_singleton] at h ⊢ <;>
    rw [writeRecord_runOn, if_neg (by rw [ha]; decide)] <;>
    unfold PassState.receive PassState.into <;> simp [h]

/-- What the exporter writes for a mesh goes into the sink as it is. -/
theorem writes_writeOut (ha : pass.Accepts) (e : Entry) (s : PassState) :
    ∃ o, Writes (pass.writeOut e) s [e] o := by
  cases e with
  | record r => exact ⟨_, writes_writeRecord ha r s⟩
  | remark text => exact ⟨_, writes_writeEntry (.remark text) s⟩

theorem writesOnly_emit (ha : pass.Accepts) {r : Record} (hr : Allowed (.record r)) :
    WritesOnly Allowed (pass.emit r) := by
  intro s
  have hw := writes_writeRecord ha r s
  refine ⟨[.record r],
    (.ok r.name, ({ s with sent := s.sent ++ [r] } : PassState).count r.name),
    List.forall_mem_singleton.mpr hr, ?_, ?_⟩
  · intro sink hwhole
    rw [emit_runOn_ok (hw.whole sink hwhole)]
    rfl
  · intro sink hcut
    obtain ⟨hfails, hsink⟩ := hw.cut sink hcut
    rw [emit_runOn_error (Prod.ext hfails rfl)]
    exact ⟨rfl, hsink⟩

/-- A mesh may fail of itself when it is written, and hands on the failure of the sink. -/
theorem writes_geometryEnd {mesh : Compile Unit} {entries : List Entry}
    {o : Except Failure Unit × PassState} {end' : Compile (Option Resolved)} (name : String)
    (failure : Option String) (hw : Writes mesh t entries o)
    (hrun : ∀ sink, end'.runOn (s.into sink) =
      geometryEnd name failure (mesh.runOn (t.into sink))) :
    Writes end' s entries (geometryEnd name failure o) := by
  constructor
  · intro sink hwhole
    rw [hrun, hw.whole sink hwhole]
    rcases o with ⟨_ | _, u⟩
    · rfl
    · unfold geometryEnd
      cases failure <;> rfl
  · intro sink hcut
    obtain ⟨hfails, hsink⟩ := hw.cut sink hcut
    have hmesh : mesh.runOn (t.into sink) = (.error .sinkFull, _) := Prod.ext hfails rfl
    rw [hrun, hmesh]
    exact ⟨rfl, hsink⟩

/-- What is written for meshes, each under its own name, is such as is allowed. -/
def GeometryExporter.Gives (geometry : GeometryExporter) (Allowed : Entry → Prop) : Prop :=
  ∀ earlier object mesh, ∀ e ∈ (geometry.answer earlier ⟨object, mesh, meshName mesh⟩).entries,
    Allowed e

theorem writesOnly_writeGeometry (ha : pass.Accepts) (hg : pass.geometry.Gives Allowed) :
    WritesOnly Allowed pass.writeGeometry := by
  intro s
  cases hs : s.scope with
  | none =>
    refine ⟨[], (.ok none, s.note .geometryOutsideObject), nofun, .of_quiet fun sink => ?_⟩
    rw [writeGeometry_runOn, show (s.into sink).scope = none from hs]
    rfl
  | some scope =>
    have hscope : ∀ sink, (s.into sink).scope = some scope := fun _ => hs
    cases hm : scope.mesh with
    | none =>
      refine ⟨[], (.ok none, s.note (.objectWithoutMesh scope.name)), nofun,
        .of_quiet fun sink => ?_⟩
      rw [writeGeometry_runOn, hscope]
      simp only [hm]
      rfl
    | some mesh =>
      let request : MeshRequest := ⟨scope.name, mesh, meshName mesh⟩
      let answer := pass.geometry.answer s.meshes request
      have hrun : ∀ sink, pass.writeGeometry.runOn (s.into sink) =
          if pass.settings.autoMeshes && !s.ledger.hasMesh (meshName mesh) then
            geometryEnd (meshName mesh) answer.failure
              ((answer.entries.forM pass.writeOut).runOn ((s.handOut request).into sink))
          else (.ok (some (.reference (meshName mesh))), s.into sink) := by
        intro sink
        rw [writeGeometry_runOn, hscope]
        simp only [hm]
        rfl
      by_cases hnew : (pass.settings.autoMeshes && !s.ledger.hasMesh (meshName mesh)) = true
      · simp only [hnew, if_true] at hrun
        have hout : ∀ e ∈ answer.entries, WritesOnly Allowed (pass.writeOut e) := by
          intro e he s
          obtain ⟨o, hw⟩ := writes_writeOut ha e s
          exact ⟨[e], o, List.forall_mem_singleton.mpr (hg _ _ _ e he), hw⟩
        obtain ⟨entries, o, hall, hw⟩ := writesOnly_forM hout (s.handOut request)
        exact ⟨entries, _, hall, writes_geometryEnd (meshName mesh) answer.failure hw hrun⟩
      · simp only [hnew] at hrun
        exact ⟨[], (.ok (some (.reference (meshName mesh))), s), nofun, .of_quiet hrun⟩

/-! ### The walk -/

/-- Two passes over one scene that report alike. -/
structure Pass.Accords (first pass : Pass) : Prop where
  scene : pass.scene = first.scene
  catalog : pass.catalog = first.catalog
  override : pass.settings.overrideMaterial = first.settings.overrideMaterial
  reports : ∀ desc params supplied,
    pass.pluginReports desc params supplied = first.pluginReports desc params supplied

theorem Pass.Accords.refl (pass : Pass) : pass.Accords pass := ⟨rfl, rfl, rfl, fun _ _ _ => rfl⟩

/-- That the steps of a pass write what is allowed, whatever the sink is, as a comparison that the
walk keeps: of the steps that they are compared with nothing is asked. -/
def writingPairing {first : Pass} (hp : first.Accords pass) (ha : pass.Accepts)
    (hr : ∀ r, Allowed (.record r)) (hg : pass.geometry.Gives Allowed) : Pairing first pass where
  Pairs _ c := WritesOnly Allowed c
  scene := hp.scene
  catalog := hp.catalog
  override := hp.override
  reports := hp.reports
  pure a := .of_quiet fun s => ⟨(.ok a, s), fun _ => rfl⟩
  throw failure := .of_quiet fun s => ⟨(.error failure, s), fun _ => rfl⟩
  get {_ _ g} h hsees s := by
    obtain ⟨entries, o, hall, hw⟩ := h s s
    -- what is read of the state is no part of the sink
    have hread : ∀ sink, g (s.into sink) = g s := fun sink =>
      (hsees s (s.into sink) ⟨rfl, rfl, rfl⟩).symm
    refine ⟨entries, o, hall, fun sink hwhole => ?_, fun sink hcut => ?_⟩ <;>
      rw [runOn_bind_ok (runOn_get _), hread]
    · exact hw.whole sink hwhole
    · exact hw.cut sink hcut
  report line := .of_quiet fun s => ⟨(.ok (), s.note line), fun _ => rfl⟩
  modifyLedger g := .of_quiet fun s => ⟨(.ok (), { s with ledger := g s.ledger }), fun _ => rfl⟩
  claimName base := .of_quiet fun s => ⟨(.ok (freeName s.ledger.names base),
    { s with ledger := s.ledger.reserve (freeName s.ledger.names base) }), fun _ => rfl⟩
  replaceScope scope := .of_quiet fun s => ⟨(.ok s.scope, { s with scope := scope }), fun _ => rfl⟩
  choose token :=
    .of_quiet fun s => ⟨(.ok (), { s with overrideToken := some token }), fun _ => rfl⟩
  emit _ := writesOnly_emit ha (hr _)
  writeGeometry := writesOnly_writeGeometry ha hg
  bind := WritesOnly.bind
  attempt := WritesOnly.attempt

theorem writing_walk {first : Pass} (hp : first.Accords pass) (ha : pass.Accepts)
    (hr : ∀ r, Allowed (.record r)) (hg : pass.geometry.Gives Allowed) : ∀ depth,
    (writingPairing hp ha hr hg).PairsAll (first.walk depth) (pass.walk depth)
  | 0 => fun _ _ _ => (writingPairing hp ha hr hg).throw _
  | depth + 1 => (writingPairing hp ha hr hg).compileNode (writing_walk hp ha hr hg depth)

/-- A pass writes its head and then what is allowed. -/
theorem writes_run (ha : pass.Accepts) (hr : ∀ r, Allowed (.record r))
    (hg : pass.geometry.Gives Allowed) (s : PassState) :
    ∃ (entries : List Entry) (o : Except Failure Summary × PassState),
      (∀ e ∈ entries, Allowed e) ∧ Writes pass.run s (pass.header :: entries) o := by
  let start : PassState := { s.note (.exporting pass.scene.name pass.frame) with
    ledger := {}, scope := none, overrideToken := none }
  have hclosing : WritesOnly Allowed pass.closing :=
    .of_quiet fun s => ⟨pass.closing.runOn s, fun _ => rfl⟩
  have hwalk := writing_walk (.refl pass) ha hr hg pass.scene.walkDepth
  have hbody := ((writingPairing (.refl pass) ha hr hg).body hwalk).bind fun _ => hclosing
  obtain ⟨entries, o, hentries, hw⟩ := hbody start
  -- the head is written in the state with which the body begins
  have hrun : ∀ sink, pass.run.runOn (s.into sink) = (writeEntry pass.header >>= fun _ =>
      pass.body pass.items.length >>= fun _ => pass.closing).runOn (start.into sink) := by
    intro sink
    rw [Pass.run_runOn, runOn_bind, writeEntry_runOn]
    unfold Pass.afterHead
    split <;> simp_all [PassState.into, Pass.headed, start, PassState.note]
  have hall : Writes (writeEntry pass.header >>= fun _ => pass.body pass.items.length >>=
      fun _ => pass.closing) start (pass.header :: entries) o :=
    (writes_writeEntry pass.header start).bind hw
  refine ⟨entries, o, hentries, fun sink hwhole => ?_, fun sink hcut => ?_⟩ <;> rw [hrun]
  · exact hall.whole sink hwhole
  · exact hall.cut sink hcut

/-! ### Exports -/

/-- The records of each pass of an export, pass by pass, as far as the passes end well: what a
pass gives to memory of its own. -/
def Job.passes (job : Job) (outside : Surroundings) :
    List Int32 → PassState → List (Int32 × List Record)
  | [], _ => []
  | frame :: rest, s =>
    match (job.exportFrame outside frame).runOn (s.into (.records {})) with
    | (.ok _, t) => (frame, t.sink.recordList) :: job.passes outside rest t
    | (.error _, t) => [(frame, t.sink.recordList)]

/-- What is written for passes over a scene: the head of each pass and its records. -/
def script (scene : String) (passes : List (Int32 × List Record)) : List Entry :=
  passes.flatMap fun pass => .remark (headerText scene pass.1) :: pass.2.map .record

theorem script_append (scene : String) (a b : List (Int32 × List Record)) :
    script scene (a ++ b) = script scene a ++ script scene b := List.flatMap_append

/-- The passes do not depend on what the sink was. -/
theorem passes_into (job : Job) (outside : Surroundings) (frames : List Int32) (s : PassState)
    (sink : Sink) : job.passes outside frames (s.into sink) = job.passes outside frames s := by
  cases frames <;> rfl

/-- The entries of a step that is run with memory as its sink. -/
theorem Writes.memory {o : Except Failure α × PassState} {entries : List Entry}
    (h : Writes c s entries o) :
    (c.runOn (s.into (.records {}))).1 = o.1 ∧
      (∃ sink, (c.runOn (s.into (.records {}))).2 = o.2.into sink) ∧
      (c.runOn (s.into (.records {}))).2.sink.recordList = recordsOf entries := by
  obtain ⟨hwhole, hrecords⟩ := Sink.feed_records {} entries
  rw [h.whole _ hwhole]
  exact ⟨rfl, ⟨_, rfl⟩, hrecords⟩

/-- The result and the text of a step that is run with a text without a limit as its sink. -/
theorem Writes.file {o : Except Failure α × PassState} {entries : List Entry}
    (h : Writes c s entries o) :
    (c.runOn (s.into (.text {}))).1 = o.1 ∧
      (c.runOn (s.into (.text {}))).2.sink.writtenText = textOf entries := by
  have htext := Sink.feed_text (s := {}) rfl entries
  rw [h.whole _ (by rw [htext]), htext]
  exact ⟨rfl, String.empty_append⟩

variable (job : Job) {outside : Surroundings}

/-- A single pass with the records that it gives to memory. -/
theorem passes_singleton (outside : Surroundings) (frame : Int32) (s : PassState) :
    job.passes outside [frame] s = [(frame,
      ((job.exportFrame outside frame).runOn (s.into (.records {}))).2.sink.recordList)] := by
  unfold Job.passes
  generalize (job.exportFrame outside frame).runOn (s.into (.records {})) = run
  rcases run with ⟨_ | _, t⟩ <;> rfl

theorem script_singleton (scene : String) (frame : Int32) (records : List Record) :
    script scene [(frame, records)] =
      .remark (headerText scene frame) :: records.map .record := by
  rw [script, List.flatMap_cons, List.flatMap_nil, List.append_nil]

/-- Entries that are records are those of the records among them. -/
theorem eq_map_recordsOf {entries : List Entry} (h : ∀ e ∈ entries, e.isRecord = true) :
    entries = (recordsOf entries).map .record := by
  induction entries with
  | nil => rfl
  | cons e rest ih =>
    obtain ⟨he, hrest⟩ := List.forall_mem_cons.mp h
    cases e with
    | record r => exact congrArg (.record r :: ·) (ih hrest)
    | remark text => cases he

/-- One pass writes its head and the records that it gives to memory. -/
theorem writes_exportFrame (ha : ∀ index, outside.refuses index = false)
    (hg : outside.geometry.Gives (·.isRecord = true)) (frame : Int32) (s : PassState) :
    ∃ o, Writes (job.exportFrame outside frame) s
      (script job.scene.name (job.passes outside [frame] s)) o := by
  have haccepts : Pass.Accepts { toJob := job, toSurroundings := outside, frame := frame } := ha
  obtain ⟨entries, o, hentries, hw⟩ := writes_run haccepts (fun _ => rfl) hg s
  change Writes (job.exportFrame outside frame) s _ o at hw
  have hmemory : _ = recordsOf entries := hw.memory.2.2
  rw [passes_singleton, hmemory, script_singleton, ← eq_map_recordsOf hentries]
  exact ⟨o, hw⟩

/-- An export writes its passes one after another, up to the first one that fails. -/
theorem writes_exportFrames (ha : ∀ index, outside.refuses index = false)
    (hg : outside.geometry.Gives (·.isRecord = true)) (frames : List Int32) (s : PassState) :
    ∃ o, Writes (job.exportFrames outside frames) s
      (script job.scene.name (job.passes outside frames s)) o := by
  induction frames generalizing s with
  | nil => exact ⟨(.ok [], s), .of_quiet fun _ => rfl⟩
  | cons frame rest ih =>
    obtain ⟨⟨r, t⟩, hfirst⟩ := writes_exportFrame job ha hg frame s
    obtain ⟨hresult, ⟨sink, hstate⟩, -⟩ := hfirst.memory
    have hmemory : (job.exportFrame outside frame).runOn (s.into (.records {})) =
        (r, t.into sink) := Prod.ext hresult hstate
    unfold Job.exportFrames
    rcases r with failure | summary
    · -- a pass that fails is the last one
      have hpasses : job.passes outside (frame :: rest) s = job.passes outside [frame] s := by
        simp only [Job.passes, hmemory]
      rw [hpasses]
      exact ⟨_, hfirst.bind_error _⟩
    · have hpasses : job.passes outside (frame :: rest) s =
          job.passes outside [frame] s ++ job.passes outside rest t := by
        simp only [Job.passes, hmemory, passes_into]
        rfl
      obtain ⟨⟨r, u⟩, hothers⟩ := ih t
      refine ⟨(r.map (summary :: ·), u), ?_⟩
      rw [hpasses, script_append]
      exact hfirst.bind (hothers.map (summary :: ·))

/-- A step writes into a text what it writes into memory: the entries. With the text as sink it
gives the same result, and the text is that of the entries, the records of which are those in
memory. A text with room for some bytes gets these bytes; there is a failure of the sink if and
only if the text is longer, and the records that are whole within these bytes are counted. -/
structure Transcribes (c : Compile α) (s : PassState) (entries : List Entry) : Prop where
  result : (c.runOn (s.into (.text {}))).1 = (c.runOn (s.into (.records {}))).1
  text : (c.runOn (s.into (.text {}))).2.sink.writtenText = textOf entries
  records : (c.runOn (s.into (.records {}))).2.sink.recordList = recordsOf entries
  bytes : ∀ room, (c.runOn (s.into (.text { room := some room }))).2.sink.writtenBytes =
    (utf8 (textOf entries)).take room
  fails : ∀ room, (∃ message, (c.runOn (s.into (.text { room := some room }))).1 =
    .error (.io message)) ↔ room < (utf8 (textOf entries)).length
  succeeds : ∀ room, (utf8 (textOf entries)).length ≤ room →
    (c.runOn (s.into (.text { room := some room }))).1 = (c.runOn (s.into (.records {}))).1
  count : ∀ room, (c.runOn (s.into (.text { room := some room }))).2.sink.recordCount =
    recordsWithin room entries

/-- A step that writes entries transcribes them if it does not fail as a sink does by itself. -/
theorem Writes.transcribes {o : Except Failure α × PassState} {entries : List Entry}
    (h : Writes c s entries o) (hio : ∀ message, o.1 ≠ .error (.io message)) :
    Transcribes c s entries := by
  obtain ⟨hresult, -, hrecords⟩ := h.memory
  have hroom := fun room : Nat => Sink.feed_text_room (s := { room := some room }) rfl rfl entries
  -- with too little room the sink fails, and with enough of it nothing does
  have hcut : ∀ room : Nat, room < (utf8 (textOf entries)).length →
      (c.runOn (s.into (.text { room := some room }))).1 = .error .sinkFull ∧
        (c.runOn (s.into (.text { room := some room }))).2.sink =
          ((Sink.text { room := some room }).feed entries).1 :=
    fun room hlt => h.cut _ (by
      rw [← Bool.not_eq_true, (hroom room).1]
      omega)
  have hwhole : ∀ room : Nat, (utf8 (textOf entries)).length ≤ room →
      c.runOn (s.into (.text { room := some room })) =
        (o.1, o.2.into ((Sink.text { room := some room }).feed entries).1) :=
    fun room hle => h.whole _ ((hroom room).1.mpr hle)
  have hsink : ∀ room : Nat, (c.runOn (s.into (.text { room := some room }))).2.sink =
      ((Sink.text { room := some room }).feed entries).1 := by
    intro room
    by_cases hlt : room < (utf8 (textOf entries)).length
    · exact (hcut room hlt).2
    · rw [hwhole room (by omega)]
      rfl
  refine ⟨?_, ?_, hrecords, fun room => ?_, fun room => ⟨?_, fun hlt => ?_⟩, fun room hle => ?_,
    fun room => ?_⟩
  · rw [h.file.1, hresult]
  · exact h.file.2
  · rw [hsink, (hroom room).2.1]
    rfl
  · rintro ⟨message, hfails⟩
    refine Nat.lt_of_not_le fun hle => ?_
    rw [hwhole room hle] at hfails
    exact hio message hfails
  · exact ⟨_, (hcut room hlt).1⟩
  · rw [hwhole room hle, hresult]
  · rw [hsink, (hroom room).2.2]
    exact Nat.zero_add _

/-- In calm surroundings an export ends well, unless the walk of a pass is too deep. -/
theorem endsWell_exportFrames (ha : ∀ index, outside.refuses index = false)
    (hsucceeds : ∀ earlier request, (outside.geometry.answer earlier request).failure = none)
    (frames : List Int32) :
    (∀ frame, EndsWell (· = .depthExceeded) (job.exportFrame outside frame)) ∧
      EndsWell (· = .depthExceeded) (job.exportFrames outside frames) := by
  have hpass : ∀ frame, EndsWell (· = .depthExceeded) (job.exportFrame outside frame) :=
    fun frame =>
      have hcalm : Pass.Calm { toJob := job, toSurroundings := outside, frame := frame } :=
        ⟨ha, hsucceeds⟩
      endsWell_run (endsWell_of_calm hcalm)
  refine ⟨hpass, ?_⟩
  induction frames with
  | nil => exact endsWell_pure _
  | cons frame rest ih => exact (hpass frame).bind fun _ => ih.bind fun _ => endsWell_pure _

/-- What ends well in memory does not fail as a sink does. -/
theorem EndsWell.ne_io {o : Except Failure α × PassState} {entries : List Entry}
    (h : EndsWell (· = .depthExceeded) c) (hw : Writes c s entries o) (message : String) :
    o.1 ≠ .error (.io message) := by
  have hend := h (s.into (.records {})) rfl
  rw [← hw.memory.1]
  generalize c.runOn (s.into (.records {})) = run at hend
  rcases run with ⟨failure | a, t⟩
  · rw [show failure = .depthExceeded from hend]
    exact fun hio => nomatch hio
  · exact fun hio => nomatch hio

/-- A geometry exporter that writes records and no text beside them. -/
def GeometryExporter.WritesNoText (geometry : GeometryExporter) : Prop :=
  ∀ earlier request, ∀ e ∈ (geometry.answer earlier request).entries, e.isRecord = true

/-- **A text agrees with the records.** Nothing refuses a record but the sink, and meshes fail
only when it does and are written as records alone. Then an export of one frame or of any frames
writes into a text what it writes into memory: pass by pass the comment at the head and the texts
of exactly the records that memory keeps, in the same order, and with the same result. If there is
room for a number of bytes only, the text is that many bytes of the whole; the export fails with
the failure of the sink if and only if the whole is longer; and the records are counted that lie
within these bytes. -/
theorem text_is_transcript (job : Job) (geometry : GeometryExporter) (fileExists : String → Bool)
    (hsucceeds : ∀ earlier request, (geometry.answer earlier request).failure = none)
    (hrecords : geometry.WritesNoText) (s : PassState) :
    let outside : Surroundings := { geometry := geometry, fileExists := fileExists }
    (∀ frame, Transcribes (job.exportFrame outside frame) s
        (script job.scene.name (job.passes outside [frame] s))) ∧
      ∀ frames, Transcribes (job.exportFrames outside frames) s
        (script job.scene.name (job.passes outside frames s)) := by
  intro outside
  have ha : ∀ index, outside.refuses index = false := fun _ => rfl
  have hg : outside.geometry.Gives (·.isRecord = true) := fun _ _ _ => hrecords _ _
  have hends := endsWell_exportFrames job ha hsucceeds
  refine ⟨fun frame => ?_, fun frames => ?_⟩
  · obtain ⟨o, hw⟩ := writes_exportFrame job ha hg frame s
    exact hw.transcribes (((hends []).1 frame).ne_io hw)
  · obtain ⟨o, hw⟩ := writes_exportFrames job ha hg frames s
    exact hw.transcribes ((hends frames).2.ne_io hw)

/-- A mesh is one record. -/
def plainGeometry : GeometryExporter :=
  ⟨fun _ request => { entries := [.record ⟨"GeomStaticMesh", request.name, .geometry, []⟩] }⟩

/-- A scene with a mesh. -/
def potJob : Job where
  scene := ({} : Scene).addObject "Pot" { mesh := some "Pot" }
  catalog := Catalog.builtin
  settings := {}

/-- Two frames of the scene, with the records of the defaults, the mesh and the object in each. -/
theorem text_is_transcript_pot :
    (∀ earlier request, (plainGeometry.answer earlier request).failure = none) ∧
      plainGeometry.WritesNoText ∧
      let outside : Surroundings := { geometry := plainGeometry }
      let entries := script potJob.scene.name (potJob.passes outside (frameRange 1 2) {})
      (recordsOf entries).map Record.plugin =
          ["BRDFDiffuse", "MtlSingleBRDF", "GeomStaticMesh", "Node",
            "BRDFDiffuse", "MtlSingleBRDF", "GeomStaticMesh", "Node"] ∧
        Transcribes (potJob.exportFrames outside (frameRange 1 2)) {} entries := by
  have hrecords : plainGeometry.WritesNoText := fun _ _ => List.forall_mem_singleton.mpr rfl
  refine ⟨fun _ _ => rfl, hrecords, by decide +kernel, ?_⟩
  exact (text_is_transcript potJob plainGeometry (fun _ => false) (fun _ _ => rfl) hrecords {}).2
    (frameRange 1 2)

/-- A mesh is one record with a comment in front of it. -/
def annotatedGeometry : GeometryExporter :=
  ⟨fun _ request => { entries := [.remark "// mesh\n",
    .record ⟨"GeomStaticMesh", request.name, .geometry, []⟩] }⟩

/-- The comment in front of the mesh is in the text, and no record has it. -/
theorem annotated_text_is_no_transcript :
    (∀ earlier request, (annotatedGeometry.answer earlier request).failure = none) ∧
      let outside : Surroundings := { geometry := annotatedGeometry }
      let entries := script potJob.scene.name (potJob.passes outside [1] {})
      ((potJob.exportFrame outside 1).runOn (PassState.into {} (.text {}))).2.sink.writtenText ≠
        textOf entries ∧
      ¬ Transcribes (potJob.exportFrame outside 1) {} entries := by
  have htext : ((potJob.exportFrame { geometry := annotatedGeometry } 1).runOn
      (PassState.into {} (.text {}))).2.sink.writtenText ≠
        textOf (script potJob.scene.name
          (potJob.passes { geometry := annotatedGeometry } [1] {})) := by decide +kernel
  exact ⟨fun _ _ => rfl, htext, fun h => htext h.text⟩

end ShadeNet
