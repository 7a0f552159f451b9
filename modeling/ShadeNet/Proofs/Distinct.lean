/-
# No two records of a pass share a name

Three kinds of names are given out in three ways: a node's or an object's record
claims a free name, a mesh is handed out once under its own name, and the two
records of the default material come before everything else. The names of a pass
stay apart because the ledger knows every name of the first kind and every mesh
of the second.

Key definitions: `Distinct`, `Named`.
Key theorems: `named_claimAndEmit`, `named_writeGeometry`, `instance_names_distinct`.
-/
import ShadeNet.Proofs.Frame
import ShadeNet.Proofs.Naming
import ShadeNet.Schema.Builtin

namespace ShadeNet

/-- The names of the records that were tried stand for one record each, and the
ledger knows those that can be asked for again. -/
structure Distinct (tried : List Record) (l : Ledger) : Prop where
  nodup : (tried.map Record.name).Nodup
  fit : ∀ r ∈ tried, isInstanceName r.name = true
  taken : ∀ r ∈ tried, tagOf r.name ∈ ownTags → r.name ∈ l.names
  handedOut : ∀ r ∈ tried, tagOf r.name = meshTag → r.name ∈ l.meshes
  counted : l.written ⊆ l.names

/-- Since `start` records with names of their own were tried, and no name was reported
to be written twice. -/
def Named (start s : PassState) : Prop :=
  ∃ tried lines, s.sent = start.sent ++ tried ∧ s.log = start.log ++ lines ∧
    Distinct tried s.ledger ∧ ∀ line ∈ lines, line.isRewrite = false

theorem named_refl (start : PassState) (h : start.ledger.written ⊆ start.ledger.names) :
    Named start start :=
  ⟨[], [], by simp, by simp, ⟨by simp, by simp, by simp, by simp, h⟩, by simp⟩

/-! ### Ledgers -/

namespace Distinct

variable {tried : List Record} {l m : Ledger} {r : Record}

/-- Ledgers that know more keep names apart. -/
theorem mono (h : Distinct tried l) (hnames : l.names ⊆ m.names) (hmeshes : l.meshes ⊆ m.meshes)
    (hwritten : m.written ⊆ m.names) : Distinct tried m :=
  ⟨h.nodup, h.fit, fun r hr ht => hnames (h.taken r hr ht),
    fun r hr ht => hmeshes (h.handedOut r hr ht), hwritten⟩

/-- A record whose name is new. -/
theorem send (h : Distinct tried l) (hnew : ∀ q ∈ tried, q.name ≠ r.name)
    (hfit : isInstanceName r.name = true) (hown : tagOf r.name ∈ ownTags → r.name ∈ l.names)
    (hmesh : tagOf r.name = meshTag → r.name ∈ l.meshes) : Distinct (tried ++ [r]) l := by
  have hcases : ∀ {P : Record → Prop}, (∀ q ∈ tried, P q) → P r → ∀ q ∈ tried ++ [r], P q := by
    intro P ht hr q hq
    rcases List.mem_append.mp hq with hq | hq
    · exact ht q hq
    · rwa [List.mem_singleton.mp hq]
  refine ⟨?_, hcases h.fit hfit, hcases h.taken hown, hcases h.handedOut hmesh, h.counted⟩
  rw [List.map_append, List.nodup_append]
  refine ⟨h.nodup, by simp, fun a ha b hb => ?_⟩
  obtain ⟨q, hq, rfl⟩ := List.mem_map.mp ha
  obtain rfl : b = r.name := by simpa using hb
  exact hnew q hq

theorem count (h : Distinct tried l) (name : String) : Distinct tried (l.countRecord name) := by
  refine h.mono (subset_addMember _ _) (List.Subset.refl _) fun other ho => ?_
  rcases mem_addMember.mp ho with ho | rfl
  · exact subset_addMember _ _ (h.counted ho)
  · exact mem_addMember.mpr (Or.inr rfl)

theorem reserve (h : Distinct tried l) (name : String) : Distinct tried (l.reserve name) :=
  h.mono (subset_addMember _ _) (List.Subset.refl _) fun _ ho =>
    subset_addMember _ _ (h.counted ho)

theorem addMesh (h : Distinct tried l) (mesh : String) : Distinct tried (l.addMesh mesh) :=
  h.mono (List.Subset.refl _) (subset_addMember _ _) h.counted

end Distinct

/-! ### Steps -/

variable {start s : PassState} {pass : Pass} {tried : List Record} {lines : List LogLine}

/-- A state in which the same is known of names. -/
theorem Named.congr {t : PassState} (h : Named start s) (hsent : t.sent = s.sent)
    (hlog : t.log = s.log) (hnames : t.ledger.names = s.ledger.names)
    (hmeshes : t.ledger.meshes = s.ledger.meshes) (hwritten : t.ledger.written = s.ledger.written) :
    Named start t := by
  obtain ⟨tried, lines, hs, hl, hd, hq⟩ := h
  refine ⟨tried, lines, hsent.trans hs, hlog.trans hl, hd.mono ?_ ?_ ?_, hq⟩
  · rw [hnames]
    exact List.Subset.refl _
  · rw [hmeshes]
    exact List.Subset.refl _
  · rw [hwritten, hnames]
    exact hd.counted

theorem Named.note {line : LogLine} (h : Named start s) (hq : line.isRewrite = false) :
    Named start (s.note line) := by
  obtain ⟨tried, lines, hs, hl, hd, hq'⟩ := h
  refine ⟨tried, lines ++ [line], hs, by simp [PassState.note, hl], hd, fun other ho => ?_⟩
  rcases List.mem_append.mp ho with ho | ho
  · exact hq' other ho
  · rwa [List.mem_singleton.mp ho]

/-- Whether it goes through or not, a record is tried and nothing else is known. -/
theorem writeRecord_after (pass : Pass) (r : Record) (s : PassState) :
    ((pass.writeRecord r).runOn s).2.sent = s.sent ++ [r] ∧
      ((pass.writeRecord r).runOn s).2.log = s.log ∧
      ((pass.writeRecord r).runOn s).2.ledger = s.ledger := by
  rcases writeRecord_cases pass r s with h | ⟨sink, -, h⟩ <;> rw [h] <;> exact ⟨rfl, rfl, rfl⟩

theorem named_writeRecord {r : Record} (hs : s.sent = start.sent ++ tried)
    (hl : s.log = start.log ++ lines) (hd : Distinct (tried ++ [r]) s.ledger)
    (hq : ∀ line ∈ lines, line.isRewrite = false) :
    Named start ((pass.writeRecord r).runOn s).2 := by
  obtain ⟨hsent, hlog, hledger⟩ := writeRecord_after pass r s
  refine ⟨tried ++ [r], lines, ?_, hlog.trans hl, hledger ▸ hd, hq⟩
  rw [hsent, hs, List.append_assoc]

/-- A record whose name has no record yet is counted in silence. -/
theorem named_emit {r : Record} (hs : s.sent = start.sent ++ tried)
    (hl : s.log = start.log ++ lines) (hd : Distinct (tried ++ [r]) s.ledger)
    (hq : ∀ line ∈ lines, line.isRewrite = false) (hw : r.name ∉ s.ledger.written) :
    Named start ((pass.emit r).runOn s).2 := by
  obtain ⟨hsent, hlog, hledger⟩ := writeRecord_after pass r s
  have hnamed : Named start ((pass.writeRecord r).runOn s).2 := named_writeRecord hs hl hd hq
  rw [emit_runOn]
  generalize (pass.writeRecord r).runOn s = o at hsent hlog hledger hnamed ⊢
  rcases o with ⟨_ | _, t⟩
  · exact hnamed
  · simp only at hsent hlog hledger
    have hsilent : t.ledger.rewriteReports r.name = [] := by
      unfold Ledger.rewriteReports Ledger.isWritten
      rw [if_neg]
      simpa [hledger] using hw
    refine ⟨tried ++ [r], lines, ?_, ?_, ?_, hq⟩
    · simp [PassState.count, hsent, hs]
    · simp [PassState.count, hsilent, hlog, hl]
    · exact (hledger ▸ hd : Distinct (tried ++ [r]) t.ledger).count r.name

/-- A claimed name is new, since the ledger knows the names of its kind. -/
theorem named_claimAndEmit {base : String} {reports : List LogLine} {record : String → Record}
    (hb : OwnBase base) (hr : ∀ line ∈ reports, line.isRewrite = false)
    (hn : ∀ name, (record name).name = name) (h : Named start s) :
    Named start ((pass.claimAndEmit base reports record).runOn s).2 := by
  obtain ⟨tried, lines, hs, hl, hd, hq⟩ := h
  have hfree := freeName_not_mem s.ledger.names base
  have htag := hb.tagOf_freeName s.ledger.names
  rw [claimAndEmit_runOn]
  generalize hname : freeName s.ledger.names base = name at hfree htag
  have hclaim : s.claim base reports =
      { s with ledger := s.ledger.reserve name, log := s.log ++ reports } := by
    rw [← hname]
    rfl
  have hsent : (s.claim base reports).sent = start.sent ++ tried := hs
  have hlog : (s.claim base reports).log = start.log ++ (lines ++ reports) := by
    rw [hclaim, hl, List.append_assoc]
  refine named_emit hsent hlog ?_ ?_ ?_
  · rw [hclaim]
    refine (hd.reserve name).send (fun q hm he => ?_) ?_ (fun _ => ?_) fun hm => ?_
    · rw [hn] at he
      exact hfree (he ▸ hd.taken q hm (he ▸ htag))
    · rw [hn, ← hname]
      exact isInstanceName_freeName hb.fit.1 _
    · rw [hn]
      exact mem_addMember.mpr (Or.inr rfl)
    · rw [hn] at hm
      rw [hm] at htag
      exact absurd htag (by decide)
  · intro line hm
    rcases List.mem_append.mp hm with hm | hm
    · exact hq line hm
    · exact hr line hm
  · rw [hclaim, hn]
    exact fun hw => hfree (hd.counted hw)

/-- A geometry exporter that writes at most one record for a mesh, under the mesh's
name, with any text around it. -/
def GeometryExporter.WritesAtMostOne (geometry : GeometryExporter) : Prop :=
  ∀ earlier request, (geometry.answer earlier request).records = [] ∨
    ∃ r, (geometry.answer earlier request).records = [r] ∧ r.name = request.name

/-- A mesh is handed out once, so its name is new. -/
theorem named_writeGeometry (hg : pass.geometry.WritesAtMostOne) (h : Named start s) :
    Named start (pass.writeGeometry.runOn s).2 := by
  refine writeGeometry_state h (h.note rfl) (fun _ => h.note rfl) fun scope mesh _ _ hnew => ?_
  have hmesh : meshName mesh ∉ s.ledger.meshes := by
    simpa [Ledger.hasMesh] using hnew
  obtain ⟨tried, lines, hs, hl, hd, hq⟩ := h
  have hd' : Distinct tried (s.handOut ⟨scope.name, mesh, meshName mesh⟩).ledger :=
    (hd.addMesh _).reserve _
  have hhanded : ∀ sink, Named start
      { s.handOut ⟨scope.name, mesh, meshName mesh⟩ with sink := sink } :=
    fun _ => ⟨tried, lines, hs, hl, hd', hq⟩
  have hcomment : ∀ t text, Named start t → Named start (t.comment text) :=
    fun _ _ h => h.congr rfl rfl rfl rfl rfl
  rcases hg s.meshes ⟨scope.name, mesh, meshName mesh⟩ with he | ⟨r, he, hn⟩
  · exact writeOut_none he hcomment (hhanded _)
  · have hn : r.name = meshName mesh := hn
    have hr := (meshName_fit mesh).1
    have ht := (meshName_fit mesh).2
    rw [← hn] at hr ht
    refine writeOut_single he hcomment hhanded fun _ => ?_
    refine named_writeRecord hs hl (hd'.send (fun q hm hq => ?_) hr (fun hown => ?_)
      fun _ => ?_) hq
    · refine hmesh ?_
      rw [← hn, ← hq]
      exact hd.handedOut q hm (hq ▸ ht)
    · rw [ht] at hown
      exact absurd hown (by decide)
    · rw [hn]
      exact mem_addMember.mpr (Or.inr rfl)

/-! ### Passes -/

/-- Keeping names apart is a comparison that the walk keeps. -/
def namingComparison (start : PassState) (hg : pass.geometry.WritesAtMostOne) :
    Comparison pass where
  Rel s t := Named start s → Named start t
  refl _ h := h
  trans h k hs := k (h hs)
  note hq h := h.note hq
  emission hb hr hn h := named_claimAndEmit hb hr hn h
  geometry _ h := named_writeGeometry hg h
  synthesize _ _ hr h := (hr h).congr rfl rfl rfl rfl rfl
  hide _ _ h := h.congr rfl rfl rfl rfl rfl
  finish _ _ hr h := (hr (h.congr rfl rfl rfl rfl rfl)).congr rfl rfl rfl rfl rfl
  abandon _ hr h := (hr (h.congr rfl rfl rfl rfl rfl)).congr rfl rfl rfl rfl rfl
  leave _ _ _ hr h := (hr (h.congr rfl rfl rfl rfl rfl)).congr rfl rfl rfl rfl rfl
  quit _ _ hr h := (hr (h.congr rfl rfl rfl rfl rfl)).congr rfl rfl rfl rfl rfl

/-- The default material is the first to take names, and its two names differ. -/
theorem named_writeDefaults (hs : s.sent = start.sent ++ []) (hl : s.log = start.log ++ [])
    (hledger : s.ledger = {}) : Named start (pass.writeDefaults.runOn s).2 := by
  have hquiet : ∀ line ∈ ([] : List LogLine), line.isRewrite = false := by simp
  have hbrdf : Distinct ([] ++ [defaultBrdfRecord]) s.ledger := by
    rw [hledger]
    refine Distinct.send ⟨by simp, by simp, by simp, by simp, by simp⟩ (by simp) (by decide)
      (fun h => absurd h (by decide)) fun h => absurd h (by decide)
  unfold Pass.writeDefaults
  rw [Compile.runOn_bind_ok (Compile.runOn_get s), if_neg (by rw [hledger]; decide)]
  have hfirst : Named start ((pass.writeRecord defaultBrdfRecord).runOn s).2 :=
    named_writeRecord hs hl hbrdf hquiet
  obtain ⟨hsent, hlog, ht⟩ := writeRecord_after pass defaultBrdfRecord s
  rcases hw : (pass.writeRecord defaultBrdfRecord).runOn s with ⟨e | _, t⟩
  · rw [Compile.runOn_bind_error (emit_runOn_error hw)]
    rwa [hw] at hfirst
  · rw [hw] at hsent hlog ht
    simp only at hsent hlog ht
    rw [Compile.runOn_bind_ok (emit_runOn_ok hw)]
    -- the ledger holds the name of the shading model and nothing else
    have hcount : (t.count defaultBrdf).ledger = Ledger.countRecord {} defaultBrdf := by
      rw [← hledger, ← ht]
      rfl
    have hsilent : (t.count defaultBrdf).log = t.log := by
      have : t.ledger.rewriteReports defaultBrdf = [] := by rw [ht, hledger]; rfl
      simp [PassState.count, this]
    have hmaterial : Distinct ([defaultBrdfRecord] ++ [defaultMaterialRecord])
        (t.count defaultBrdf).ledger := by
      refine (((ht ▸ hbrdf : Distinct [defaultBrdfRecord] t.ledger)).count defaultBrdf).send ?_
        (by decide) (fun h => absurd h (by decide)) fun h => absurd h (by decide)
      intro q hq
      rw [List.mem_singleton.mp hq]
      decide
    have hsecond : Named start ((pass.emit defaultMaterialRecord).runOn (t.count defaultBrdf)).2 :=
      named_emit (hsent.trans (by simpa using hs)) ((hsilent.trans hlog).trans hl) hmaterial hquiet
        (by rw [hcount]; decide)
    rwa [Compile.runOn_bind_pure_state]

theorem named_run (hg : pass.geometry.WritesAtMostOne) (s : PassState) :
    Named (pass.headed s) (pass.run.runOn s).2 := by
  let C : Comparison pass := namingComparison (pass.headed s) hg
  have hdefaults : C.Rel (pass.headed s) (pass.writeDefaults.runOn (pass.headed s)).2 :=
    fun _ => named_writeDefaults (by simp) (by simp) rfl
  have hopening : C.Rel (pass.headed s) (pass.opening.runOn (pass.headed s)).2 :=
    Compile.rel_bind C.rel_trans hdefaults fun _ t =>
      C.rel_writeOverride (fun _ _ h => h.congr rfl rfl rfl rfl rfl) t
  have hbody : C.Rel (pass.headed s)
      ((pass.body pass.items.length).runOn (pass.headed s)).2 :=
    Compile.rel_bind C.rel_trans hopening fun _ t => C.rel_items _ t
  have hrun : C.Rel (pass.headed s) (pass.run.runOn s).2 := by
    rw [Pass.run_runOn]
    refine pass.rel_afterHead (C.refl _) ?_
    exact Compile.rel_bind C.rel_trans hbody fun _ t => C.note rfl
  exact hrun (named_refl _ (List.Subset.refl _))

/-- **No two records of a pass share a name.** Whatever the names in the scene are and
whichever way the pass ends, the records among what it has written have names of their
own, each a letter with word characters behind it, and no name is reported to be written
twice. -/
theorem instance_names_distinct (job : Job) (outside : Surroundings)
    (hg : outside.geometry.WritesAtMostOne) (frame : Int32) (s : PassState) :
    ∃ (arrived : List Entry) (lines : List LogLine),
      ((job.exportFrame outside frame).runOn s).2.sink =
        s.sink.writeAll (.remark (headerText job.scene.name frame) :: arrived) ∧
      ((recordsOf arrived).map Record.name).Nodup ∧
      (∀ r ∈ recordsOf arrived, isInstanceName r.name = true) ∧
      ((job.exportFrame outside frame).runOn s).2.log = s.log ++ lines ∧
      ∀ line ∈ lines, ∀ name, line ≠ .writtenTwice name := by
  let pass : Pass := { toJob := job, toSurroundings := outside, frame := frame }
  obtain ⟨tried, arrived, hsent, hsub, hsink⟩ := sink_run pass s
  have hnamed : Named (pass.headed s) (pass.run.runOn s).2 := named_run hg s
  obtain ⟨tried', lines, hsent', hlog, hd, hq⟩ := hnamed
  have ht : tried' = tried := List.append_cancel_left (hsent'.symm.trans hsent)
  subst ht
  refine ⟨arrived, .exporting job.scene.name frame :: lines, hsink, ?_, ?_, ?_, ?_⟩
  · exact hd.nodup.sublist (hsub.map _)
  · exact fun r hr => hd.fit r (hsub.subset hr)
  · exact hlog.trans (by simp [Pass.headed, PassState.note, pass])
  · rintro line hl name rfl
    rcases List.mem_cons.mp hl with h | h
    · cases h
    · cases hq _ h

/-- Writes an empty record for each mesh. -/
def GeometryExporter.bare : GeometryExporter :=
  ⟨fun _ request => { entries := [.record ⟨"GeomStaticMesh", request.name, .geometry, []⟩] }⟩

theorem bare_writesAtMostOne : GeometryExporter.bare.WritesAtMostOne :=
  fun _ _ => Or.inr ⟨_, rfl, rfl⟩

/-- Two objects that ask for one name and share a mesh. -/
def collidingScene : Scene :=
  (({} : Scene).addObject "Cube.1" { mesh := some "Ring" }).addObject "Cube_1"
    { mesh := some "Ring" }

theorem instance_names_distinct_colliding :
    GeometryExporter.bare.WritesAtMostOne ∧
    let job : Job := ⟨collidingScene, Catalog.builtin, {}⟩
    let outside : Surroundings := { geometry := .bare }
    ∃ (arrived : List Entry) (lines : List LogLine),
      ((job.exportFrame outside 1).runOn {}).2.sink =
        (Sink.records {}).writeAll (.remark (headerText "Scene" 1) :: arrived) ∧
      ((recordsOf arrived).map Record.name).Nodup ∧
      (∀ r ∈ recordsOf arrived, isInstanceName r.name = true) ∧
      ((job.exportFrame outside 1).runOn {}).2.log = [] ++ lines ∧
      ∀ line ∈ lines, ∀ name, line ≠ .writtenTwice name :=
  ⟨bare_writesAtMostOne,
    instance_names_distinct ⟨collidingScene, Catalog.builtin, {}⟩ { geometry := .bare }
      bare_writesAtMostOne 1 {}⟩

end ShadeNet
