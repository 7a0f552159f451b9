/-
# Queries that go on after a failure

A context serves one query after another. A query that fails leaves what it has
written and what it has handed out, and the next one goes on from there. Whatever a query
gives back then stands for a record that went through: nodes and objects whose records were
refused are forgotten, and the others are in the ledger. Meshes are the exception. A mesh is
entered before it is exported and stays entered if its export fails, so it is referred to
from then on although it was never written.

Key definitions: `Query`, `Pass.serve`, `Resolved.tokens`, `GeometryExporter.Delivers`,
`PassState.Leads`, `Pass.Lost`, `Pass.Covers`, `Covered`, `coveredContract`.
Key theorems: `covered_claimAndEmit`, `covered_writeGeometry`, `covered_serve`,
`references_covered`, `mesh_referred_unwritten`.
-/
import ShadeNet.Proofs.Meshes
import ShadeNet.Proofs.PostOrder
import ShadeNet.Proofs.Provenance

namespace ShadeNet

open Compile

variable {α : Type} {pass : Pass} {start s t u : PassState}

/-! ### Queries -/

/-- What a context may be asked for. -/
inductive Query
  /-- To compile something. -/
  | call (call : Call)
  /-- The geometry of the object in scope. -/
  | geometry
  /-- The record of an object, picked by a node. -/
  | selectObject (tree : NodeTree) (node : Node) (object : Option String)
  /-- The records of a group, picked by a node. -/
  | selectGroup (tree : NodeTree) (node : Node) (group : Option String)
  /-- To make another object the one in scope. -/
  | scope (scope : Option ObjectScope)

/-- What a query compiles to. -/
def Query.compile (pass : Pass) (compile : NodeCompiler) : Query → Compile (Option Resolved)
  | .call made => made.compile pass compile
  | .geometry => pass.writeGeometry
  | .selectObject tree node object => do
    let value ← pass.selectObject compile tree node object
    return some value
  | .selectGroup tree node group => do
    let value ← pass.selectGroup compile tree node group
    return some value
  | .scope other => do
    let _ ← replaceScope other
    return none

/-- The state that queries leave, one after another, whichever way each of them ends. -/
def Pass.serve (pass : Pass) (depth : Nat) (queries : List Query) (s : PassState) : PassState :=
  queries.foldl (fun s query => ((query.compile pass (pass.walk depth)).runOn s).2) s

/-- The tokens of a value. -/
def Resolved.tokens : Resolved → List String
  | .literal _ => []
  | .reference token => [token]
  | .objects tokens => tokens

/-- A mesh that is exported without a failure has a record of its name. -/
def GeometryExporter.Delivers (geometry : GeometryExporter) : Prop :=
  ∀ earlier request, (geometry.answer earlier request).failure = none →
    ∃ r ∈ (geometry.answer earlier request).records, r.name = request.name

/-! ### What was written and what was lost -/

/-- One state stands before another: what was sent, written and handed out by then is what the
later one begins with. -/
structure PassState.Leads (s t : PassState) : Prop where
  appends : s.Appends t
  meshes : s.meshes <+: t.meshes

theorem PassState.Leads.of_eq (hsent : t.sent = s.sent) (hsink : t.sink = s.sink)
    (hmeshes : t.meshes = s.meshes) : s.Leads t :=
  ⟨.of_eq hsent hsink, hmeshes ▸ List.prefix_refl _⟩

theorem PassState.Leads.refl (s : PassState) : s.Leads s := .of_eq rfl rfl rfl

theorem PassState.Leads.trans (h : s.Leads t) (k : t.Leads u) : s.Leads u :=
  ⟨PassState.appends_trans s t u h.appends k.appends, h.meshes.trans k.meshes⟩

/-- The export of the mesh of this name failed, somewhere between two states. -/
def Pass.Lost (pass : Pass) (start now : PassState) (name : String) : Prop :=
  ∃ (request : MeshRequest) (before behind : PassState) (failure : Failure),
    request.name = name ∧ start.Leads before ∧
    (pass.exportMesh request).runOn before = (.error failure, behind) ∧ behind.Leads now

/-- A name stands for a record that went through, or for a mesh whose export failed. -/
def Pass.Covers (pass : Pass) (start now : PassState) (name : String) : Prop :=
  (∃ r, start.sink.Received now.sink r ∧ r.name = name) ∨ pass.Lost start now name

theorem Pass.Covers.mono {name : String} (h : pass.Covers start s name) (hl : s.Leads t) :
    pass.Covers start t name := by
  rcases h with ⟨r, hr, hn⟩ | ⟨request, before, behind, failure, hn, hb, hrun, hs⟩
  · obtain ⟨-, arrived, -, -, hsink⟩ := hl.appends
    exact Or.inl ⟨r, hsink ▸ hr.later _, hn⟩
  · exact Or.inr ⟨request, before, behind, failure, hn, hb, hrun, hs.trans hl⟩

/-- All tokens of a value are covered, up to the selectors behind them. -/
def Pass.CoversValue (pass : Pass) (start now : PassState) (v : Resolved) : Prop :=
  ∀ token ∈ v.tokens, pass.Covers start now (baseName token)

theorem Pass.CoversValue.mono {v : Resolved} (h : pass.CoversValue start s v) (hl : s.Leads t) :
    pass.CoversValue start t v := fun token ht => (h token ht).mono hl

/-- The tokens of an entry of the ledger. -/
def Memo.tokens : Memo → List String
  | .node _ _ value => value.tokens
  | .object _ token => token.toList
  | .material _ token => [token]

/-- The ledger says the same if it has the same entries. -/
theorem PassState.Holds.congr {m : Memo} (h : t.Holds m) (hnodes : t.ledger.nodes = s.ledger.nodes)
    (hobjects : t.ledger.objects = s.ledger.objects)
    (hsynthesized : t.ledger.synthesized = s.ledger.synthesized) : s.Holds m := by
  cases m with
  | node => simpa only [PassState.Holds, Ledger.node?, hnodes] using h
  | object => simpa only [PassState.Holds, Ledger.object?, hobjects] using h
  | material => simpa only [PassState.Holds, Ledger.synthesized?, hsynthesized] using h

/-- Every token at hand is covered. -/
structure Covered (pass : Pass) (start s : PassState) : Prop where
  leads : start.Leads s
  default : pass.Covers start s defaultMaterial
  override : ∀ token, s.overrideToken = some token → pass.Covers start s (baseName token)
  entries : ∀ m, s.Holds m → ∀ token ∈ m.tokens, pass.Covers start s (baseName token)
  meshes : ∀ name ∈ s.ledger.meshes, pass.Covers start s name

namespace Covered

/-- A later state whose new entries are covered. -/
theorem next (h : Covered pass start s) (hl : s.Leads t)
    (hover : t.overrideToken = s.overrideToken)
    (hentries : ∀ m, t.Holds m →
      s.Holds m ∨ ∀ token ∈ m.tokens, pass.Covers start t (baseName token))
    (hmeshes : ∀ name ∈ t.ledger.meshes, name ∈ s.ledger.meshes ∨ pass.Covers start t name) :
    Covered pass start t where
  leads := h.leads.trans hl
  default := h.default.mono hl
  override token ho := (h.override token (hover ▸ ho)).mono hl
  entries m hm := (hentries m hm).elim (fun hs token ht => (h.entries m hs token ht).mono hl) id
  meshes name hn := (hmeshes name hn).elim (fun hs => (h.meshes name hs).mono hl) id

/-- A later state in which nothing was entered. -/
theorem keep (h : Covered pass start s) (hl : s.Leads t)
    (hover : t.overrideToken = s.overrideToken) (hentries : ∀ m, t.Holds m → s.Holds m)
    (hmeshes : t.ledger.meshes = s.ledger.meshes) : Covered pass start t :=
  h.next hl hover (fun m hm => Or.inl (hentries m hm)) fun _ hn => Or.inl (hmeshes ▸ hn)

end Covered

/-! ### Selectors -/

/-- A selector begins with a character that no name has. -/
theorem outputSelector_head (kind : NodeKind) (attr : String) :
    ∃ c rest, (outputSelector kind attr).toList = c :: rest ∧ isWordChar c = false := by
  unfold outputSelector
  split
  · exact ⟨'@', _, rfl, by decide⟩
  · exact ⟨'@', _, rfl, by decide⟩
  · exact ⟨'@', _, rfl, by decide⟩
  · exact ⟨':', ':' :: attr.toList, by simp, by decide⟩

/-- What stands behind a selector is the record in front of it, whatever the selector is. -/
theorem baseName_selected (token : String) (kind : NodeKind) (attr : String) :
    baseName (token ++ outputSelector kind attr) = baseName token := by
  obtain ⟨c, rest, hl, hc⟩ := outputSelector_head kind attr
  have hword : ∀ word : List Char,
      (word ++ c :: rest).takeWhile isWordChar = word.takeWhile isWordChar := by
    intro word
    induction word with
    | nil => simp [hc]
    | cons d word ih => simp only [List.cons_append, List.takeWhile_cons, ih]
  unfold baseName
  rw [String.toList_append, hl, hword]

theorem Pass.CoversValue.selectOutput {v : Resolved} (h : pass.CoversValue start s v)
    (source : Node) (attr : Option String) :
    pass.CoversValue start s (selectOutput source attr v) := by
  cases v with
  | literal => exact h
  | objects => exact h
  | reference token =>
    unfold ShadeNet.selectOutput
    cases attr with
    | none => exact h
    | some attr =>
      simp only
      split
      · exact h
      · intro other hother
        rw [List.mem_singleton.mp hother, baseName_selected]
        exact h token List.mem_cons_self

/-- A name of word characters has no selector. -/
theorem baseName_of_isInstanceName {name : String} (h : isInstanceName name = true) :
    baseName name = name := baseName_of_isIdentifier (isIdentifier_of_isInstanceName h)

/-! ### Meshes -/

/-- Records were sent, text written and meshes handed out, and nothing was entered. -/
structure PassState.Sends (s t : PassState) : Prop where
  ledger : t.ledger = s.ledger
  overrideToken : t.overrideToken = s.overrideToken
  leads : s.Leads t

theorem PassState.Sends.refl (s : PassState) : s.Sends s := ⟨rfl, rfl, .refl s⟩

theorem sends_trans (s t u : PassState) (h : s.Sends t) (k : t.Sends u) : s.Sends u :=
  ⟨k.ledger.trans h.ledger, k.overrideToken.trans h.overrideToken, h.leads.trans k.leads⟩

section Steps

variable (pass)

theorem sends_writeRecord (r : Record) (s : PassState) :
    s.Sends ((pass.writeRecord r).runOn s).2 := by
  have happends := appends_writeRecord pass r s
  have hmeshes := (handsNothing_writeRecord pass r s).meshes
  rcases writeRecord_cases pass r s with h | ⟨sink, -, h⟩ <;> rw [h] at happends hmeshes ⊢ <;>
    exact ⟨rfl, rfl, happends, hmeshes ▸ List.prefix_refl _⟩

theorem sends_comment (s : PassState) (text : String) : s.Sends (s.comment text) :=
  ⟨rfl, rfl, (s.frame_comment text).appends, List.prefix_refl _⟩

theorem sends_writeOut (entries : List Entry) (s : PassState) :
    s.Sends ((entries.forM pass.writeOut).runOn s).2 :=
  rel_writeOut PassState.Sends.refl sends_trans (fun r _ => sends_writeRecord pass r) sends_comment s

/-- What an export does once its mesh is handed out. -/
theorem sends_export (request : MeshRequest) (s : PassState) :
    PassState.Sends { s with meshes := s.meshes ++ [request] }
      ((pass.exportMesh request).runOn s).2 := by
  unfold Pass.exportMesh
  rw [runOn_bind_ok (runOn_get s), runOn_bind_ok (runOn_set _ _)]
  refine rel_bind sends_trans (sends_writeOut pass _ _) fun _ t => ?_
  split <;> exact .refl t

theorem sends_exportMesh (request : MeshRequest) (s : PassState) :
    s.Sends ((pass.exportMesh request).runOn s).2 :=
  sends_trans s { s with meshes := s.meshes ++ [request] } _
    ⟨rfl, rfl, .of_eq rfl rfl, List.prefix_append _ _⟩ (sends_export pass request s)

end Steps

/-- A mesh that was lost was handed out. -/
theorem Pass.Lost.handedOut {name : String} (h : pass.Lost start t name) :
    ∃ request ∈ t.meshes, request.name = name := by
  obtain ⟨request, before, behind, failure, hn, -, hrun, hbehind⟩ := h
  have hsends := sends_export pass request before
  rw [hrun] at hsends
  have hmeshes := (hsends.leads.trans hbehind).meshes
  exact ⟨request, hmeshes.subset (List.mem_append_right _ List.mem_cons_self), hn⟩

/-- A record that is written without a failure went through. -/
theorem received_writeRecord {r : Record} (hs : start.Leads s)
    (h : (pass.writeRecord r).runOn s = (.ok (), t)) : start.sink.Received t.sink r := by
  obtain ⟨-, arrived, -, -, hsink⟩ := hs.appends
  have hemit := emit_runOn_ok h
  have hreceive : t.sink = (s.sink.write (.record r)).1 := congrArg PassState.sink (emit_ok hemit)
  rw [hreceive]
  exact .write (emit_whole hemit) _ hsink

/-- The records among what is written for a mesh without a failure went through. -/
theorem received_writeOut {entries : List Entry} (hs : start.Leads s)
    (h : (entries.forM pass.writeOut).runOn s = (.ok (), t)) :
    ∀ r ∈ recordsOf entries, start.sink.Received t.sink r := by
  induction entries generalizing s with
  | nil => exact nofun
  | cons first rest ih =>
    obtain ⟨_, u, hfirst, hrest⟩ := of_runOn_bind_ok h
    have hlater : u.Leads t := (hrest ▸ sends_writeOut pass rest u).leads
    cases first with
    | remark text =>
      obtain ⟨-, rfl⟩ := writeRemark_ok hfirst
      exact ih (hs.trans (sends_comment s text).leads) hrest
    | record q =>
      have hsends : s.Leads u := (hfirst ▸ sends_writeRecord pass q s).leads
      intro r hr
      rcases List.mem_cons.mp hr with rfl | hr
      · obtain ⟨-, arrived, -, -, hsink⟩ := hlater.appends
        exact hsink ▸ (received_writeRecord hs hfirst).later _
      · exact ih (hs.trans hsends) hrest r hr

/-- The state in which a mesh of this name is entered. -/
def PassState.book (s : PassState) (name : String) : PassState :=
  { s with ledger := (s.ledger.addMesh name).reserve name }

/-- A new mesh is entered, and exported after that. -/
theorem writeGeometry_new {scope : ObjectScope} {mesh : String} (hscope : s.scope = some scope)
    (hmesh : scope.mesh = some mesh)
    (hnew : (pass.settings.autoMeshes && !s.ledger.hasMesh (meshName mesh)) = true) :
    pass.writeGeometry.runOn s =
      (do
        pass.exportMesh ⟨scope.name, mesh, meshName mesh⟩
        return some (Resolved.reference (meshName mesh)) : Compile (Option Resolved)).runOn
        (s.book (meshName mesh)) := by
  unfold Pass.writeGeometry
  rw [runOn_bind_ok (runOn_get s), hscope]
  simp only [hmesh]
  rw [if_pos hnew, runOn_bind_ok (runOn_modifyLedger _ s)]
  rfl

/-- An export that ends well has left the record of the mesh, and one that fails is what the
name is known by from then on. -/
theorem covers_exportMesh (hd : pass.geometry.Delivers) {request : MeshRequest}
    {r : Except Failure Unit} (hs : start.Leads s)
    (h : (pass.exportMesh request).runOn s = (r, t)) : pass.Covers start t request.name := by
  cases r with
  | error failure => exact Or.inr ⟨request, s, t, failure, rfl, hs, h, .refl t⟩
  | ok =>
    unfold Pass.exportMesh at h
    rw [runOn_bind_ok (runOn_get s), runOn_bind_ok (runOn_set _ _)] at h
    obtain ⟨_, u, hrecords, hend⟩ := of_runOn_bind_ok h
    have hout : start.Leads { s with meshes := s.meshes ++ [request] } :=
      hs.trans ⟨.of_eq rfl rfl, List.prefix_append _ _⟩
    cases hf : (pass.geometry.answer s.meshes request).failure with
    | some message =>
      rw [hf] at hend
      cases hend
    | none =>
      rw [hf] at hend
      cases hend
      obtain ⟨r, hr, hn⟩ := hd s.meshes request hf
      exact Or.inl ⟨r, received_writeOut hout hrecords r hr, hn⟩

/-! ### Steps -/

/-- How one state of a context comes to a later one. -/
abbrev Goes (pass : Pass) (start s t : PassState) : Prop :=
  s.Leads t ∧ (Covered pass start s → Covered pass start t)

/-- How a step ends from a state in which every token is covered. -/
abbrev EndsCovered (pass : Pass) (start : PassState) (Q : α → PassState → Prop) (s : PassState) :
    Except Failure α × PassState → Prop :=
  Ends (Covered pass start) (Goes pass start) (fun _ => True) Q s

/-- A step that goes on covering its tokens ends as it should if its results are covered. -/
theorem endsCovered {Q : α → PassState → Prop} {o : Except Failure α × PassState}
    (hs : Covered pass start s) (h : Goes pass start s o.2)
    (hq : ∀ a t, o = (.ok a, t) → Q a t) : EndsCovered pass start Q s o := by
  rcases o with ⟨f | a, t⟩
  · exact ⟨h, trivial, fun _ => h.2 hs⟩
  · exact ⟨h.2 hs, h, hq a t rfl⟩

theorem goes_note (s : PassState) (line : LogLine) : Goes pass start s (s.note line) :=
  ⟨.of_eq rfl rfl rfl, fun hs => hs.keep (.of_eq rfl rfl rfl) rfl (fun _ hm => hm.congr rfl rfl rfl)
    rfl⟩

theorem covered_claimAndEmit {base : String} {reports : List LogLine} {record : String → Record}
    (h : Covered pass start s) (hb : OwnBase base) (hn : ∀ name, (record name).name = name) :
    EndsCovered pass start (fun token t => pass.CoversValue start t (.reference token)) s
      ((pass.claimAndEmit base reports record).runOn s) := by
  have halike := alike_claimAndEmit pass base reports record s
  have hmeshes := handsNothing_claimAndEmit pass base reports record s
  have hl : s.Leads ((pass.claimAndEmit base reports record).runOn s).2 :=
    ⟨halike.appends, hmeshes.meshes ▸ List.prefix_refl _⟩
  refine endsCovered h ⟨hl, fun hs => hs.keep hl halike.overrideToken
    (fun m hm => (halike.holds m).mp hm) hmeshes.entered⟩ fun token t hrun other hother => ?_
  rw [claimAndEmit_runOn] at hrun
  have hname : token = freeName s.ledger.names base := (emit_token hrun).trans (hn _)
  have hfit : isInstanceName token = true := hname ▸ isInstanceName_freeName hb.fit.1 _
  obtain ⟨-, arrived, -, -, hsink⟩ := h.leads.appends
  rw [List.mem_singleton.mp hother, baseName_of_isInstanceName hfit]
  refine Or.inl ⟨record (freeName s.ledger.names base), ?_, (hn _).trans hname.symm⟩
  rw [emit_ok hrun]
  exact .write (emit_whole hrun) _ hsink

/-- A mesh that is entered and exported is covered, whether its export fails or not. -/
theorem goes_exportMesh (hd : pass.geometry.Delivers) (request : MeshRequest)
    (hs : start.Leads s) :
    Goes pass start s ((pass.exportMesh request).runOn (s.book request.name)).2 ∧
      pass.Covers start ((pass.exportMesh request).runOn (s.book request.name)).2
        request.name := by
  have hbook : s.Leads (s.book request.name) := .of_eq rfl rfl rfl
  have hsends := sends_exportMesh pass request (s.book request.name)
  rcases hrun : (pass.exportMesh request).runOn (s.book request.name) with ⟨r, t⟩
  rw [hrun] at hsends
  have hcovers := covers_exportMesh hd (hs.trans hbook) hrun
  have hl : s.Leads t := hbook.trans hsends.leads
  refine ⟨⟨hl, fun hc => hc.next hl hsends.overrideToken (fun m hm => Or.inl ?_)
    fun name hn => ?_⟩, hcovers⟩
  · have hledger : t.ledger = (s.book request.name).ledger := hsends.ledger
    exact hm.congr (by rw [hledger]; rfl) (by rw [hledger]; rfl) (by rw [hledger]; rfl)
  · have hledger : t.ledger = (s.book request.name).ledger := hsends.ledger
    rw [hledger] at hn
    rcases mem_addMember.mp hn with hold | rfl
    · exact Or.inl hold
    · exact Or.inr hcovers

/-- The geometry of an object stands for a mesh that is entered. -/
theorem covered_writeGeometry (hauto : pass.settings.autoMeshes = true)
    (hd : pass.geometry.Delivers) (h : Covered pass start s) :
    EndsCovered pass start (fun value t => ∀ v ∈ value, pass.CoversValue start t v) s
      (pass.writeGeometry.runOn s) := by
  have hvalue : ∀ {mesh : String} {t : PassState}, pass.Covers start t (meshName mesh) →
      pass.CoversValue start t (.reference (meshName mesh)) := by
    intro mesh t hc token ht
    rw [List.mem_singleton.mp ht, baseName_of_isInstanceName (meshName_fit mesh).1]
    exact hc
  have hnone : ∀ {line : LogLine}, pass.writeGeometry.runOn s = (.ok none, s.note line) →
      EndsCovered pass start (fun value t => ∀ v ∈ value, pass.CoversValue start t v) s
        (pass.writeGeometry.runOn s) := by
    intro line hrun
    rw [hrun]
    exact endsCovered h (goes_note s line) fun _ _ he v hv => by cases he; cases hv
  cases hscope : s.scope with
  | none => exact hnone (by rw [writeGeometry_runOn, hscope])
  | some scope =>
    cases hmesh : scope.mesh with
    | none => exact hnone (by rw [writeGeometry_runOn, hscope]; simp only [hmesh]; rfl)
    | some mesh =>
      by_cases hnew : (pass.settings.autoMeshes && !s.ledger.hasMesh (meshName mesh)) = true
      · obtain ⟨hgoes, hcovers⟩ :=
          goes_exportMesh hd ⟨scope.name, mesh, meshName mesh⟩ h.leads
        rw [writeGeometry_new hscope hmesh hnew, runOn_bind]
        generalize (pass.exportMesh ⟨scope.name, mesh, meshName mesh⟩).runOn _ = o
          at hgoes hcovers ⊢
        rcases o with ⟨f | _, t⟩
        · exact ⟨hgoes, trivial, fun _ => hgoes.2 h⟩
        · refine ⟨hgoes.2 h, hgoes, fun v hv => ?_⟩
          cases hv
          exact hvalue hcovers
      · have hold : meshName mesh ∈ s.ledger.meshes := by
          simpa [hauto, Ledger.hasMesh] using hnew
        have hrun : pass.writeGeometry.runOn s = (.ok (some (.reference (meshName mesh))), s) := by
          rw [writeGeometry_runOn, hscope]
          simp only [hmesh]
          rw [if_neg hnew]
        rw [hrun]
        exact endsCovered h ⟨.refl s, id⟩ fun _ _ he v hv => by
          cases he
          cases hv
          exact hvalue (h.meshes _ hold)

/-! ### Brackets -/

namespace Covered

variable {key name token : String}

theorem mark (h : Covered pass start s) (key name : String) : Covered pass start (s.mark key name) :=
  h.keep (.of_eq rfl rfl rfl) rfl (fun _ hm => hm.of_mark) rfl

theorem abandon (h : Covered pass start s) (key name : String) :
    Covered pass start (s.abandon key name) :=
  h.keep (.of_eq rfl rfl rfl) rfl (fun _ hm => hm.of_abandon) rfl

theorem enter (h : Covered pass start s) (name : String) (object : SceneObject) :
    Covered pass start (s.enter name object) :=
  h.keep (.of_eq rfl rfl rfl) rfl (fun _ hm => hm.of_enter) rfl

theorem quit (h : Covered pass start s) (scope : Option ObjectScope) (name : String) :
    Covered pass start (s.quit scope name) :=
  h.keep (.of_eq rfl rfl rfl) rfl (fun _ hm => hm.of_quit) rfl

theorem finish {v : Resolved} (h : Covered pass start s) (hv : pass.CoversValue start s v) :
    Covered pass start (s.finish key name v) :=
  h.next (.of_eq rfl rfl rfl) rfl
    (fun _ hm => hm.of_finish.elim
      (fun he => Or.inr (by rw [he]; exact hv.mono (.of_eq rfl rfl rfl))) Or.inl)
    fun _ hn => Or.inl hn

theorem leave {scope : Option ObjectScope} {result : Option String} (h : Covered pass start s)
    (hv : ∀ token ∈ result, pass.CoversValue start s (.reference token)) :
    Covered pass start (s.leave scope name result) :=
  h.next (.of_eq rfl rfl rfl) rfl
    (fun _ hm => hm.of_leave.elim
      (fun he => Or.inr (by
        rw [he]
        exact fun token ht => (hv token (Option.mem_toList.mp ht) token List.mem_cons_self).mono
          (.of_eq rfl rfl rfl))) Or.inl)
    fun _ hn => Or.inl hn

theorem synthesize (h : Covered pass start s)
    (hv : pass.CoversValue start s (.reference token)) :
    Covered pass start (s.synthesize key token) :=
  h.next (.of_eq rfl rfl rfl) rfl
    (fun _ hm => hm.of_synthesize.elim
      (fun he => Or.inr (by rw [he]; exact hv.mono (.of_eq rfl rfl rfl))) Or.inl)
    fun _ hn => Or.inl hn

end Covered

/-- A bracket that sends nothing of its own goes on as what is inside it does. -/
theorem Goes.around {inner outer : PassState} (h : Goes pass start inner t) (hin : s.Leads inner)
    (hout : t.Leads outer) (henter : Covered pass start s → Covered pass start inner)
    (hleave : Covered pass start t → Covered pass start outer) : Goes pass start s outer :=
  ⟨(hin.trans h.1).trans hout, fun hs => hleave (h.2 (henter hs))⟩

/-! ### The walk -/

/-- Every step of the walk goes on covering its tokens, however it ends. -/
def coveredContract (hauto : pass.settings.autoMeshes = true) (hd : pass.geometry.Delivers)
    (start : PassState) : Contract pass where
  Inv := Covered pass start
  Rel := Goes pass start
  Known _ _ := True
  Made s v := pass.CoversValue start s v
  Val s v := pass.CoversValue start s v
  Fit _ _ := True
  Fault _ := True
  refl s := ⟨.refl s, id⟩
  trans h k := ⟨h.1.trans k.1, fun hs => k.2 (h.2 hs)⟩
  val_of_made h := h
  val_mono h hv := hv.mono h.1
  fault_cycle _ _ := trivial
  known_source _ _ := trivial
  known_material _ _ _ _ _ := trivial
  known_object _ _ _ _ := trivial
  literal _ _ _ := nofun
  transform _ := nofun
  objects h token ht := h token ht token List.mem_cons_self
  default h token ht := by
    rw [List.mem_singleton.mp ht, baseName_of_isIdentifier (by decide)]
    exact h.default
  node {s key name v} h hn := h.entries (.node key name v) hn
  object {s name token} h ho := h.entries (.object name (some token)) ho
  override h ho token ht := by
    rw [List.mem_singleton.mp ht]
    exact h.override _ ho
  synthesized {s key token} h hs := h.entries (.material key token) hs
  select_own _ _ h _ := h.selectOutput _ _
  select_passed _ _ h _ := h.selectOutput _ _
  fit_plugin _ _ _ _ _ := trivial
  fit_texture _ _ _ := trivial
  fit_weight _ _ _ := trivial
  fit_brdf _ _ _ := trivial
  fit_multi _ _ := trivial
  reported h _ := ⟨(goes_note _ _).2 h, goes_note _ _⟩
  emission h hb _ hn _ := covered_claimAndEmit h hb hn
  geometry h := covered_writeGeometry hauto hd h
  synthesize _ _ _ _ hr h hv :=
    ⟨h.synthesize hv, ⟨hr.1.trans (.of_eq rfl rfl rfl), fun _ => h.synthesize hv⟩,
      hv.mono (.of_eq rfl rfl rfl)⟩
  hide h _ _ _ := ⟨h.leave nofun, .of_eq rfl rfl rfl, fun hs => hs.leave nofun⟩
  mark key name h := h.mark key name
  finish _ _ _ hr h hv :=
    ⟨h.finish hv, hr.around (.of_eq rfl rfl rfl) (.of_eq rfl rfl rfl) (·.mark _ _) (·.finish hv),
      hv.mono (.of_eq rfl rfl rfl)⟩
  abandon _ _ hr :=
    ⟨hr.around (.of_eq rfl rfl rfl) (.of_eq rfl rfl rfl) (·.mark _ _) (·.abandon _ _),
      (·.abandon _ _)⟩
  enter {s name object} h _ := h.enter name object
  leave _ _ _ _ hr h hv :=
    ⟨h.leave hv, hr.around (.of_eq rfl rfl rfl) (.of_eq rfl rfl rfl) (·.enter _ _) (·.leave hv),
      fun token ht => (hv token ht).mono (.of_eq rfl rfl rfl)⟩
  quit _ _ _ _ hr :=
    ⟨hr.around (.of_eq rfl rfl rfl) (.of_eq rfl rfl rfl) (·.enter _ _) (·.quit _ _),
      fun _ => (·.quit _ _)⟩

/-! ### Contexts -/

/-- A query ends so that every token is covered, those that it gives back among them. -/
theorem covered_query (hauto : pass.settings.autoMeshes = true) (hd : pass.geometry.Delivers)
    (depth : Nat) (query : Query) (h : Covered pass start s) :
    EndsCovered pass start (fun value t => ∀ v ∈ value, pass.CoversValue start t v) s
      ((query.compile pass (pass.walk depth)).runOn s) := by
  let K := coveredContract hauto hd start
  have hc : K.Compiles (pass.walk depth) := Contract.walk K trivial depth
  have hreference : ∀ {c : Compile String},
      K.Keeps (fun _ => True) c (fun token t => K.Val t (.reference token)) →
      K.Keeps (fun _ => True) (c >>= fun token => pure (some (.reference token)))
        fun value t => ∀ v ∈ value, K.Val t v := fun hk =>
    hk.bind fun token => Contract.keeps_pure fun t ht v hv => by cases hv; exact ht
  have hselect : ∀ (tree : NodeTree) (node : Node) (names : List String),
      K.Keeps (fun _ => True) (pass.select (pass.walk depth) tree node names >>= fun v =>
        pure (some v)) fun value t => ∀ v ∈ value, K.Val t v := fun tree node names =>
    (Contract.keeps_select (Contract.keeps_writeObject hc)).bind fun v =>
      Contract.keeps_pure fun t ht w hw => by cases hw; exact ht
  cases query with
  | call made =>
    cases made with
    | node tree node useLiterals =>
      exact ((hc tree node useLiterals trivial).imp (fun _ h => h) fun _ _ hq v hv =>
        (hq v hv).val) s h trivial
    | material tree =>
      exact hreference (Contract.keeps_writeMaterialTree hc fun _ _ _ _ _ _ _ => trivial) s h trivial
    | ownMaterial => exact hreference (Contract.keeps_writeObjectMaterial hc) s h trivial
    | object name =>
      refine ((Contract.keeps_writeObject hc name).bind fun token =>
        Contract.keeps_pure fun t ht v hv => ?_) s h trivial
      obtain ⟨token, htoken, rfl⟩ := Option.map_eq_some_iff.mp hv
      exact ht token htoken
  | geometry => exact covered_writeGeometry hauto hd h
  | selectObject tree node object => exact hselect tree node _ s h trivial
  | selectGroup tree node group => exact hselect tree node _ s h trivial
  | scope other =>
    refine endsCovered h ⟨.of_eq rfl rfl rfl, fun hs => hs.keep (.of_eq rfl rfl rfl) rfl
      (fun m hm => hm.congr rfl rfl rfl) rfl⟩ fun value t he v hv => ?_
    cases he
    cases hv

/-- Whatever is asked for, and however it ends, every token at hand is covered. -/
theorem covered_serve (hauto : pass.settings.autoMeshes = true) (hd : pass.geometry.Delivers)
    (depth : Nat) (queries : List Query) (h : Covered pass start s) :
    Covered pass start (pass.serve depth queries s) := by
  induction queries generalizing s with
  | nil => exact h
  | cons query rest ih =>
    refine ih (s := ((query.compile pass (pass.walk depth)).runOn s).2) ?_
    have hends := covered_query hauto hd depth query h
    generalize (query.compile pass (pass.walk depth)).runOn s = o at hends ⊢
    rcases o with ⟨f | value, t⟩
    · exact hends.1.2 h
    · exact hends.1

/-- A context that has written its default material has no token but that. -/
theorem covered_writeDefaults (hledger : s.ledger = {}) (hover : s.overrideToken = none)
    (h : pass.writeDefaults.runOn s = (.ok (), t)) : Covered pass s t := by
  have halike := alike_writeDefaults pass s
  have hnothing := handsNothing_writeDefaults pass s
  rw [h] at halike hnothing
  have hempty : ∀ m, ¬ s.Holds m := fun m hm => by
    cases m <;> rw [PassState.Holds, hledger] at hm <;> cases hm
  unfold Pass.writeDefaults at h
  rw [runOn_bind_ok (runOn_get s), hledger, if_neg (by decide)] at h
  obtain ⟨_, u, hbrdf, h⟩ := of_runOn_bind_ok h
  obtain ⟨_, w, hmaterial, h⟩ := of_runOn_bind_ok h
  obtain rfl : w = t := (Prod.mk.inj h).2
  have hbegun := alike_emit pass defaultBrdfRecord s
  rw [hbrdf] at hbegun
  obtain ⟨-, arrived, -, -, hsink⟩ := hbegun.appends
  refine ⟨⟨halike.appends, hnothing.meshes ▸ List.prefix_refl _⟩,
    Or.inl ⟨defaultMaterialRecord, ?_, rfl⟩, fun token ho => ?_,
    fun m hm => absurd ((halike.holds m).mp hm) (hempty m), fun name hn => ?_⟩
  · rw [emit_ok hmaterial]
    exact .write (emit_whole hmaterial) _ hsink
  · rw [halike.overrideToken, hover] at ho
    cases ho
  · rw [hnothing.entered, hledger] at hn
    cases hn

/-- **References stay sound, but for meshes whose export failed.** A context with automatic
meshes has written the default material and serves any queries, each of which may be refused
records or fail at a mesh. If another one ends well then, each token it gives back is, up to the
selectors behind it, the name of a record that went through, or of a mesh whose export has
failed. The geometry exporter may do anything as long as it writes the record of a mesh
wherever it does not fail. -/
theorem references_covered (pass : Pass) (hauto : pass.settings.autoMeshes = true)
    (hd : pass.geometry.Delivers) (depth : Nat) (s first : PassState) (hledger : s.ledger = {})
    (hover : s.overrideToken = none) (hdefaults : pass.writeDefaults.runOn s = (.ok (), first))
    (earlier : List Query) (query : Query) (value : Resolved) (t : PassState)
    (h : (query.compile pass (pass.walk depth)).runOn (pass.serve depth earlier first) =
      (.ok (some value), t)) :
    ∀ token ∈ value.tokens,
      (∃ r, s.sink.Received t.sink r ∧ r.name = baseName token) ∨
        pass.Lost s t (baseName token) := by
  have hends := covered_query hauto hd depth query
    (covered_serve hauto hd depth earlier (covered_writeDefaults hledger hover hdefaults))
  rw [h] at hends
  exact hends.2.2 value rfl

/-- Two objects with a mesh each, at a destination that refuses the third record. -/
def shelfPass : Pass where
  scene := (({} : Scene).addObject "Left" { mesh := some "Box" }).addObject "Right"
    { mesh := some "Ball" }
  catalog := Catalog.builtin
  settings := {}
  geometry := .bare
  refuses := fun index => index == 2
  frame := 1

theorem bare_delivers : GeometryExporter.bare.Delivers :=
  fun _ _ _ => ⟨_, List.mem_cons_self, rfl⟩

/-- The mesh of the first object is refused and so the object fails. The second object is
written all the same, and has a token. -/
theorem references_covered_shelf :
    shelfPass.settings.autoMeshes = true ∧ shelfPass.geometry.Delivers ∧
    ∃ first t, shelfPass.writeDefaults.runOn {} = (.ok (), first) ∧
      ((Query.call (.object "Left")).compile shelfPass (shelfPass.walk 1)).runOn first =
        (.error .sinkFull, shelfPass.serve 1 [.call (.object "Left")] first) ∧
      ((Query.call (.object "Right")).compile shelfPass (shelfPass.walk 1)).runOn
        (shelfPass.serve 1 [.call (.object "Left")] first) =
          (.ok (some (.reference "OBRight")), t) ∧
      ∃ r, (Sink.records {}).Received t.sink r ∧ r.name = "OBRight" := by
  let first := (shelfPass.writeDefaults.runOn {}).2
  let failed := shelfPass.serve 1 [.call (.object "Left")] first
  let t := (((Query.call (.object "Right")).compile shelfPass (shelfPass.walk 1)).runOn failed).2
  have hfirst : shelfPass.writeDefaults.runOn {} = (.ok (), first) := by decide +kernel
  have hleft : ((Query.call (.object "Left")).compile shelfPass (shelfPass.walk 1)).runOn first =
      (.error .sinkFull, failed) := by decide +kernel
  have hright : ((Query.call (.object "Right")).compile shelfPass (shelfPass.walk 1)).runOn
      failed = (.ok (some (.reference "OBRight")), t) := by decide +kernel
  refine ⟨rfl, bare_delivers, first, t, hfirst, hleft, hright, ?_⟩
  have hbase : baseName "OBRight" = "OBRight" := by decide
  have hcovers := references_covered shelfPass rfl bare_delivers 1 {} first rfl rfl hfirst
    [.call (.object "Left")] _ _ t hright "OBRight" List.mem_cons_self
  rw [hbase] at hcovers
  -- no mesh goes by the name of the object
  refine hcovers.resolve_right fun hlost => ?_
  obtain ⟨request, hrequest, hname⟩ := hlost.handedOut
  exact absurd hname ((by decide +kernel : ∀ q ∈ t.meshes, q.name ≠ "OBRight") request hrequest)

/-- **A mesh is referred to that was never written.** The geometry of an object fails because
the record of its mesh is refused, and is asked for again. This time it is a reference, and no
record of that name ever went through. -/
theorem mesh_referred_unwritten :
    let first := (shelfPass.writeDefaults.runOn {}).2
    let inScope := shelfPass.serve 1 [.scope (some ⟨"Left", some "Box", none⟩)] first
    let failed := (Query.geometry.compile shelfPass (shelfPass.walk 1)).runOn inScope
    let again := (Query.geometry.compile shelfPass (shelfPass.walk 1)).runOn failed.2
    shelfPass.settings.autoMeshes = true ∧ shelfPass.geometry.Delivers ∧
    (shelfPass.writeDefaults.runOn {}).1 = .ok () ∧ failed.1 = .error .sinkFull ∧
    again.1 = .ok (some (.reference "MEBox")) ∧
    ∀ r, (Sink.records {}).Received again.2.sink r → r.name ≠ baseName "MEBox" := by
  intro first inScope failed again
  have hsink : again.2.sink = .records { records := [defaultBrdfRecord, defaultMaterialRecord] } := by
    decide +kernel
  refine ⟨rfl, bare_delivers, by decide +kernel, by decide +kernel, by decide +kernel,
    fun r hr => ?_⟩
  have hholds := hr.holds
  rw [hsink] at hholds
  have hmem : r ∈ [defaultBrdfRecord, defaultMaterialRecord] := hholds
  exact (by decide : ∀ q ∈ [defaultBrdfRecord, defaultMaterialRecord],
    q.name ≠ baseName "MEBox") r hmem

end ShadeNet
