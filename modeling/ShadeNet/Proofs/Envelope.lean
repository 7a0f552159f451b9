/-
# The frame is seen in envelopes alone

Two passes over one job that are keyed to different frames, or of which one keys its
literals and the other does not, run side by side: they compile the same things under the
same names, in the same order, and are refused the same records. What they write differs in
the envelope of a literal and nowhere else. No text that is compared or looked up during a
pass is a literal, so nothing the walk decides depends on the frame.

Key definitions: `Pass.retimed`, `IsKeyed`, `Pass.SameValue`, `Pass.Alongside`, `Pass.Matches`,
`PassState.Beside`, `Agree`, `retimedPairing`.
Key theorems: `Pass.spellParam_beside`, `Pass.Renders.alongside`, `agree_body`,
`passes_differ_in_envelopes`, `later_frame_does_not_fit`.
-/
import Mathlib.Data.List.Forall2
import ShadeNet.Proofs.Delivery
import ShadeNet.Proofs.Pairing
import ShadeNet.Schema.Builtin

namespace ShadeNet

open Compile

variable {α β : Type}

/-- The job with its literals keyed to frames, or not. -/
def Job.animated (job : Job) (animation : Bool) : Job :=
  { job with settings := { job.settings with animation := animation } }

/-- The pass at another frame, with its literals keyed to it or not. -/
def Pass.retimed (pass : Pass) (frame : Int32) (animation : Bool) : Pass :=
  { pass with toJob := pass.toJob.animated animation, frame := frame }

/-- The texts that an envelope may be put around: literals that are neither strings nor
paths, and lists of numbers. -/
inductive IsKeyed : String → Prop
  | literal (value : Value) (h : value.type ≠ .string) : IsKeyed value.text
  | numbers (items : List String) : IsKeyed (listText .floats items)

/-- The values that two passes give an attribute come from one text: they are that text, or
each is the text in the envelope of its pass. -/
inductive Pass.SameValue (one two : Pass) : String → String → Prop
  | plain (text : String) : SameValue one two text text
  | keyed {text : String} (h : IsKeyed text) :
    SameValue one two (one.animatedText text) (two.animatedText text)

/-- The records of two passes agree but for the envelopes of literals. -/
structure Pass.Alongside (one two : Pass) (r r' : Record) : Prop where
  plugin : r'.plugin = r.plugin
  name : r'.name = r.name
  category : r'.category = r.category
  attrs : List.Forall₂ (fun a b => b.1 = a.1 ∧ one.SameValue two a.2 b.2) r.attrs r'.attrs

/-- What two passes write agrees: records but for the envelopes of literals, and text that is
no record word for word. -/
inductive Pass.Matches (one two : Pass) : Entry → Entry → Prop
  | record {r r' : Record} (h : one.Alongside two r r') : Matches one two (.record r) (.record r')
  | remark (text : String) : Matches one two (.remark text) (.remark text)

/-! ### Values -/

section Values

variable {pass : Pass} {frame : Int32} {animation : Bool}

/-- Lists whose members are equal in turn are equal. -/
theorem eq_of_forall₂ {R : α → α → Prop} (hR : ∀ a b, R a b → b = a) {l l' : List α}
    (h : List.Forall₂ R l l') : l' = l := by
  induction h with
  | nil => rfl
  | cons hab _ ih => rw [ih, hR _ _ hab]

theorem Pass.SameValue.eq {one two : Pass} (hone : one.settings.animation = false)
    (htwo : two.settings.animation = false) {v w : String} (h : one.SameValue two v w) :
    w = v := by
  cases h with
  | plain text => rfl
  | keyed h => simp [animatedText, hone, htwo]

/-- Without envelopes nothing is left to differ. -/
theorem Pass.Alongside.eq {one two : Pass} (hone : one.settings.animation = false)
    (htwo : two.settings.animation = false) {r r' : Record} (h : one.Alongside two r r') :
    r' = r := by
  obtain ⟨hplugin, hname, hcategory, hattrs⟩ := h
  have hlist := eq_of_forall₂ (fun a b hab => Prod.ext hab.1 (hab.2.eq hone htwo)) hattrs
  cases r
  cases r'
  simp_all

theorem Pass.Matches.eq {one two : Pass} (hone : one.settings.animation = false)
    (htwo : two.settings.animation = false) {e e' : Entry} (h : one.Matches two e e') : e' = e := by
  cases h with
  | record h => rw [h.eq hone htwo]
  | remark text => rfl

/-- What two passes make of a parameter: the same, or one literal in two envelopes. -/
inductive Spelling.Beside (one two : Pass) : Spelling → Spelling → Prop
  | same (spelling : Spelling) : Beside one two spelling spelling
  | keyed {text : String} (h : IsKeyed text) :
    Beside one two (.written (one.animatedText text)) (.written (two.animatedText text))

theorem Spelling.Beside.report?_eq {one two : Pass} {a b : Spelling} (h : a.Beside one two b)
    (attr : String) : b.report? attr = a.report? attr := by
  cases h with
  | same => rfl
  | keyed => simp only [Spelling.report?]

/-- A parameter is left out of both records or stands in both. -/
theorem Spelling.Beside.attr {one two : Pass} {a b : Spelling} (h : a.Beside one two b)
    (attr : String) :
    Option.Rel (fun p q : String × String => q.1 = p.1 ∧ one.SameValue two p.2 q.2)
      (a.value?.map fun value => (attr, value)) (b.value?.map fun value => (attr, value)) := by
  cases h with
  | same =>
    cases a with
    | omitted => exact .none
    | fileMissing path => exact .none
    | written value => exact .some ⟨rfl, .plain value⟩
  | keyed h => exact .some ⟨rfl, .keyed h⟩

/-- What is picked from one list in two ways agrees in turn if each pick does. -/
theorem forall₂_filterMap {R : β → β → Prop} {f g : α → Option β}
    (h : ∀ a, Option.Rel R (f a) (g a)) (l : List α) :
    List.Forall₂ R (l.filterMap f) (l.filterMap g) := by
  induction l with
  | nil => exact .nil
  | cons a rest ih =>
    have hpick := h a
    rw [List.filterMap_cons, List.filterMap_cons]
    generalize f a = x at hpick ⊢
    generalize g a = y at hpick ⊢
    cases hpick with
    | none => exact ih
    | some hr => exact .cons hr ih

/-- The records of entries that agree in turn agree in turn. -/
theorem forall₂_recordsOf {one two : Pass} {entries entries' : List Entry}
    (h : List.Forall₂ (one.Matches two) entries entries') :
    List.Forall₂ (one.Alongside two) (recordsOf entries) (recordsOf entries') := by
  induction h with
  | nil => exact .nil
  | cons he _ ih =>
    cases he with
    | record hr => exact .cons hr ih
    | remark text => exact ih

namespace Pass

theorem spellLiteral_beside (param : ParamDesc) (value : Value) :
    (pass.spellLiteral param value).Beside pass (pass.retimed frame animation)
      ((pass.retimed frame animation).spellLiteral param value) := by
  cases value with
  | string text => exact .same _
  | path text => exact .same _
  | bool b => exact .keyed (.literal (.bool b) nofun)
  | int i => exact .keyed (.literal (.int i) nofun)
  | enum i => exact .keyed (.literal (.enum i) nofun)
  | float x => exact .keyed (.literal (.float x) nofun)
  | color c => exact .keyed (.literal (.color c) nofun)
  | aColor c a => exact .keyed (.literal (.aColor c a) nofun)
  | vector v => exact .keyed (.literal (.vector v) nofun)
  | transform t => exact .keyed (.literal (.transform t) nofun)

theorem spellResolved_beside (param : ParamDesc) (resolved : Resolved) :
    (pass.spellResolved param resolved).Beside pass (pass.retimed frame animation)
      ((pass.retimed frame animation).spellResolved param resolved) := by
  cases resolved with
  | literal value => exact spellLiteral_beside param value
  | reference token => exact .same _
  | objects tokens => exact .same _

/-- What becomes of a parameter does not depend on the frame, but for the envelope. -/
theorem spellParam_beside (params : OrderedMap String Value)
    (supplied : OrderedMap String Resolved) (param : ParamDesc) :
    (pass.spellParam params supplied param).Beside pass (pass.retimed frame animation)
      ((pass.retimed frame animation).spellParam params supplied param) := by
  unfold spellParam
  split
  · exact .same _
  · split
    · exact spellResolved_beside param _
    · split
      · exact .same _
      · split
        · exact spellLiteral_beside param _
        · exact .same _

theorem pluginReports_retimed (desc : PluginDesc) (params : OrderedMap String Value)
    (supplied : OrderedMap String Resolved) :
    (pass.retimed frame animation).pluginReports desc params supplied =
      pass.pluginReports desc params supplied :=
  List.filterMap_congr fun param _ => (spellParam_beside params supplied param).report?_eq _

/-- A record is written with the same attributes in the same order. -/
theorem pluginRecord_alongside (desc : PluginDesc) (name : String)
    (params : OrderedMap String Value) (supplied : OrderedMap String Resolved) :
    pass.Alongside (pass.retimed frame animation) (pass.pluginRecord desc name params supplied)
      ((pass.retimed frame animation).pluginRecord desc name params supplied) where
  plugin := rfl
  name := rfl
  category := rfl
  attrs := forall₂_filterMap (fun param => (spellParam_beside params supplied param).attr _)
    desc.sortedParams

end Pass

theorem Pass.Alongside.refl {one two : Pass} (r : Record) : one.Alongside two r r where
  plugin := rfl
  name := rfl
  category := rfl
  attrs := List.forall₂_same.mpr fun a _ => ⟨rfl, .plain a.2⟩

/-- **One record in two passes.** Whatever a pass writes, a pass at another frame writes
but for envelopes. -/
theorem Pass.Renders.alongside {r r' : Record}
    (h : pass.Renders (pass.retimed frame animation) r r') :
    pass.Alongside (pass.retimed frame animation) r r' := by
  cases h with
  | plugin desc name params supplied => exact pluginRecord_alongside desc name params supplied
  | texture name layers =>
    exact ⟨rfl, rfl, rfl, .cons ⟨rfl, .plain _⟩ (.cons ⟨rfl, .keyed (.numbers _)⟩ .nil)⟩
  | weight name weight => exact ⟨rfl, rfl, rfl, .cons ⟨rfl, .keyed (.literal _ nofun)⟩ .nil⟩
  | brdf name layers additive =>
    exact ⟨rfl, rfl, rfl, .cons ⟨rfl, .plain _⟩ (.cons ⟨rfl, .plain _⟩
      (.cons ⟨rfl, .keyed (.literal _ nofun)⟩ .nil))⟩
  | fixed r => exact .refl r

end Values

/-! ### Runs beside each other -/

/-- Two passes stand at the same place: the walk sees the same in both states, the same
meshes were handed out, as many records were sent, and what was written since `start` and
`start'` is the same but for envelopes. -/
structure PassState.Beside (one two : Pass) (start start' : Sink) (s t : PassState) : Prop where
  sees : s.Sees t
  meshes : t.meshes = s.meshes
  sent : t.sent.length = s.sent.length
  written : ∃ entries entries' : List Entry,
    s.sink = start.writeAll entries ∧ t.sink = start'.writeAll entries' ∧
    List.Forall₂ (one.Matches two) entries entries'

/-- Steps of two passes that agree: from states beside each other they come to the same
result and to states beside each other. -/
def Agree (one two : Pass) (start start' : Sink) (c d : Compile α) : Prop :=
  ∀ s t, s.Beside one two start start' t →
    (d.runOn t).1 = (c.runOn s).1 ∧ (c.runOn s).2.Beside one two start start' (d.runOn t).2

section Steps

variable {one two : Pass} {start start' : Sink}

theorem agree_pure (a : α) : Agree one two start start' (pure a) (pure a) :=
  fun _ _ h => ⟨rfl, h⟩

theorem agree_throw (f : Failure) :
    Agree one two start start' (throw f : Compile α) (throw f) :=
  fun _ _ h => ⟨rfl, h⟩

theorem agree_report (line : LogLine) : Agree one two start start' (report line) (report line) :=
  fun _ _ h => ⟨rfl, ⟨h.sees.ledger, h.sees.scope, h.sees.overrideToken⟩, h.meshes, h.sent,
    h.written⟩

theorem agree_modifyLedger (f : Ledger → Ledger) :
    Agree one two start start' (modifyLedger f) (modifyLedger f) :=
  fun _ _ h => ⟨rfl, ⟨congrArg f h.sees.ledger, h.sees.scope, h.sees.overrideToken⟩, h.meshes,
    h.sent, h.written⟩

theorem agree_claimName (base : String) :
    Agree one two start start' (claimName base) (claimName base) := by
  intro s t h
  rw [runOn_claimName, runOn_claimName, h.sees.ledger]
  exact ⟨rfl, ⟨rfl, h.sees.scope, h.sees.overrideToken⟩, h.meshes, h.sent, h.written⟩

theorem agree_replaceScope (scope : Option ObjectScope) :
    Agree one two start start' (replaceScope scope) (replaceScope scope) := by
  intro s t h
  rw [runOn_replaceScope, runOn_replaceScope, h.sees.scope]
  exact ⟨rfl, ⟨h.sees.ledger, rfl, h.sees.overrideToken⟩, h.meshes, h.sent, h.written⟩

theorem agree_choose (token : String) : Agree one two start start'
    (modify fun s : PassState => { s with overrideToken := some token })
    (modify fun s : PassState => { s with overrideToken := some token }) :=
  fun _ _ h => ⟨rfl, ⟨h.sees.ledger, h.sees.scope, rfl⟩, h.meshes, h.sent, h.written⟩

theorem Agree.bind {c d : Compile α} {f g : α → Compile β} (hc : Agree one two start start' c d)
    (hf : ∀ a, Agree one two start start' (f a) (g a)) :
    Agree one two start start' (c >>= f) (d >>= g) := by
  intro s t h
  obtain ⟨heq, hnext⟩ := hc s t h
  rw [runOn_bind, runOn_bind]
  rcases hrun : c.runOn s with ⟨e | a, s'⟩ <;> rcases hrun' : d.runOn t with ⟨e' | a', t'⟩ <;>
    rw [hrun, hrun'] at heq hnext <;> cases heq
  · exact ⟨rfl, hnext⟩
  · exact hf a s' t' hnext

theorem Agree.get {f g : PassState → Compile α} (hf : ∀ s, Agree one two start start' (f s) (g s))
    (hg : ∀ s t, s.Sees t → g s = g t) :
    Agree one two start start' (get >>= f) (get >>= g) := by
  intro s t h
  rw [runOn_bind_ok (runOn_get s), runOn_bind_ok (runOn_get t), ← hg s t h.sees]
  exact hf s s t h

theorem Agree.attempt {c d : Compile α} {g : Except Failure α → Compile β}
    (hc : Agree one two start start' c d) (hg : ∀ r, Agree one two start start' (g r) (g r)) :
    Agree one two start start' (attempt c >>= g) (attempt d >>= g) := by
  intro s t h
  obtain ⟨heq, hnext⟩ := hc s t h
  rw [runOn_bind_ok (runOn_attempt c s), runOn_bind_ok (runOn_attempt d t), heq]
  exact hg _ _ _ hnext

theorem agree_forM {f g : α → Compile Unit} {l : List α}
    (h : ∀ a, Agree one two start start' (f a) (g a)) :
    Agree one two start start' (l.forM f) (l.forM g) := by
  induction l with
  | nil => exact agree_pure _
  | cons a rest ih => exact (h a).bind fun _ => ih

end Steps

/-! ### Passes at two frames -/

section Retimed

variable (pass : Pass) (frame : Int32) (animation : Bool) {start start' : Sink}
variable (hstart : start.unlimited = true) (hstart' : start'.unlimited = true)

include hstart hstart'

/-- One more entry is written in both passes. -/
theorem written_concat {s t : PassState}
    (h : s.Beside pass (pass.retimed frame animation) start start' t) {e e' : Entry}
    (he : pass.Matches (pass.retimed frame animation) e e') :
    (s.sink.write e).2 = true ∧ (t.sink.write e').2 = true ∧
    ∃ entries entries' : List Entry,
      (s.sink.write e).1 = start.writeAll entries ∧
      (t.sink.write e').1 = start'.writeAll entries' ∧
      List.Forall₂ (pass.Matches (pass.retimed frame animation)) entries entries' := by
  obtain ⟨entries, entries', hs, ht, hall⟩ := h.written
  refine ⟨(Sink.write_of_unlimited (hs ▸ Sink.unlimited_writeAll hstart _) e).1,
    (Sink.write_of_unlimited (ht ▸ Sink.unlimited_writeAll hstart' _) e').1,
    entries ++ [e], entries' ++ [e'], ?_, ?_, List.rel_append hall (.cons he .nil)⟩
  · rw [Sink.writeAll_append, ← hs]
    rfl
  · rw [Sink.writeAll_append, ← ht]
    rfl

theorem agree_writeRecord {r r' : Record}
    (h : pass.Alongside (pass.retimed frame animation) r r') :
    Agree pass (pass.retimed frame animation) start start' (pass.writeRecord r)
      ((pass.retimed frame animation).writeRecord r') := by
  intro s t hst
  obtain ⟨hsink, hsink', hwritten⟩ :=
    written_concat pass frame animation hstart hstart' hst (.record h)
  have hsent : (t.sent ++ [r']).length = (s.sent ++ [r]).length := by simp [hst.sent]
  have hrefuses : (pass.retimed frame animation).refuses t.sent.length =
      pass.refuses s.sent.length := by rw [hst.sent]; rfl
  rw [writeRecord_runOn, writeRecord_runOn, hrefuses, if_pos hsink, if_pos hsink']
  split
  · exact ⟨rfl, ⟨hst.sees.ledger, hst.sees.scope, hst.sees.overrideToken⟩, hst.meshes, hsent,
      hst.written⟩
  · exact ⟨rfl, ⟨hst.sees.ledger, hst.sees.scope, hst.sees.overrideToken⟩, hst.meshes, hsent,
      hwritten⟩

/-- What is written for a mesh is written in both passes. -/
theorem agree_writeOut (e : Entry) :
    Agree pass (pass.retimed frame animation) start start' (pass.writeOut e)
      ((pass.retimed frame animation).writeOut e) := by
  cases e with
  | record r => exact agree_writeRecord pass frame animation hstart hstart' (.refl r)
  | remark text =>
    intro s t hst
    obtain ⟨hsink, hsink', hwritten⟩ :=
      written_concat pass frame animation hstart hstart' hst (.remark text)
    rw [Pass.writeOut_remark, Pass.writeOut_remark, writeRemark_runOn, writeRemark_runOn,
      if_pos hsink, if_pos hsink']
    exact ⟨rfl, ⟨hst.sees.ledger, hst.sees.scope, hst.sees.overrideToken⟩, hst.meshes, hst.sent,
      hwritten⟩

theorem agree_emit {r r' : Record} (h : pass.Alongside (pass.retimed frame animation) r r') :
    Agree pass (pass.retimed frame animation) start start' (pass.emit r)
      ((pass.retimed frame animation).emit r') := by
  unfold Pass.emit
  rw [h.name]
  refine (agree_writeRecord pass frame animation hstart hstart' h).bind fun _ =>
    Agree.get (fun s => ?_) fun s t hst => by rw [hst.ledger]
  split
  · exact (agree_report _).bind fun _ => (agree_modifyLedger _).bind fun _ => agree_pure _
  · exact (agree_modifyLedger _).bind fun _ => agree_pure _

/-- Both passes hand out the same meshes and get the same answers. -/
theorem agree_writeGeometry :
    Agree pass (pass.retimed frame animation) start start' pass.writeGeometry
      (pass.retimed frame animation).writeGeometry := by
  intro s t h
  have hgeometry : (pass.retimed frame animation).geometry = pass.geometry := rfl
  have hmeshes : (pass.retimed frame animation).settings.autoMeshes =
    pass.settings.autoMeshes := rfl
  rw [writeGeometry_runOn, writeGeometry_runOn, h.sees.scope, hmeshes, h.sees.ledger, hgeometry,
    h.meshes]
  rcases s.scope with _ | scope
  · exact (agree_report .geometryOutsideObject).bind (fun _ => agree_pure none) s t h
  simp only
  rcases scope.mesh with _ | mesh
  · exact (agree_report (.objectWithoutMesh scope.name)).bind (fun _ => agree_pure none) s t h
  simp only
  split
  · have hout : (s.handOut ⟨scope.name, mesh, meshName mesh⟩).Beside pass
        (pass.retimed frame animation) start start'
        (t.handOut ⟨scope.name, mesh, meshName mesh⟩) :=
      ⟨⟨by simp [PassState.handOut, h.sees.ledger], h.sees.scope, h.sees.overrideToken⟩,
        by simp [PassState.handOut, h.meshes], h.sent, h.written⟩
    obtain ⟨heq, hnext⟩ := agree_forM
      (l := (pass.geometry.answer s.meshes ⟨scope.name, mesh, meshName mesh⟩).entries)
      (agree_writeOut pass frame animation hstart hstart') _ _ hout
    generalize Compile.runOn _ (s.handOut _) = o at heq hnext ⊢
    generalize Compile.runOn _ (t.handOut _) = p at heq hnext ⊢
    rcases o with ⟨e | u, s'⟩ <;> rcases p with ⟨e' | u', t'⟩ <;> cases heq
    · exact ⟨rfl, hnext⟩
    · unfold geometryEnd
      cases (pass.geometry.answer s.meshes ⟨scope.name, mesh, meshName mesh⟩).failure <;>
        exact ⟨rfl, hnext⟩
  · exact ⟨rfl, h⟩

/-- The agreement of a pass with the pass at another frame, as a comparison that the walk
keeps. -/
def retimedPairing : Pairing pass (pass.retimed frame animation) where
  Pairs := Agree pass (pass.retimed frame animation) start start'
  scene := rfl
  catalog := rfl
  override := rfl
  reports := Pass.pluginReports_retimed
  pure := agree_pure
  throw := agree_throw
  get := Agree.get
  report := agree_report
  modifyLedger := agree_modifyLedger
  claimName := agree_claimName
  replaceScope := agree_replaceScope
  choose := agree_choose
  emit h := agree_emit pass frame animation hstart hstart' h.alongside
  writeGeometry := agree_writeGeometry pass frame animation hstart hstart'
  bind := Agree.bind
  attempt hc hg _ := hc.attempt hg

theorem agree_walk : ∀ depth,
    (retimedPairing pass frame animation hstart hstart').PairsAll (pass.walk depth)
      ((pass.retimed frame animation).walk depth)
  | 0 => fun _ _ _ => agree_throw _
  | depth + 1 => (retimedPairing pass frame animation hstart hstart').compileNode
      (agree_walk depth)

/-- All that two passes do behind their heads agrees. -/
theorem agree_body : Agree pass (pass.retimed frame animation) start start'
    (pass.body pass.items.length)
    ((pass.retimed frame animation).body (pass.retimed frame animation).items.length) :=
  (retimedPairing pass frame animation hstart hstart').body
    (agree_walk pass frame animation hstart hstart' _)

end Retimed

/-- **The frame is seen in envelopes alone.** Take two passes over a job into a destination
that takes any text, at any two frames and with any two settings of the animation. Both end
with the same failure, or with the same numbers of records and of nodes. They hand out the
same meshes. The records they write behind their heads are as many, and those at one place
agree in plugin, name, category and the names of attributes; the values of an attribute are
one text, or one literal in the envelope of either pass. What text stands between the records
is the same, and without animation so are the records. Any of the records may be refused, and
any mesh may fail. -/
theorem passes_differ_in_envelopes (job : Job) (outside : Surroundings) (animation : Bool)
    (frame frame' : Int32) (s : PassState) (hs : s.sink.unlimited = true) :
    let one : Pass := { toJob := job, toSurroundings := outside, frame := frame }
    let two : Pass :=
      { toJob := job.animated animation, toSurroundings := outside, frame := frame' }
    let first := (job.exportFrame outside frame).runOn s
    let second := ((job.animated animation).exportFrame outside frame').runOn s
    ((∃ records nodes, first.1 = .ok ⟨frame, records, nodes⟩ ∧
        second.1 = .ok ⟨frame', records, nodes⟩) ∨
      ∃ failure, first.1 = .error failure ∧ second.1 = .error failure) ∧
    second.2.meshes = first.2.meshes ∧
    ∃ entries entries' : List Entry,
      first.2.sink = s.sink.writeAll (.remark (headerText job.scene.name frame) :: entries) ∧
      second.2.sink = s.sink.writeAll (.remark (headerText job.scene.name frame') :: entries') ∧
      List.Forall₂ (one.Matches two) entries entries' ∧
      List.Forall₂ (one.Alongside two) (recordsOf entries) (recordsOf entries') ∧
      (job.settings.animation = false → animation = false → entries' = entries) := by
  intro one two first second
  have hone := Sink.write_of_unlimited hs one.header
  have htwo := Sink.write_of_unlimited hs two.header
  have hfirst : first = _ := one.run_of_head hone.1
  have hsecond : second = _ := two.run_of_head htwo.1
  have hheaded : (one.headed s).Beside one two (one.headed s).sink (two.headed s).sink
      (two.headed s) := ⟨⟨rfl, rfl, rfl⟩, rfl, rfl, [], [], rfl, rfl, .nil⟩
  obtain ⟨heq, hbeside⟩ := agree_body one frame' animation hone.2 htwo.2 _ _ hheaded
  rw [hfirst, hsecond]
  change ((two.body two.items.length).runOn (two.headed s)).1 = _ at heq
  change PassState.Beside one two _ _ _ ((two.body two.items.length).runOn (two.headed s)).2
    at hbeside
  generalize (one.body one.items.length).runOn (one.headed s) = o at heq hbeside ⊢
  generalize (two.body two.items.length).runOn (two.headed s) = p at heq hbeside ⊢
  obtain ⟨entries, entries', hsink, hsink', hall⟩ := hbeside.written
  have hrecords := forall₂_recordsOf hall
  have hequal : job.settings.animation = false → animation = false → entries' = entries :=
    fun hoff hoff' => eq_of_forall₂ (fun _ _ h => h.eq hoff hoff') hall
  rcases o with ⟨e | u, t⟩ <;> rcases p with ⟨e' | u', t'⟩ <;> cases heq
  · exact ⟨Or.inr ⟨e, rfl, rfl⟩, hbeside.meshes, entries, entries', hsink, hsink', hall, hrecords,
      hequal⟩
  · have hsummary : (⟨frame', t'.ledger.records, t'.ledger.compiledNodes⟩ : Summary) =
        ⟨frame', t.ledger.records, t.ledger.compiledNodes⟩ := by rw [hbeside.sees.ledger]
    exact ⟨Or.inl ⟨_, _, rfl, congrArg Except.ok hsummary⟩, hbeside.meshes, entries, entries',
      hsink, hsink', hall, hrecords, hequal⟩

/-- A material that is one shading model, all of whose values are the catalog's. -/
def glazeJob : Job where
  scene := (({} : Scene).addTree (.ofParts "Glaze"
    [{ name := "End", kind := .materialOutput false,
        inputs := [⟨"Material", .input, .material, none, none⟩] },
      { name := "Paint", kind := .plugin .brdf "BRDFDiffuse" }]
    [⟨⟨1⟩, ⟨"Paint", "Out"⟩, ⟨"End", "Material"⟩⟩])).addMaterial "Glaze" ⟨some "Glaze"⟩
  catalog := Catalog.builtin
  settings := {}

/-- At the seventh frame the roughness stands in an envelope; the records of the default
material have none. -/
theorem passes_differ_in_envelopes_glaze :
    ({} : PassState).sink.unlimited = true ∧
    let outside : Surroundings := { geometry := .external }
    let first := ((glazeJob.exportFrame outside 1).runOn {}).2.sink.recordList
    let second := (((glazeJob.animated true).exportFrame outside 7).runOn {}).2.sink.recordList
    List.Forall₂ (Pass.Alongside ⟨glazeJob, outside, 1⟩ ⟨glazeJob.animated true, outside, 7⟩)
      first second ∧
    first.map (·.attr? "roughness") = [none, none, some "0.000000"] ∧
    second.map (·.attr? "roughness") = [none, none, some "interpolate((7,0.000000))"] := by
  refine ⟨rfl, ?_, by decide +kernel, by decide +kernel⟩
  obtain ⟨-, -, entries, entries', hfirst, hsecond, -, hrecords, -⟩ :=
    passes_differ_in_envelopes glazeJob { geometry := .external } true 1 7 {} rfl
  have hlist : ∀ (text : String) (es : List Entry),
      ((Sink.records {}).writeAll (.remark text :: es)).recordList = recordsOf es :=
    fun text es => Sink.recordList_writeAll {} (.remark text :: es)
  rw [hfirst, hsecond, show PassState.sink {} = Sink.records {} from rfl, hlist, hlist]
  exact hrecords

/-- A text with just the room that the ninth frame of an empty scene takes is too small for the
tenth, whose number is longer. -/
theorem later_frame_does_not_fit :
    let job : Job := ⟨{}, {}, {}⟩
    let start : PassState := { sink := .text { room := some 203 } }
    ((job.exportFrame { geometry := .external } 9).runOn start).1 = .ok ⟨9, 2, 0⟩ ∧
      ((job.exportFrame { geometry := .external } 10).runOn start).1 = .error .sinkFull := by
  decide +kernel

end ShadeNet
