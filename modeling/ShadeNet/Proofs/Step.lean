/-
# What each step of a pass does to the state

A step is run on a state and gives a result and a state. Here every primitive
step and every bracket of the walk (a node that is marked while it is built, an
object in whose scope something is compiled) has its run as one equation, so
that later proofs never open a step again.

Key definitions: `PassState.mark`, `PassState.enter`, `PassState.leave`,
`Pass.claimAndEmit`.
Key theorems: `Compile.runOn_bind`, `writeRecord_cases`, `once_runOn`,
`writeObject_runOn`.
-/
import ShadeNet.Export

namespace ShadeNet

variable {α β : Type}

/-- A state with one more report. -/
def PassState.note (s : PassState) (line : LogLine) : PassState :=
  { s with log := s.log ++ [line] }

namespace Compile

@[simp] theorem runOn_pure (a : α) (s : PassState) : (pure a : Compile α).runOn s = (.ok a, s) := rfl

@[simp] theorem runOn_throw (f : Failure) (s : PassState) :
    (throw f : Compile α).runOn s = (.error f, s) := rfl

@[simp] theorem runOn_get (s : PassState) : (get : Compile PassState).runOn s = (.ok s, s) := rfl

@[simp] theorem runOn_set (s t : PassState) : (set t : Compile PUnit).runOn s = (.ok ⟨⟩, t) := rfl

@[simp] theorem runOn_modify (g : PassState → PassState) (s : PassState) :
    (modify g : Compile PUnit).runOn s = (.ok ⟨⟩, g s) := rfl

@[simp] theorem runOn_attempt (c : Compile α) (s : PassState) :
    (attempt c).runOn s = (.ok (c.runOn s).1, (c.runOn s).2) := rfl

@[simp] theorem runOn_report (line : LogLine) (s : PassState) :
    (report line).runOn s = (.ok (), s.note line) := rfl

@[simp] theorem runOn_modifyLedger (f : Ledger → Ledger) (s : PassState) :
    (modifyLedger f).runOn s = (.ok (), { s with ledger := f s.ledger }) := rfl

@[simp] theorem runOn_claimName (base : String) (s : PassState) :
    (claimName base).runOn s =
      (.ok (freeName s.ledger.names base),
        { s with ledger := s.ledger.reserve (freeName s.ledger.names base) }) := rfl

@[simp] theorem runOn_replaceScope (scope : Option ObjectScope) (s : PassState) :
    (replaceScope scope).runOn s = (.ok s.scope, { s with scope := scope }) := rfl

/-- A step after another one runs on what that one leaves, unless it failed. -/
theorem runOn_bind (c : Compile α) (f : α → Compile β) (s : PassState) :
    (c >>= f).runOn s = match c.runOn s with
      | (.ok a, t) => (f a).runOn t
      | (.error e, t) => (.error e, t) := by
  show (match c.runOn s with | (r, t) => ExceptT.bindCont f r t) = _
  rcases c.runOn s with ⟨_ | _, _⟩ <;> rfl

theorem runOn_bind_ok {c : Compile α} {s t : PassState} {a : α} (h : c.runOn s = (.ok a, t))
    (f : α → Compile β) : (c >>= f).runOn s = (f a).runOn t := by
  rw [runOn_bind, h]

/-- A step after another one that ends well does so after that one did. -/
theorem of_runOn_bind_ok {c : Compile α} {f : α → Compile β} {s t : PassState} {b : β}
    (h : (c >>= f).runOn s = (.ok b, t)) :
    ∃ a u, c.runOn s = (.ok a, u) ∧ (f a).runOn u = (.ok b, t) := by
  rw [runOn_bind] at h
  rcases hc : c.runOn s with ⟨e | a, u⟩ <;> rw [hc] at h
  · cases h
  · exact ⟨a, u, rfl, h⟩

theorem runOn_bind_error {c : Compile α} {s t : PassState} {e : Failure}
    (h : c.runOn s = (.error e, t)) (f : α → Compile β) : (c >>= f).runOn s = (.error e, t) := by
  rw [runOn_bind, h]

/-- What is done with the result of a step does not change the state. -/
theorem runOn_bind_pure_state (c : Compile α) (g : α → β) (s : PassState) :
    ((c >>= fun a => pure (g a)).runOn s).2 = (c.runOn s).2 := by
  rw [runOn_bind]
  rcases c.runOn s with ⟨_ | _, t⟩ <;> rfl

/-- Two steps relate the states before and after if each of them does. -/
theorem rel_bind {Rel : PassState → PassState → Prop} (trans : ∀ s t u, Rel s t → Rel t u → Rel s u)
    {c : Compile α} {f : α → Compile β} {s : PassState} (hc : Rel s (c.runOn s).2)
    (hf : ∀ a t, Rel t ((f a).runOn t).2) : Rel s ((c >>= f).runOn s).2 := by
  rw [runOn_bind]
  generalize c.runOn s = o at hc ⊢
  rcases o with ⟨e | a, t⟩
  · exact hc
  · exact trans s t _ hc (hf a t)

/-- Any number of steps relate the states before and after if each of them does. -/
theorem rel_forM {Rel : PassState → PassState → Prop} (refl : ∀ s, Rel s s)
    (trans : ∀ s t u, Rel s t → Rel t u → Rel s u) {f : α → Compile Unit} {l : List α}
    (h : ∀ a ∈ l, ∀ s, Rel s ((f a).runOn s).2) (s : PassState) :
    Rel s ((l.forM f).runOn s).2 := by
  induction l generalizing s with
  | nil => exact refl s
  | cons a rest ih =>
    exact rel_bind trans (h a List.mem_cons_self s) fun _ t =>
      ih (fun b hb => h b (List.mem_cons_of_mem a hb)) t

end Compile

open Compile

/-! ### Reports -/

theorem runOn_reports (lines : List LogLine) (s : PassState) :
    (lines.forM report).runOn s = (.ok (), { s with log := s.log ++ lines }) := by
  induction lines generalizing s with
  | nil => simp
  | cons line rest ih =>
    show (report line >>= fun _ => rest.forM report).runOn s = _
    rw [runOn_bind_ok (runOn_report line s), ih]
    simp [PassState.note]

/-! ### Records -/

/-- What a write of text that is no record leaves. -/
def PassState.comment (s : PassState) (text : String) : PassState :=
  { s with sink := (s.sink.write (.remark text)).1 }

theorem writeEntry_runOn (e : Entry) (s : PassState) :
    (writeEntry e).runOn s =
      (if (s.sink.write e).2 then .ok () else .error .sinkFull,
        { s with sink := (s.sink.write e).1 }) := by
  unfold writeEntry
  rw [runOn_bind_ok (runOn_get s), runOn_bind_ok (runOn_set _ _)]
  split <;> rfl

theorem writeRemark_runOn (text : String) (s : PassState) :
    (writeRemark text).runOn s =
      (if (s.sink.write (.remark text)).2 then .ok () else .error .sinkFull, s.comment text) :=
  writeEntry_runOn _ s

theorem writeRemark_ok {text : String} {s t : PassState}
    (h : (writeRemark text).runOn s = (.ok (), t)) :
    (s.sink.write (.remark text)).2 = true ∧ t = s.comment text := by
  rw [writeRemark_runOn] at h
  split at h
  · exact ⟨‹_›, (Prod.mk.inj h).2.symm⟩
  · cases h

/-- What a write that goes through leaves. -/
def PassState.receive (s : PassState) (r : Record) : PassState :=
  { s with sent := s.sent ++ [r], sink := (s.sink.write (.record r)).1 }

/-- A record is written to the sink, or it is not and the step fails; then the
sink may have taken a part of it. -/
theorem writeRecord_runOn (pass : Pass) (r : Record) (s : PassState) :
    (pass.writeRecord r).runOn s =
      if pass.refuses s.sent.length then (.error .sinkFull, { s with sent := s.sent ++ [r] })
      else if (s.sink.write (.record r)).2 then (.ok (), s.receive r)
      else (.error .sinkFull, s.receive r) := by
  unfold Pass.writeRecord
  rw [runOn_bind_ok (runOn_get s), runOn_bind_ok (runOn_set _ _)]
  split
  · rfl
  · rw [writeEntry_runOn]
    split <;> rfl

theorem writeRecord_cases (pass : Pass) (r : Record) (s : PassState) :
    (pass.writeRecord r).runOn s = (.ok (), s.receive r) ∨
      ∃ sink, (sink = s.sink ∨ sink = (s.sink.write (.record r)).1) ∧
        (pass.writeRecord r).runOn s =
          (.error .sinkFull, { s with sent := s.sent ++ [r], sink := sink }) := by
  rw [writeRecord_runOn]
  split
  · exact Or.inr ⟨s.sink, Or.inl rfl, rfl⟩
  · split
    · exact Or.inl rfl
    · exact Or.inr ⟨_, Or.inr rfl, rfl⟩

/-- What is reported when a record is counted: a name that has a record already. -/
def Ledger.rewriteReports (l : Ledger) (name : String) : List LogLine :=
  if l.isWritten name then [.writtenTwice name] else []

/-- Counts a record, and reports a name that has one already. -/
def PassState.count (s : PassState) (name : String) : PassState :=
  { s with
    log := s.log ++ s.ledger.rewriteReports name
    ledger := s.ledger.countRecord name }

theorem emit_runOn (pass : Pass) (r : Record) (s : PassState) :
    (pass.emit r).runOn s = match (pass.writeRecord r).runOn s with
      | (.ok _, t) => (.ok r.name, t.count r.name)
      | (.error e, t) => (.error e, t) := by
  unfold Pass.emit
  rw [runOn_bind]
  rcases (pass.writeRecord r).runOn s with ⟨e | _, t⟩
  · rfl
  · simp only
    rw [runOn_bind_ok (runOn_get t)]
    unfold PassState.count Ledger.rewriteReports
    by_cases h : t.ledger.isWritten r.name = true
    · rw [if_pos h, if_pos h]
      rfl
    · rw [if_neg h, if_neg h, List.append_nil]
      rfl

theorem emit_runOn_ok {pass : Pass} {r : Record} {s t : PassState}
    (h : (pass.writeRecord r).runOn s = (.ok (), t)) :
    (pass.emit r).runOn s = (.ok r.name, t.count r.name) := by
  rw [emit_runOn, h]

theorem emit_runOn_error {pass : Pass} {r : Record} {s t : PassState} {e : Failure}
    (h : (pass.writeRecord r).runOn s = (.error e, t)) :
    (pass.emit r).runOn s = (.error e, t) := by
  rw [emit_runOn, h]

/-- An emission leaves a state with a property if that is kept by the record and by counting
it. -/
theorem emit_state {pass : Pass} {r : Record} {s : PassState} {P : PassState → Prop}
    (hwrite : P ((pass.writeRecord r).runOn s).2)
    (hcount : ∀ t, P t → P (t.count r.name)) : P ((pass.emit r).runOn s).2 := by
  rw [emit_runOn]
  generalize (pass.writeRecord r).runOn s = o at hwrite ⊢
  rcases o with ⟨_ | _, t⟩
  · exact hwrite
  · exact hcount t hwrite

/-- The default material relates the states before and after if its two records do. -/
theorem rel_writeDefaults {pass : Pass} {Rel : PassState → PassState → Prop}
    (refl : ∀ s, Rel s s) (trans : ∀ s t u, Rel s t → Rel t u → Rel s u)
    (hbrdf : ∀ s, Rel s ((pass.emit defaultBrdfRecord).runOn s).2)
    (hmaterial : ∀ s, Rel s ((pass.emit defaultMaterialRecord).runOn s).2) (s : PassState) :
    Rel s (pass.writeDefaults.runOn s).2 := by
  unfold Pass.writeDefaults
  rw [runOn_bind_ok (runOn_get s)]
  split
  · exact refl s
  · refine rel_bind trans (hbrdf s) fun _ t => ?_
    rw [runOn_bind_pure_state]
    exact hmaterial t

/-- A record is written if its emission ends well. -/
theorem emit_ok {pass : Pass} {r : Record} {s t : PassState} {token : String}
    (h : (pass.emit r).runOn s = (.ok token, t)) : t = (s.receive r).count r.name := by
  rcases writeRecord_cases pass r s with hw | ⟨sink, -, hw⟩
  · rw [emit_runOn_ok hw] at h
    cases h
    rfl
  · rw [emit_runOn_error hw] at h
    cases h

/-- The token of an emission is the name of its record. -/
theorem emit_token {pass : Pass} {r : Record} {s t : PassState} {token : String}
    (h : (pass.emit r).runOn s = (.ok token, t)) : token = r.name := by
  rcases writeRecord_cases pass r s with hw | ⟨sink, -, hw⟩
  · rw [emit_runOn_ok hw] at h
    cases h
    rfl
  · rw [emit_runOn_error hw] at h
    cases h

/-- The sink took the whole record if its emission ends well. -/
theorem emit_whole {pass : Pass} {r : Record} {s t : PassState} {token : String}
    (h : (pass.emit r).runOn s = (.ok token, t)) : (s.sink.write (.record r)).2 = true := by
  rw [emit_runOn, writeRecord_runOn] at h
  by_cases hrefused : pass.refuses s.sent.length = true
  · rw [if_pos hrefused] at h
    cases h
  · rw [if_neg hrefused] at h
    by_cases hwhole : (s.sink.write (.record r)).2 = true
    · exact hwhole
    · rw [if_neg hwhole] at h
      cases h

/-- Claims a name derived from `base`, reports, and writes the record that gets the
name. Every record of the walk but those of meshes is written this way. -/
def Pass.claimAndEmit (pass : Pass) (base : String) (reports : List LogLine)
    (record : String → Record) : Compile String := do
  let name ← claimName base
  reports.forM report
  pass.emit (record name)

/-- The state in which a record with a name derived from `base` is written. -/
def PassState.claim (s : PassState) (base : String) (reports : List LogLine) : PassState :=
  { s with
    ledger := s.ledger.reserve (freeName s.ledger.names base)
    log := s.log ++ reports }

theorem claimAndEmit_runOn (pass : Pass) (base : String) (reports : List LogLine)
    (record : String → Record) (s : PassState) :
    (pass.claimAndEmit base reports record).runOn s =
      (pass.emit (record (freeName s.ledger.names base))).runOn (s.claim base reports) := by
  unfold Pass.claimAndEmit
  rw [runOn_bind_ok (runOn_claimName base s), runOn_bind_ok (runOn_reports reports _)]
  rfl

/-! ### Meshes -/

@[simp] theorem Pass.writeOut_record (pass : Pass) (r : Record) :
    pass.writeOut (.record r) = pass.writeRecord r := rfl

@[simp] theorem Pass.writeOut_remark (pass : Pass) (text : String) :
    pass.writeOut (.remark text) = writeRemark text := rfl

/-- What is written for a mesh relates the states before and after if each record and each text
does. -/
theorem rel_writeOut {pass : Pass} {Rel : PassState → PassState → Prop} (refl : ∀ s, Rel s s)
    (trans : ∀ s t u, Rel s t → Rel t u → Rel s u) {entries : List Entry}
    (hrecord : ∀ r ∈ recordsOf entries, ∀ s, Rel s ((pass.writeRecord r).runOn s).2)
    (hcomment : ∀ s text, Rel s (s.comment text)) (s : PassState) :
    Rel s ((entries.forM pass.writeOut).runOn s).2 := by
  refine Compile.rel_forM refl trans (fun e he t => ?_) s
  cases e with
  | record r => exact hrecord r (List.mem_filterMap.mpr ⟨_, he, rfl⟩) t
  | remark text =>
    rw [Pass.writeOut_remark, writeRemark_runOn]
    exact hcomment t text

/-- Text alone leaves a state with a property if text keeps that. -/
theorem writeOut_none {pass : Pass} {P : PassState → Prop} {entries : List Entry}
    (hnone : recordsOf entries = []) (hcomment : ∀ t text, P t → P (t.comment text))
    {s : PassState} (hs : P s) : P ((entries.forM pass.writeOut).runOn s).2 := by
  refine @rel_writeOut pass (fun s t => P s → P t) (fun _ h => h)
    (fun _ _ _ h k hs => k (h hs)) _ (fun r hr => ?_) hcomment s hs
  rw [hnone] at hr
  exact absurd hr List.not_mem_nil

/-- What is written for a mesh, one record with any text around it, leaves a state with a
property if text keeps that and the record, whatever text came before it, comes to such a
state. -/
theorem writeOut_single {pass : Pass} {P : PassState → Prop} {entries : List Entry} {r : Record}
    (hone : recordsOf entries = [r]) (hcomment : ∀ t text, P t → P (t.comment text))
    {s : PassState} (hbefore : ∀ sink, P { s with sink := sink })
    (hrecord : ∀ sink, P ((pass.writeRecord r).runOn { s with sink := sink }).2) :
    P ((entries.forM pass.writeOut).runOn s).2 := by
  induction entries generalizing s with
  | nil => cases hone
  | cons e rest ih =>
    show P ((pass.writeOut e >>= fun _ => rest.forM pass.writeOut).runOn s).2
    rw [runOn_bind]
    cases e with
    | record q =>
      obtain ⟨rfl, hrest⟩ : q = r ∧ recordsOf rest = [] := List.cons.inj hone
      have hq : P ((pass.writeRecord q).runOn s).2 := hrecord s.sink
      rw [Pass.writeOut_record]
      generalize (pass.writeRecord q).runOn s = o at hq
      rcases o with ⟨f | _, t⟩
      · exact hq
      · exact writeOut_none hrest hcomment hq
    | remark text =>
      rw [Pass.writeOut_remark, writeRemark_runOn]
      by_cases hwhole : (s.sink.write (.remark text)).2 = true
      · rw [if_pos hwhole]
        exact ih hone hbefore hrecord
      · rw [if_neg hwhole]
        exact hbefore _

/-- The state in which a mesh is written. -/
def PassState.handOut (s : PassState) (request : MeshRequest) : PassState :=
  { s with
    ledger := (s.ledger.addMesh request.name).reserve request.name
    meshes := s.meshes ++ [request] }

/-- How the geometry of an object ends, from the way the writing of its mesh ends. -/
def geometryEnd (name : String) (failure : Option String) : Except Failure Unit × PassState →
    Except Failure (Option Resolved) × PassState
  | (.error e, t) => (.error e, t)
  | (.ok _, t) => match failure with
    | some message => (.error (.io message), t)
    | none => (.ok (some (.reference name)), t)

theorem geometryEnd_state (name : String) (failure : Option String)
    (o : Except Failure Unit × PassState) : (geometryEnd name failure o).2 = o.2 := by
  rcases o with ⟨_ | _, t⟩
  · rfl
  · unfold geometryEnd
    cases failure <;> rfl

theorem writeGeometry_runOn (pass : Pass) (s : PassState) :
    pass.writeGeometry.runOn s = match s.scope with
      | none => (.ok none, s.note .geometryOutsideObject)
      | some scope => match scope.mesh with
        | none => (.ok none, s.note (.objectWithoutMesh scope.name))
        | some mesh =>
          if pass.settings.autoMeshes && !s.ledger.hasMesh (meshName mesh) then
            let request : MeshRequest := ⟨scope.name, mesh, meshName mesh⟩
            let answer := pass.geometry.answer s.meshes request
            geometryEnd (meshName mesh) answer.failure
              ((answer.entries.forM pass.writeOut).runOn (s.handOut request))
          else (.ok (some (.reference (meshName mesh))), s) := by
  unfold Pass.writeGeometry
  rw [runOn_bind_ok (runOn_get s)]
  rcases s.scope with _ | scope
  · rfl
  · simp only
    rcases scope.mesh with _ | mesh
    · rfl
    · simp only
      split
      · rw [runOn_bind_ok (runOn_modifyLedger _ s), runOn_bind]
        unfold Pass.exportMesh
        rw [runOn_bind_ok (runOn_get _), runOn_bind_ok (runOn_set _ _), runOn_bind]
        unfold PassState.handOut
        rcases Compile.runOn _ _ with ⟨e | _, t⟩
        · rfl
        · unfold geometryEnd
          simp only
          cases (pass.geometry.answer s.meshes ⟨scope.name, mesh, meshName mesh⟩).failure <;> rfl
      · rfl

/-- The geometry of an object leaves a state with a property if that is kept by what may be
reported and, where a mesh is handed out for the first time, by what is written for the mesh. -/
theorem writeGeometry_state {pass : Pass} {s : PassState} {P : PassState → Prop} (hold : P s)
    (houtside : P (s.note .geometryOutsideObject))
    (hbare : ∀ name, P (s.note (.objectWithoutMesh name)))
    (hmesh : ∀ scope mesh, s.scope = some scope → scope.mesh = some mesh →
      s.ledger.hasMesh (meshName mesh) = false →
      P (((pass.geometry.answer s.meshes ⟨scope.name, mesh, meshName mesh⟩).entries.forM
        pass.writeOut).runOn (s.handOut ⟨scope.name, mesh, meshName mesh⟩)).2) :
    P (pass.writeGeometry.runOn s).2 := by
  rw [writeGeometry_runOn]
  cases hscope : s.scope with
  | none => exact houtside
  | some scope =>
    simp only
    cases hm : scope.mesh with
    | none => exact hbare scope.name
    | some mesh =>
      simp only
      split
      · rename_i hnew
        rw [geometryEnd_state]
        exact hmesh scope mesh hscope hm (by simpa using (Bool.and_eq_true_iff.mp hnew).2)
      · exact hold

/-- The geometry of an object that ends well: none is there, or the mesh is handed out
now, or it need not be. -/
theorem writeGeometry_ok {pass : Pass} {s t : PassState} {value : Option Resolved}
    (h : pass.writeGeometry.runOn s = (.ok value, t)) :
    (value = none ∧ ∃ line, t = s.note line) ∨
      ∃ scope mesh, s.scope = some scope ∧ scope.mesh = some mesh ∧
        value = some (.reference (meshName mesh)) ∧
        ((pass.settings.autoMeshes = false ∨ s.ledger.hasMesh (meshName mesh) = true) ∧ t = s ∨
          ∃ answer, answer = pass.geometry.answer s.meshes ⟨scope.name, mesh, meshName mesh⟩ ∧
            answer.failure = none ∧ (answer.entries.forM pass.writeOut).runOn
              (s.handOut ⟨scope.name, mesh, meshName mesh⟩) = (.ok (), t)) := by
  rw [writeGeometry_runOn] at h
  cases hs : s.scope with
  | none =>
    rw [hs] at h
    cases h
    exact Or.inl ⟨rfl, _, rfl⟩
  | some scope =>
    rw [hs] at h
    simp only at h
    cases hm : scope.mesh with
    | none =>
      rw [hm] at h
      cases h
      exact Or.inl ⟨rfl, _, rfl⟩
    | some mesh =>
      rw [hm] at h
      simp only at h
      refine Or.inr ⟨scope, mesh, rfl, hm, ?_⟩
      split at h
      · generalize hrun : Compile.runOn _ _ = o at h
        rcases o with ⟨e | _, u⟩
        · cases h
        · unfold geometryEnd at h
          cases hf : (pass.geometry.answer s.meshes ⟨scope.name, mesh, meshName mesh⟩).failure with
          | some message =>
            rw [hf] at h
            cases h
          | none =>
            rw [hf] at h
            cases h
            exact ⟨rfl, Or.inr ⟨_, rfl, hf, hrun⟩⟩
      · rename_i hold
        cases h
        refine ⟨rfl, Or.inl ⟨?_, rfl⟩⟩
        cases ha : pass.settings.autoMeshes with
        | false => exact Or.inl rfl
        | true => exact Or.inr (by simpa [ha] using hold)

/-! ### Brackets

A node is marked while it is built, and an object while something is compiled in
its scope. What happens between is the run of one step on the marked state. -/

namespace PassState

/-- The state in which a node is built. -/
def mark (s : PassState) (key node : String) : PassState :=
  { s with ledger := s.ledger.setNode key node .resolving }

/-- Enters the value of a node that was built. -/
def finish (s : PassState) (key node : String) (value : Resolved) : PassState :=
  { s with ledger := s.ledger.setNode key node (.done value) }

/-- Forgets a node that gave no value. -/
def abandon (s : PassState) (key node : String) : PassState :=
  { s with ledger := s.ledger.abandonNode key node }

/-- The state in which an object is compiled. -/
def enter (s : PassState) (name : String) (object : SceneObject) : PassState :=
  { s with
    ledger := s.ledger.setObject name .resolving
    scope := some ⟨name, object.mesh, object.tree⟩ }

/-- Enters the token of an object and goes back to the scope before. -/
def leave (s : PassState) (scope : Option ObjectScope) (name : String) (token : Option String) :
    PassState :=
  { s with ledger := s.ledger.setObject name (.done token), scope := scope }

/-- Forgets an object that failed and goes back to the scope before. -/
def quit (s : PassState) (scope : Option ObjectScope) (name : String) : PassState :=
  { s with ledger := s.ledger.abandonObject name, scope := scope }

/-- Enters an object that has no record and is not compiled. -/
def hide (s : PassState) (name : String) : PassState :=
  { s with ledger := s.ledger.setObject name (.done none) }

/-- Enters the token of a record that belongs to no node. -/
def synthesize (s : PassState) (key token : String) : PassState :=
  { s with ledger := s.ledger.setSynthesized key token }

end PassState

/-! What a node or an object looks like once it is entered or forgotten. -/

namespace Ledger

theorem node?_setNode (l : Ledger) (key node : String) (progress : Progress Resolved)
    (k n : String) : (l.setNode key node progress).node? k n =
      if (key, node) = (k, n) then some progress else l.node? k n :=
  OrderedMap.get?_insert l.nodes (key, node) progress (k, n)

theorem node?_abandonNode (l : Ledger) (key node k n : String) :
    (l.abandonNode key node).node? k n = if (key, node) = (k, n) then none else l.node? k n :=
  OrderedMap.get?_erase l.nodes (key, node) (k, n)

theorem object?_setObject (l : Ledger) (object : String) (progress : Progress (Option String))
    (name : String) : (l.setObject object progress).object? name =
      if object = name then some progress else l.object? name :=
  OrderedMap.get?_insert l.objects object progress name

theorem object?_abandonObject (l : Ledger) (object name : String) :
    (l.abandonObject object).object? name = if object = name then none else l.object? name :=
  OrderedMap.get?_erase l.objects object name

theorem synthesized?_setSynthesized (l : Ledger) (key token k : String) :
    (l.setSynthesized key token).synthesized? k = if key = k then some token else l.synthesized? k :=
  OrderedMap.get?_insert l.synthesized key token k

end Ledger

/-- How a node's build ends. -/
def onceEnd (key node : String) : Except Failure (Option Resolved) × PassState →
    Except Failure (Option Resolved) × PassState
  | (.ok (some value), t) => (.ok (some value), t.finish key node value)
  | (.ok none, t) => (.ok none, t.abandon key node)
  | (.error failure, t) => (.error failure, t.abandon key node)

theorem once_runOn (tree : NodeTree) (node : Node) (build : Compile (Option Resolved))
    (s : PassState) :
    (once tree node build).runOn s =
      match s.ledger.node? (s.treeKey tree.name) node.name with
      | some (.done value) => (.ok (some value), s)
      | some .resolving => (.error (.cycle tree.name node.name), s)
      | none => onceEnd (s.treeKey tree.name) node.name
          (build.runOn (s.mark (s.treeKey tree.name) node.name)) := by
  unfold once
  rw [runOn_bind_ok (runOn_get s)]
  simp only
  rcases s.ledger.node? (s.treeKey tree.name) node.name with _ | _ | value
  · simp only
    rw [runOn_bind_ok (runOn_modifyLedger _ s), runOn_bind_ok (runOn_attempt _ _)]
    unfold PassState.mark
    rcases build.runOn _ with ⟨_ | _ | _, t⟩ <;> rfl
  · rfl
  · rfl

/-- How the compilation of an object ends. -/
def objectEnd (scope : Option ObjectScope) (name : String) :
    Except Failure (Option String) × PassState → Except Failure (Option String) × PassState
  | (.ok token, t) => (.ok token, t.leave scope name token)
  | (.error failure, t) => (.error failure, t.quit scope name)

theorem writeObject_runOn (pass : Pass) (compile : NodeCompiler) (name : String) (s : PassState) :
    (pass.writeObject compile name).runOn s =
      match s.ledger.object? name with
      | some (.done token) => (.ok token, s)
      | some .resolving => (.ok none, s.note (.objectBeingWritten name))
      | none => match pass.scene.object? name with
        | none => (.ok none, s)
        | some object =>
          if object.visible then
            objectEnd s.scope name
              ((pass.buildObject compile name object).runOn (s.enter name object))
          else (.ok none, s.hide name) := by
  unfold Pass.writeObject
  rw [runOn_bind_ok (runOn_get s)]
  rcases s.ledger.object? name with _ | _ | token
  · simp only
    rcases pass.scene.object? name with _ | object
    · rfl
    · simp only
      by_cases hv : object.visible = true
      · rw [if_pos hv, if_pos hv, runOn_bind_ok (runOn_modifyLedger _ s),
          runOn_bind_ok (runOn_replaceScope _ _), runOn_bind_ok (runOn_attempt _ _),
          runOn_bind_ok (runOn_replaceScope _ _)]
        unfold PassState.enter
        rcases (pass.buildObject compile name object).runOn _ with ⟨_ | _, t⟩ <;> rfl
      · rw [if_neg hv, if_neg hv]
        rfl
  · rfl
  · rfl

end ShadeNet
