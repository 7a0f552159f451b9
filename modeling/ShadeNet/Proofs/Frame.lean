/-
# What the walk leaves as it was

Every function of the walk marks what it compiles and takes the marks away again,
whichever way it ends. So after it the same nodes and objects are being compiled
as before, everything that was compiled still is, the object that is compiled and
the override are the ones before, and the sink has more in it at most.

Key definitions: `Kept`, `PassState.Frame`, `Ledger.Idle`.
Key theorems: `Kept.finish`, `Kept.abandon`, `every_call_framed`, `sink_run`.
-/
import ShadeNet.Proofs.Comparison
import ShadeNet.Proofs.Course
import ShadeNet.Proofs.Delivery

namespace ShadeNet

variable {α κ : Type}

/-! ### Progress -/

/-- What is being compiled is the same, and what was compiled still is. -/
structure Kept [DecidableEq κ] (m n : OrderedMap κ (Progress α)) : Prop where
  resolving : ∀ key, n.get? key = some .resolving ↔ m.get? key = some .resolving
  done : ∀ key value, m.get? key = some (.done value) → n.get? key = some (.done value)

namespace Kept

variable [DecidableEq κ] {m n k : OrderedMap κ (Progress α)} {key : κ}

@[refl] theorem refl (m : OrderedMap κ (Progress α)) : Kept m m := ⟨fun _ => Iff.rfl, fun _ _ h => h⟩

theorem trans (h : Kept m n) (h' : Kept n k) : Kept m k :=
  ⟨fun key => (h'.resolving key).trans (h.resolving key),
    fun key value hd => h'.done key value (h.done key value hd)⟩

/-- Entering a value for what was not reached. -/
theorem enter (h : m.get? key = none) (value : α) : Kept m (m.insert key (.done value)) := by
  refine ⟨fun other => ?_, fun other v hv => ?_⟩
  · rw [OrderedMap.get?_insert]
    split
    · rename_i heq
      subst heq
      simp [h]
    · rfl
  · rw [OrderedMap.get?_insert, if_neg, hv]
    rintro rfl
    simp [h] at hv

/-- A mark that is replaced by a value. -/
theorem finish (h : m.get? key = none) (hk : Kept (m.insert key .resolving) n) (value : α) :
    Kept m (n.insert key (.done value)) := by
  refine ⟨fun other => ?_, fun other v hv => ?_⟩
  · have hr := hk.resolving other
    rw [OrderedMap.get?_insert] at hr ⊢
    by_cases heq : key = other
    · subst heq
      simp [h]
    · rw [if_neg heq] at hr ⊢
      exact hr
  · have hne : key ≠ other := by
      rintro rfl
      simp [h] at hv
    rw [OrderedMap.get?_insert, if_neg hne]
    exact hk.done other v (by rw [OrderedMap.get?_insert, if_neg hne, hv])

/-- A mark that is taken away. -/
theorem abandon (h : m.get? key = none) (hk : Kept (m.insert key .resolving) n) :
    Kept m (n.erase key) := by
  refine ⟨fun other => ?_, fun other v hv => ?_⟩
  · have hr := hk.resolving other
    rw [OrderedMap.get?_insert] at hr
    rw [OrderedMap.get?_erase]
    by_cases heq : key = other
    · subst heq
      simp [h]
    · rw [if_neg heq] at hr ⊢
      exact hr
  · have hne : key ≠ other := by
      rintro rfl
      simp [h] at hv
    rw [OrderedMap.get?_erase, if_neg hne]
    exact hk.done other v (by rw [OrderedMap.get?_insert, if_neg hne, hv])

/-- What is there is not forgotten. -/
theorem ne_none (h : Kept m n) (hm : m.get? key ≠ none) : n.get? key ≠ none := by
  rcases hp : m.get? key with _ | _ | value
  · exact absurd hp hm
  · rw [(h.resolving key).mpr hp]
    exact nofun
  · rw [h.done key value hp]
    exact nofun

end Kept

/-! ### Ledgers -/

theorem subset_addMember (names : List String) (name : String) : names ⊆ addMember names name :=
  fun _ h => mem_addMember.mpr (Or.inl h)

/-- What a ledger keeps of an earlier one. -/
structure Ledger.Frame (l m : Ledger) : Prop where
  nodes : Kept l.nodes m.nodes
  objects : Kept l.objects m.objects
  names : l.names ⊆ m.names
  written : l.written ⊆ m.written
  meshes : l.meshes ⊆ m.meshes

namespace Ledger

@[refl] theorem Frame.refl (l : Ledger) : l.Frame l :=
  ⟨Kept.refl _, Kept.refl _, List.Subset.refl _, List.Subset.refl _, List.Subset.refl _⟩

theorem Frame.trans {l m n : Ledger} (h : l.Frame m) (k : m.Frame n) : l.Frame n :=
  ⟨h.nodes.trans k.nodes, h.objects.trans k.objects, List.Subset.trans h.names k.names,
    List.Subset.trans h.written k.written, List.Subset.trans h.meshes k.meshes⟩

theorem frame_reserve (l : Ledger) (name : String) : l.Frame (l.reserve name) :=
  { Frame.refl l with names := subset_addMember l.names name }

theorem frame_countRecord (l : Ledger) (name : String) : l.Frame (l.countRecord name) :=
  { Frame.refl l with
    names := subset_addMember l.names name
    written := subset_addMember l.written name }

theorem frame_addMesh (l : Ledger) (mesh : String) : l.Frame (l.addMesh mesh) :=
  { Frame.refl l with meshes := subset_addMember l.meshes mesh }

theorem frame_setSynthesized (l : Ledger) (key token : String) :
    l.Frame (l.setSynthesized key token) :=
  { Frame.refl l with }

end Ledger

/-! ### States -/

/-- A sink goes on with some of the records that were tried in between, and with text that is
no record. -/
def PassState.Appends (s t : PassState) : Prop :=
  ∃ (tried : List Record) (arrived : List Entry), t.sent = s.sent ++ tried ∧
    (recordsOf arrived).Sublist tried ∧ t.sink = s.sink.writeAll arrived

/-- What a state keeps of an earlier one, and how its sink continues the earlier
one's. -/
structure PassState.Frame (s t : PassState) : Prop where
  scope : t.scope = s.scope
  overrideToken : t.overrideToken = s.overrideToken
  ledger : s.ledger.Frame t.ledger
  appends : s.Appends t
  grows : s.sink.GrowsTo t.sink

namespace PassState

theorem Appends.of_eq {s t : PassState} (hsent : t.sent = s.sent) (hsink : t.sink = s.sink) :
    s.Appends t := ⟨[], [], by simp [hsent], List.Sublist.refl _, by simp [hsink]⟩

theorem appends_trans (s t u : PassState) (h : s.Appends t) (k : t.Appends u) : s.Appends u := by
  obtain ⟨tried, arrived, hs, ha, hw⟩ := h
  obtain ⟨tried', arrived', hs', ha', hw'⟩ := k
  refine ⟨tried ++ tried', arrived ++ arrived', ?_, ?_, ?_⟩
  · rw [hs', hs, List.append_assoc]
  · rw [recordsOf_append]
    exact ha.append ha'
  · rw [hw', hw, Sink.writeAll_append]

theorem Appends.grows {s t : PassState} (h : s.Appends t) : s.sink.GrowsTo t.sink := by
  obtain ⟨_, arrived, -, -, hsink⟩ := h
  rw [hsink]
  exact Sink.growsTo_writeAll _ _

/-- A step that writes nothing and sets only the ledger and the log. -/
theorem Frame.of_ledger {s t : PassState} (h : s.ledger.Frame t.ledger) (hscope : t.scope = s.scope)
    (hover : t.overrideToken = s.overrideToken) (hsent : t.sent = s.sent) (hsink : t.sink = s.sink) :
    s.Frame t :=
  ⟨hscope, hover, h, .of_eq hsent hsink, hsink ▸ Sink.GrowsTo.refl s.sink⟩

@[refl] theorem Frame.refl (s : PassState) : s.Frame s := .of_ledger (.refl _) rfl rfl rfl rfl

theorem Frame.trans {s t u : PassState} (h : s.Frame t) (k : t.Frame u) : s.Frame u :=
  ⟨k.scope.trans h.scope, k.overrideToken.trans h.overrideToken, h.ledger.trans k.ledger,
    appends_trans s t u h.appends k.appends, h.grows.trans k.grows⟩

theorem frame_trans (s t u : PassState) (h : s.Frame t) (k : t.Frame u) : s.Frame u := h.trans k

theorem frame_note (s : PassState) (line : LogLine) : s.Frame (s.note line) :=
  .of_ledger (.refl _) rfl rfl rfl rfl

theorem frame_claim (s : PassState) (base : String) (reports : List LogLine) :
    s.Frame (s.claim base reports) := .of_ledger (Ledger.frame_reserve _ _) rfl rfl rfl rfl

theorem frame_count (s : PassState) (name : String) : s.Frame (s.count name) :=
  .of_ledger (Ledger.frame_countRecord _ _) rfl rfl rfl rfl

/-- Text that is no record is written. -/
theorem frame_comment (s : PassState) (text : String) : s.Frame (s.comment text) := by
  have happends : s.Appends (s.comment text) :=
    ⟨[], [.remark text], (List.append_nil _).symm, List.Sublist.refl _, rfl⟩
  exact ⟨rfl, rfl, .refl _, happends, happends.grows⟩

theorem frame_handOut (s : PassState) (request : MeshRequest) : s.Frame (s.handOut request) :=
  .of_ledger ((Ledger.frame_addMesh _ _).trans (Ledger.frame_reserve _ _)) rfl rfl rfl rfl

end PassState

variable (pass : Pass)

/-! ### Steps -/

theorem appends_writeRecord (r : Record) (s : PassState) :
    s.Appends ((pass.writeRecord r).runOn s).2 := by
  rcases writeRecord_cases pass r s with h | ⟨sink, rfl | rfl, h⟩ <;> rw [h]
  · exact ⟨[r], [.record r], rfl, List.Sublist.refl _, rfl⟩
  · exact ⟨[r], [], rfl, List.nil_sublist _, rfl⟩
  · exact ⟨[r], [.record r], rfl, List.Sublist.refl _, rfl⟩

theorem frame_writeRecord (r : Record) (s : PassState) :
    s.Frame ((pass.writeRecord r).runOn s).2 := by
  have happends := appends_writeRecord pass r s
  rcases writeRecord_cases pass r s with h | ⟨sink, -, h⟩ <;> rw [h] at happends ⊢
  · exact ⟨rfl, rfl, .refl _, happends, happends.grows⟩
  · exact ⟨rfl, rfl, .refl _, happends, happends.grows⟩

theorem frame_writeOut (entries : List Entry) (s : PassState) :
    s.Frame ((entries.forM pass.writeOut).runOn s).2 :=
  rel_writeOut PassState.Frame.refl PassState.frame_trans (fun r _ => frame_writeRecord pass r)
    PassState.frame_comment s

theorem frame_emit (r : Record) (s : PassState) : s.Frame ((pass.emit r).runOn s).2 :=
  emit_state (frame_writeRecord pass r s) fun t h => h.trans (t.frame_count r.name)

theorem frame_claimAndEmit (base : String) (reports : List LogLine) (record : String → Record)
    (s : PassState) : s.Frame ((pass.claimAndEmit base reports record).runOn s).2 := by
  rw [claimAndEmit_runOn]
  exact (s.frame_claim base reports).trans (frame_emit pass _ _)

theorem frame_writeGeometry (s : PassState) : s.Frame (pass.writeGeometry.runOn s).2 :=
  writeGeometry_state (.refl s) (s.frame_note _) (fun _ => s.frame_note _) fun _ _ _ _ _ =>
    (s.frame_handOut _).trans (frame_writeOut pass _ _)

/-- The frame as a comparison that the walk keeps. -/
def frameComparison : Comparison pass where
  Rel := PassState.Frame
  refl := PassState.Frame.refl
  trans := PassState.Frame.trans
  note _ := PassState.frame_note _ _
  emission _ _ _ := frame_claimAndEmit pass _ _ _ _
  geometry := frame_writeGeometry pass
  synthesize _ _ hr := hr.trans (.of_ledger (Ledger.frame_setSynthesized _ _ _) rfl rfl rfl rfl)
  hide h _ := .of_ledger { Ledger.Frame.refl _ with objects := Kept.enter h _ } rfl rfl rfl rfl
  finish v h hr :=
    { hr with
      ledger := { hr.ledger with nodes := hr.ledger.nodes.finish h v } }
  abandon h hr :=
    { hr with
      ledger := { hr.ledger with nodes := hr.ledger.nodes.abandon h } }
  leave token h _ hr :=
    { hr with
      scope := rfl
      ledger := { hr.ledger with objects := hr.ledger.objects.finish h token } }
  quit h _ hr :=
    { hr with
      scope := rfl
      ledger := { hr.ledger with objects := hr.ledger.objects.abandon h } }

/-! ### Calls -/

variable {pass}

/-- A step that keeps the frame as a comparison is framed. -/
theorem frame_of_keeps {c : Compile α} {Q : α → PassState → Prop}
    (h : (frameComparison pass).contract.Keeps (fun _ => True) c Q) (s : PassState) :
    s.Frame (c.runOn s).2 := Comparison.rel_of_keeps h s

variable (pass)

/-! ### Passes -/

/-- Nothing is being compiled. -/
def Ledger.Idle (l : Ledger) : Prop :=
  (∀ key node, l.node? key node ≠ some .resolving) ∧ ∀ object, l.object? object ≠ some .resolving

theorem Ledger.Frame.idle {l m : Ledger} (h : l.Frame m) (hl : l.Idle) : m.Idle :=
  ⟨fun key node hm => hl.1 key node ((h.nodes.resolving (key, node)).mp hm),
    fun object hm => hl.2 object ((h.objects.resolving object).mp hm)⟩

theorem frame_writeDefaults (s : PassState) : s.Frame (pass.writeDefaults.runOn s).2 :=
  rel_writeDefaults .refl PassState.frame_trans (frame_emit pass _) (frame_emit pass _) s

/-- The frame but for the override, which a pass chooses once. -/
def PassState.LooseFrame (s t : PassState) : Prop :=
  s.ledger.Frame t.ledger ∧ s.Appends t

theorem PassState.Frame.loose {s t : PassState} (h : s.Frame t) : s.LooseFrame t :=
  ⟨h.ledger, h.appends⟩

theorem looseFrame_trans (s t u : PassState) (h : s.LooseFrame t) (k : t.LooseFrame u) :
    s.LooseFrame u := ⟨h.1.trans k.1, PassState.appends_trans s t u h.2 k.2⟩

theorem looseFrame_writeOverride (s : PassState) :
    s.LooseFrame (pass.writeOverride.runOn s).2 := by
  unfold Pass.writeOverride
  cases pass.settings.overrideMaterial with
  | none => exact (PassState.Frame.refl s).loose
  | some material =>
    simp only
    cases pass.scene.materialTree? material with
    | none => exact (s.frame_note _).loose
    | some tree =>
      exact Compile.rel_bind looseFrame_trans
        ((frameComparison pass).rel_writeMaterialTree _ tree s).loose
        fun token t => ⟨.refl _, .of_eq rfl rfl⟩

theorem looseFrame_opening (s : PassState) : s.LooseFrame (pass.opening.runOn s).2 :=
  Compile.rel_bind looseFrame_trans (frame_writeDefaults pass s).loose fun _ t =>
    looseFrame_writeOverride pass t

theorem looseFrame_body (index : Nat) (s : PassState) :
    s.LooseFrame ((pass.body index).runOn s).2 :=
  Compile.rel_bind looseFrame_trans (looseFrame_opening pass s) fun _ t =>
    ((frameComparison pass).rel_items index t).loose

/-- At the start of a pass nothing is compiled. -/
theorem idle_headed (s : PassState) : (pass.headed s).ledger.Idle :=
  ⟨fun _ _ => nofun, fun _ => nofun⟩

/-- Between two items of a pass nothing is being compiled. -/
theorem idle_before (index : Nat) (s : PassState) :
    ((pass.before index).runOn s).2.ledger.Idle := by
  have h : (pass.headed s).LooseFrame ((pass.before index).runOn s).2 := by
    rw [Pass.before_runOn]
    exact pass.rel_afterHead (PassState.Frame.refl _).loose (looseFrame_body pass index _)
  exact h.1.idle (idle_headed pass s)

/-- What a pass leaves in its sink: its head, some of the records that it tried, and what text
was written for meshes. -/
theorem sink_run (s : PassState) :
    ∃ (tried : List Record) (arrived : List Entry), (pass.run.runOn s).2.sent = s.sent ++ tried ∧
      (recordsOf arrived).Sublist tried ∧
      (pass.run.runOn s).2.sink = s.sink.writeAll (pass.header :: arrived) := by
  have h : (pass.headed s).Appends (pass.run.runOn s).2 := by
    rw [Pass.run_runOn]
    refine pass.rel_afterHead (PassState.Frame.refl _).appends ?_
    exact Compile.rel_bind PassState.appends_trans (looseFrame_body pass _ _).2 fun _ t =>
      .of_eq rfl rfl
  exact h

/-- **Every call leaves the marks as they were.** Whatever a call of the walk is
made on and whichever way it ends, what is being compiled, the object in scope and
the override are the same afterwards, what was compiled keeps its value, the names
and meshes have only grown in number, and the sink has only been appended to. So
when a pass starts on the next material or object, nothing is being compiled. -/
theorem every_call_framed (pass : Pass) :
    (∀ (depth : Nat) (s : PassState),
      (∀ tree node useLiterals, s.Frame ((pass.walk depth tree node useLiterals).runOn s).2) ∧
      (∀ tree node socket useLiterals,
        s.Frame ((resolveSocket (pass.walk depth) tree node socket useLiterals).runOn s).2) ∧
      (∀ tree, s.Frame ((writeMaterialTree (pass.walk depth) tree).runOn s).2) ∧
      (∀ object, s.Frame ((pass.writeObject (pass.walk depth) object).runOn s).2) ∧
      s.Frame (pass.writeGeometry.runOn s).2 ∧
      s.Frame ((pass.writeObjectMaterial (pass.walk depth)).runOn s).2 ∧
      (∀ tree node object,
        s.Frame ((pass.selectObject (pass.walk depth) tree node object).runOn s).2) ∧
      (∀ tree node group,
        s.Frame ((pass.selectGroup (pass.walk depth) tree node group).runOn s).2)) ∧
    ∀ index : Nat,
      pass.run = (do pass.before index; (pass.items.drop index).forM id; pass.closing) ∧
      ∀ s : PassState, ((pass.before index).runOn s).2.ledger.Idle := by
  refine ⟨fun depth s => ?_, fun index => ⟨pass.run_eq_before index, idle_before pass index⟩⟩
  have hc := (frameComparison pass).compiles_walk depth
  refine ⟨fun tree node useLiterals => frame_of_keeps (hc tree node useLiterals trivial) s,
    fun tree node socket useLiterals => ?_,
    fun tree => (frameComparison pass).rel_writeMaterialTree depth tree s,
    fun object => (frameComparison pass).rel_writeObject depth object s,
    frame_writeGeometry pass s,
    frame_of_keeps (Contract.keeps_writeObjectMaterial hc) s,
    fun tree node object => frame_of_keeps (Contract.keeps_select (Contract.keeps_writeObject hc)) s,
    fun tree node group => frame_of_keeps (Contract.keeps_select (Contract.keeps_writeObject hc)) s⟩
  -- a socket need not be one of the node's own here, so its literal is any value
  exact frame_of_keeps (Contract.keeps_resolveSocket trivial (hc.feeds trivial _ _) fun _ _ _ =>
    trivial) s

end ShadeNet
