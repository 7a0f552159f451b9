/-
# A pass is a journey through its visits

Each function of the walk, run on a state, is a journey through the visits that its trace
lists. The recursion goes through the nodes alone: every function is judged under the
assumption that the nodes below are told by their traces (`Pass.Told`).

Key definitions: `Quiet`, `Pass.Tells`, `Pass.Told`, `Pass.Constructs`.
Key theorems: `journey_ownMaterial`, `journey_object`, `told`, `journey_pass`.
-/
import Mathlib.Data.List.Forall2
import ShadeNet.Proofs.Journey

namespace ShadeNet

open Compile

variable {α β : Type}

/-! ### Steps between calls -/

/-- A step that calls nothing. -/
def Quiet (c : Compile α) : Prop :=
  ∀ s, s.Alike (c.runOn s).2 ∧ s.ledger.names ⊆ (c.runOn s).2.ledger.names

theorem quiet_pure (a : α) : Quiet (pure a) := fun s => ⟨.refl s, List.Subset.refl _⟩

theorem quiet_throw (f : Failure) : Quiet (throw f : Compile α) :=
  fun s => ⟨.refl s, List.Subset.refl _⟩

theorem quiet_report (line : LogLine) : Quiet (report line) :=
  fun s => ⟨alike_note s line, List.Subset.refl _⟩

theorem Quiet.bind {c : Compile α} {f : α → Compile β} (hc : Quiet c) (hf : ∀ a, Quiet (f a)) :
    Quiet (c >>= f) := fun s => by
  have h := hc s
  rw [runOn_bind]
  generalize c.runOn s = o at h ⊢
  rcases o with ⟨e | a, t⟩
  · exact h
  · exact ⟨h.1.trans (hf a t).1, List.Subset.trans h.2 (hf a t).2⟩

theorem quiet_report_pure (line : LogLine) (a : α) : Quiet (report line >>= fun _ => pure a) :=
  (quiet_report line).bind fun _ => quiet_pure a

theorem quiet_claimAndEmit (pass : Pass) (base : String) (reports : List LogLine)
    (record : String → Record) : Quiet (pass.claimAndEmit base reports record) := fun s =>
  ⟨alike_claimAndEmit pass base reports record s,
    (frame_claimAndEmit pass base reports record s).ledger.names⟩

theorem quiet_writeGeometry (pass : Pass) : Quiet pass.writeGeometry := fun s =>
  ⟨alike_writeGeometry pass s, (frame_writeGeometry pass s).ledger.names⟩

theorem quiet_writeDefaults (pass : Pass) : Quiet pass.writeDefaults := fun s =>
  ⟨alike_writeDefaults pass s, (frame_writeDefaults pass s).ledger.names⟩

theorem quiet_materialToken (tree : NodeTree) (r : Except Failure (Option Resolved)) :
    Quiet (materialToken tree r) := by
  unfold materialToken
  split
  · exact quiet_pure _
  · exact quiet_report_pure _ _
  · exact quiet_report_pure _ _
  · exact quiet_throw _

theorem quiet_objectToken (r : Except Failure (Option Resolved)) : Quiet (objectToken r) := by
  unfold objectToken
  split
  · exact quiet_pure _
  · exact quiet_report_pure _ _
  · exact quiet_throw _

theorem quiet_combineMaterials (pass : Pass) (key : String) (materials : List String) :
    Quiet (pass.combineMaterials key materials) := by
  unfold Pass.combineMaterials
  split
  · exact quiet_pure _
  · exact quiet_pure _
  · rw [Contract.claimAndEmit_plain]
    exact quiet_claimAndEmit _ _ _ _

/-! ### Steps with calls -/

variable {pass : Pass} {c : Option Visit} {scope : Option ObjectScope} {first : Trace}

variable (pass) in
/-- Run in the given scope, a step is a journey through the visits of its trace. -/
def Pass.Tells (c : Option Visit) (scope : Option ObjectScope) (trace : Trace)
    (step : Compile α) : Prop :=
  ∀ s, s.scope = scope → pass.Journey c s (trace s) (step.runOn s).2

theorem Quiet.tells {step : Compile α} (h : Quiet step) : pass.Tells c scope .none step :=
  fun s _ => .quiet (h s).1 (h s).2

namespace Pass.Tells

variable {step : Compile α}

theorem bind {f : α → Compile β} {rest : α → Trace} (hc : pass.Tells c scope first step)
    (hf : ∀ a, pass.Tells c scope (rest a) (f a)) :
    pass.Tells c scope (.bind step first rest) (step >>= f) := by
  intro s hs
  have h := hc s hs
  rw [runOn_bind]
  unfold Trace.bind
  generalize step.runOn s = o at h ⊢
  rcases o with ⟨e | a, t⟩
  · simpa using h
  · exact h.append (hf a t (h.scope.trans hs))

/-- A step with calls before one that calls nothing. -/
theorem before {f : α → Compile β} (hc : pass.Tells c scope first step) (hf : ∀ a, Quiet (f a)) :
    pass.Tells c scope first (step >>= f) := by
  intro s hs
  have h := hc s hs
  rw [runOn_bind]
  generalize step.runOn s = o at h ⊢
  rcases o with ⟨e | a, t⟩
  · exact h
  · simpa using h.append (.quiet (hf a t).1 (hf a t).2)

theorem attempt {g : Except Failure α → Compile β} (hc : pass.Tells c scope first step)
    (hg : ∀ r, Quiet (g r)) : pass.Tells c scope first (attempt step >>= g) := by
  have hattempt : pass.Tells c scope first (ShadeNet.attempt step) := fun s hs => hc s hs
  exact hattempt.before hg

theorem collect {f : α → Compile (Option β)} {first : α → Trace} {l : List α}
    (h : ∀ a ∈ l, pass.Tells c scope (first a) (f a)) :
    pass.Tells c scope (.collect f first l) (ShadeNet.collect f l) := by
  induction l with
  | nil => exact (quiet_pure _).tells
  | cons a rest ih =>
    have hrest := ih fun b hb => h b (List.mem_cons_of_mem a hb)
    exact (h a List.mem_cons_self).bind fun _ => hrest.before fun _ => quiet_pure _

theorem forM {f : α → Compile Unit} {first : α → Trace} {l : List α}
    (h : ∀ a ∈ l, pass.Tells c scope (first a) (f a)) :
    pass.Tells c scope (.collect f first l) (l.forM f) := by
  induction l with
  | nil => exact (quiet_pure _).tells
  | cons a rest ih =>
    exact (h a List.mem_cons_self).bind fun _ => ih fun b hb => h b (List.mem_cons_of_mem a hb)

end Pass.Tells

/-! ### Sockets -/

variable (pass) in
/-- Nodes are told by their traces, for whatever they are called. -/
def Pass.Told (depth : Nat) : Prop :=
  ∀ c tree node useLiterals s, pass.Calls c ⟨.node tree node useLiterals, depth, s⟩ →
    pass.Journey c s (pass.nodeTrace depth tree node useLiterals s)
      ((pass.walk depth tree node useLiterals).runOn s).2

variable (pass) in
/-- What feeds a node is called for it, in the given scope. -/
def Pass.CallsSources (c : Option Visit) (scope : Option ObjectScope) (depth : Nat)
    (tree : NodeTree) (node : Node) : Prop :=
  ∀ source useLiterals s, tree.Feeds source node → s.scope = scope →
    pass.Calls c ⟨.node tree source useLiterals, depth, s⟩

section Told

variable {depth : Nat} {tree : NodeTree} {node : Node} (hd : pass.Told depth)

include hd

theorem tells_resolveSocket (hc : pass.CallsSources c scope depth tree node) (socket : Socket)
    (useLiterals : Bool) :
    pass.Tells c scope (socketTrace (pass.nodeTrace depth) tree node socket useLiterals)
      (resolveSocket (pass.walk depth) tree node socket useLiterals) := by
  unfold socketTrace resolveSocket NodeTree.source?
  cases hl : tree.linkTo? ⟨node.name, socket.name⟩ with
  | none => exact (quiet_pure _).tells
  | some link =>
    simp only [Option.bind_some]
    cases hn : tree.node? link.source.node with
    | none => exact (quiet_report_pure _ _).tells
    | some source =>
      have hnode : pass.Tells c scope (pass.nodeTrace depth tree source useLiterals)
          (pass.walk depth tree source useLiterals) := fun s hs =>
        hd _ _ _ _ _ (hc source useLiterals s ⟨link, _, hl, hn⟩ hs)
      exact hnode.before fun _ => quiet_pure _

theorem tells_resolveInput (hc : pass.CallsSources c scope depth tree node) (name : String)
    (useLiterals : Bool) :
    pass.Tells c scope (inputTrace (pass.nodeTrace depth) tree node name useLiterals)
      (resolveInput (pass.walk depth) tree node name useLiterals) := by
  unfold inputTrace resolveInput
  cases node.input? name with
  | none => exact (quiet_report_pure _ _).tells
  | some socket => exact tells_resolveSocket hd hc socket useLiterals

/-! ### Nodes that are built once -/

theorem tells_supply (hc : pass.CallsSources c scope depth tree node) (useLiterals : Bool)
    (socket : Socket) :
    pass.Tells c scope (supplyTrace (pass.nodeTrace depth) tree node useLiterals socket)
      (supply (pass.walk depth) tree node useLiterals socket) := by
  unfold supplyTrace supply
  cases socket.attr with
  | none => exact (quiet_pure _).tells
  | some attr => exact (tells_resolveSocket hd hc socket useLiterals).before fun _ => quiet_pure _

theorem tells_textureLayer (hc : pass.CallsSources c scope depth tree node) (socket : Socket) :
    pass.Tells c scope (textureLayerTrace (pass.nodeTrace depth) tree node socket)
      (textureLayer (pass.walk depth) tree node socket) := by
  unfold textureLayerTrace textureLayer
  split
  · refine (tells_resolveSocket hd hc socket true).before fun value => ?_
    split
    · exact quiet_pure _
    · exact quiet_report_pure _ _
  · exact (quiet_pure _).tells

theorem tells_linkedWeight (hc : pass.CallsSources c scope depth tree node) (socket : String) :
    pass.Tells c scope (weightTrace (pass.nodeTrace depth) tree node socket)
      (Pass.linkedWeight (pass.walk depth) tree node socket) := by
  unfold weightTrace Pass.linkedWeight
  cases hl : tree.linkedSource? ⟨node.name, socket⟩ with
  | none => exact (quiet_pure _).tells
  | some found =>
    obtain ⟨source, output⟩ := found
    have hfeeds : tree.Feeds source node := by
      unfold NodeTree.linkedSource? at hl
      obtain ⟨link, hlink, hl⟩ := Option.bind_eq_some_iff.mp hl
      obtain ⟨source', hn, hl⟩ := Option.bind_eq_some_iff.mp hl
      obtain ⟨output', -, hl⟩ := Option.bind_eq_some_iff.mp hl
      cases hl
      exact ⟨link, socket, hlink, hn⟩
    have hnode : pass.Tells c scope (pass.nodeTrace depth tree source false)
        (pass.walk depth tree source false) := fun s hs =>
      hd _ _ _ _ _ (hc source false s hfeeds hs)
    exact hnode.before fun _ => quiet_pure _

theorem tells_brdfLayer (hc : pass.CallsSources c scope depth tree node) (layer : Nat) :
    pass.Tells c scope (pass.brdfLayerTrace depth (pass.nodeTrace depth) tree node layer)
      (pass.brdfLayer (pass.walk depth) tree node layer) := by
  unfold Pass.brdfLayerTrace Pass.brdfLayer
  simp only
  cases node.input? ("BRDF " ++ toString layer) with
  | none => exact (quiet_pure _).tells
  | some socket =>
    simp only
    split
    · refine (tells_resolveSocket hd hc socket true).bind fun value => ?_
      cases value.bind (·.token?) with
      | none => exact (quiet_report_pure _ _).tells
      | some brdf =>
        refine (tells_linkedWeight hd hc _).before fun weight => ?_
        split
        · exact quiet_pure _
        · unfold Pass.writeWeight
          rw [Contract.claimAndEmit_plain]
          exact (quiet_claimAndEmit _ _ _ _).bind fun _ => quiet_pure _
    · exact (quiet_pure _).tells

end Told

/-- The end of a build: its record is written, or nothing comes of it. -/
def Concludes (step : Compile (Option Resolved)) : Prop := ∀ s,
  (∃ r t, s.Writes r t ∧ step.runOn s = (.ok (some (.reference r.name)), t)) ∨
    (∀ value, (step.runOn s).1 ≠ .ok (some value)) ∧ s.Alike (step.runOn s).2 ∧
      s.ledger.names ⊆ (step.runOn s).2.ledger.names

theorem concludes_report (line : LogLine) : Concludes (report line >>= fun _ => pure none) :=
  fun s => Or.inr ⟨nofun, quiet_report_pure line _ s⟩

theorem concludes_claimAndEmit (pass : Pass) (base : String) (reports : List LogLine)
    {record : String → Record} (hn : ∀ name, (record name).name = name) :
    Concludes (pass.claimAndEmit base reports record >>= fun token =>
      pure (some (.reference token))) := by
  intro s
  rcases hrun : (pass.claimAndEmit base reports record).runOn s with ⟨e | token, t⟩
  · have hquiet := quiet_claimAndEmit pass base reports record s
    rw [hrun] at hquiet
    rw [runOn_bind_error hrun]
    exact Or.inr ⟨nofun, hquiet⟩
  · obtain ⟨r, -, rfl, hw⟩ := claimAndEmit_writes hn hrun
    rw [runOn_bind_ok hrun]
    exact Or.inl ⟨r, t, hw, rfl⟩

variable (pass) in
/-- A build is a journey through its visits, behind which its record is written, or
nothing comes of it. -/
def Pass.Constructs (c : Option Visit) (scope : Option ObjectScope) (trace : Trace)
    (build : Compile (Option Resolved)) : Prop := ∀ s, s.scope = scope →
  (∃ u r w, pass.Journey c s (trace s) u ∧ u.Writes r w ∧
    build.runOn s = (.ok (some (.reference r.name)), w)) ∨
  (∀ value, (build.runOn s).1 ≠ .ok (some value)) ∧
    pass.Journey c s (trace s) (build.runOn s).2

theorem Pass.Tells.constructs {step : Compile α} {f : α → Compile (Option Resolved)}
    (hc : pass.Tells c scope first step) (hf : ∀ a, Concludes (f a)) :
    pass.Constructs c scope first (step >>= f) := by
  intro s hs
  have h := hc s hs
  rw [runOn_bind]
  generalize step.runOn s = o at h ⊢
  rcases o with ⟨e | a, t⟩
  · exact Or.inr ⟨nofun, h⟩
  · rcases hf a t with ⟨r, w, hw, hrun⟩ | ⟨hnone, halike, hnames⟩
    · exact Or.inl ⟨t, r, w, h, hw, hrun⟩
    · exact Or.inr ⟨hnone, by simpa using h.append (.quiet halike hnames)⟩

theorem constructs_report (line : LogLine) :
    pass.Constructs c scope .none (report line >>= fun _ => pure none) :=
  fun s _ => Or.inr ⟨nofun, (quiet_report_pure line _).tells s ‹_›⟩

theorem Visit.run_node (tree : NodeTree) (node : Node) (useLiterals : Bool) (depth : Nat)
    (s : PassState) : Visit.run pass ⟨.node tree node useLiterals, depth, s⟩ =
      (pass.walk depth tree node useLiterals).runOn s := rfl

theorem gathered?_of_call {v : Visit} (h : v.call ≠ .ownMaterial) (name : String) :
    pass.gathered? name v = none := by
  unfold Pass.gathered?
  split
  · exact absurd ‹_› h
  · rfl

/-- What is known of a call that writes a record for the materials of an object. -/
theorem of_gathered? {v : Visit} {name : String} {r : Record}
    (h : pass.gathered? name v = some r) :
    ∃ scope object tokens token, v.call = .ownMaterial ∧ v.state.scope = some scope ∧
      scope.name = name ∧ pass.scene.object? scope.name = some object ∧
      v.state.ledger.synthesized? (multiMaterialName scope.name) = none ∧ 2 ≤ tokens.length ∧
      ((collect (pass.slotMaterial (pass.walk v.depth)) object.slots).runOn v.state).1 =
        .ok tokens ∧
      (v.run pass).1 = .ok (some (.reference token)) ∧
      r = Pass.multiMaterialRecord token tokens := by
  unfold Pass.gathered? at h
  split at h
  · rename_i scope hcall hscope
    split at h
    · rename_i object ho hnone
      split at h
      · rename_i tokens token hcollect hrun
        split at h
        · rename_i hsame
          cases h
          exact ⟨scope, object, tokens, token, hcall, hscope, hsame.1, ho, hnone, hsame.2,
            hcollect, hrun, rfl⟩
        · cases h
      · cases h
    · cases h
  · cases h

theorem built?_of_call {v : Visit}
    (h : ∀ tree node useLiterals, v.call = .node tree node useLiterals → node.kind.isBuilt = false) :
    pass.built? v = none := by
  unfold Pass.built?
  split
  · rename_i tree node useLiterals hcall
    rw [if_neg (by simp [h tree node useLiterals hcall])]
  · rfl

theorem built?_of_reached {v : Visit} {tree : NodeTree} {node : Node} {useLiterals : Bool}
    (hcall : v.call = .node tree node useLiterals)
    (h : v.state.ledger.node? (v.state.treeKey tree.name) node.name ≠ none) :
    pass.built? v = none := by
  unfold Pass.built?
  rw [hcall]
  exact if_neg (by simp [h])

theorem built?_of_run {v : Visit} (h : ∀ value, (v.run pass).1 ≠ .ok (some value)) :
    pass.built? v = none := by
  unfold Pass.built?
  split
  · split
    · split
      · exact absurd ‹_› (h _)
      · rfl
    · rfl
  · rfl

/-- The record that is written last and entered for the node is the one that is built. -/
theorem built?_of_writes {v : Visit} {tree : NodeTree} {node : Node} {useLiterals : Bool}
    {u w : PassState} {r : Record} {key name : String} {value : Resolved}
    (hcall : v.call = .node tree node useLiterals) (hkind : node.kind.isBuilt = true)
    (hnone : v.state.ledger.node? (v.state.treeKey tree.name) node.name = none)
    (hw : u.Writes r w) (hrun : v.run pass = (.ok (some value), w.finish key name value)) :
    pass.built? v = some r := by
  have hlast : (w.finish key name value).sent.getLast? = some r := by
    show w.sent.getLast? = some r
    rw [hw.sent, List.getLast?_concat]
  unfold Pass.built?
  simp only [hcall, hkind, hnone, hrun, hlast, decide_true, Bool.and_true, if_true]

theorem gathered?_of_error {v : Visit} {e : Failure} (h : (v.run pass).1 = .error e)
    (name : String) : pass.gathered? name v = none := by
  unfold Pass.gathered?
  rw [h]
  split
  · split
    · split
      · cases ‹Except.error e = _›
      · rfl
    · rfl
  · rfl

/-- A node that is built once, from the journey of its build. -/
theorem journey_once {tree : NodeTree} {node : Node} {useLiterals : Bool} {depth : Nat}
    {build : Compile (Option Resolved)} {trace : Trace} {s : PassState}
    (hwalk : pass.walk depth tree node useLiterals = once tree node build)
    (hkind : node.kind.isBuilt = true)
    (hcall : pass.Calls c ⟨.node tree node useLiterals, depth, s⟩)
    (hbuild : pass.Constructs (some ⟨.node tree node useLiterals, depth, s⟩) s.scope trace build) :
    pass.Journey c s (⟨.node tree node useLiterals, depth, s⟩ :: onceTrace tree node trace s)
      ((pass.walk depth tree node useLiterals).runOn s).2 := by
  set v : Visit := ⟨.node tree node useLiterals, depth, s⟩ with hv
  have hrun : v.run pass = (once tree node build).runOn s := by rw [← hwalk]; rfl
  rw [once_runOn] at hrun
  unfold onceTrace
  show pass.Journey c v.state _ (v.run pass).2
  cases hnone : s.ledger.node? (s.treeKey tree.name) node.name with
  | some progress =>
    have hend : (v.run pass).2 = s := by
      rw [hrun, hnone]
      cases progress <;> rfl
    have hpassed : pass.Brackets v s [] s := by
      have h : pass.Brackets v v.state [] (v.run pass).2 :=
        .passed (gathered?_of_call (by simp [hv])) (Visit.not_opens (by simp [hv]))
          (built?_of_reached rfl (by rw [hnone]; exact nofun))
      rwa [hend] at h
    exact .call hcall hpassed (.refl _ _ _)
  | none =>
    simp only [hnone] at hrun ⊢
    rcases hbuild (s.mark (s.treeKey tree.name) node.name) rfl with
      ⟨u, r, w, hj, hw, hb⟩ | ⟨hvalue, hj⟩
    · rw [hb] at hrun
      exact .call hcall (.built rfl hnone hw hrun hkind) hj
    · have hdrop : (v.run pass).2 =
          (build.runOn (s.mark (s.treeKey tree.name) node.name)).2.abandon (s.treeKey tree.name)
            node.name := by
        rw [hrun]
        generalize build.runOn _ = o at hvalue
        rcases o with ⟨e | _ | value, t⟩
        · rfl
        · rfl
        · exact absurd rfl (hvalue value)
      have hnothing : ∀ value, (v.run pass).1 ≠ .ok (some value) := by
        rw [hrun]
        generalize build.runOn _ = o at hvalue
        rcases o with ⟨e | _ | value, t⟩
        · exact nofun
        · exact nofun
        · exact absurd rfl (hvalue value)
      exact .call hcall (.dropped rfl hnone hdrop hnothing) hj

/-! ### Materials -/

section Surface

variable {depth : Nat} (hd : pass.Told depth)

/-- What is done with the result of a step changes neither the state nor a failure. -/
theorem runOn_bind_pure (step : Compile α) (g : α → β) (s : PassState) :
    (step >>= fun a => pure (g a)).runOn s = ((step.runOn s).1.map g, (step.runOn s).2) := by
  rw [runOn_bind]
  rcases step.runOn s with ⟨_ | _, t⟩ <;> rfl

variable (pass) in
theorem Visit.run_material (tree : NodeTree) (depth : Nat) (s : PassState) :
    Visit.run pass ⟨.material tree, depth, s⟩ =
      (((writeMaterialTree (pass.walk depth) tree).runOn s).1.map fun token =>
        some (.reference token), ((writeMaterialTree (pass.walk depth) tree).runOn s).2) :=
  runOn_bind_pure _ _ s

variable (pass) in
theorem Visit.run_ownMaterial (depth : Nat) (s : PassState) :
    Visit.run pass ⟨.ownMaterial, depth, s⟩ =
      (((pass.writeObjectMaterial (pass.walk depth)).runOn s).1.map fun token =>
        some (.reference token), ((pass.writeObjectMaterial (pass.walk depth)).runOn s).2) :=
  runOn_bind_pure _ _ s

variable (pass) in
theorem Visit.run_object (name : String) (depth : Nat) (s : PassState) :
    Visit.run pass ⟨.object name, depth, s⟩ =
      (((pass.writeObject (pass.walk depth) name).runOn s).1.map fun token =>
        token.map .reference, ((pass.writeObject (pass.walk depth) name).runOn s).2) :=
  runOn_bind_pure _ _ s

include hd

theorem tells_materialTree {tree : NodeTree}
    (hc : ∀ output, tree.materialOutput? = some output →
      pass.CallsSources c scope depth tree output) :
    pass.Tells c scope (materialTrace (pass.nodeTrace depth) tree)
      (writeMaterialTree (pass.walk depth) tree) := by
  unfold materialTrace writeMaterialTree
  cases ho : tree.materialOutput? with
  | none => exact (quiet_report_pure _ _).tells
  | some output =>
    intro s hs
    rw [runOn_bind_ok (runOn_get s)]
    simp only
    cases (if output.kind = .materialOutput true then none else s.overrideToken) with
    | some token => exact .refl pass c s
    | none =>
      simp only
      split
      · exact ((tells_resolveInput hd (hc output ho) "Material" true).attempt
          (quiet_materialToken tree)) s hs
      · exact (quiet_report_pure _ _).tells s hs

/-- The tree of a material, which is called for another call or for the pass. -/
theorem journey_material {tree : NodeTree} {s : PassState}
    (hcall : pass.Calls c ⟨.material tree, depth, s⟩) :
    pass.Journey c s (Trace.call (.material tree) depth
        (materialTrace (pass.nodeTrace depth) tree) s)
      ((writeMaterialTree (pass.walk depth) tree).runOn s).2 := by
  set v : Visit := ⟨.material tree, depth, s⟩ with hv
  have hend : (v.run pass).2 = ((writeMaterialTree (pass.walk depth) tree).runOn s).2 := by
    rw [hv, Visit.run_material]
  have hbelow : pass.Tells (some v) s.scope (materialTrace (pass.nodeTrace depth) tree)
      (writeMaterialTree (pass.walk depth) tree) :=
    tells_materialTree hd fun output ho source useLiterals t hfeeds ht =>
      .materialEnd rfl ho hfeeds rfl ht
  have hj := hbelow s rfl
  rw [← hend] at hj ⊢
  exact .call hcall
    (.passed (gathered?_of_call (by simp [hv])) (Visit.not_opens (by simp [hv]))
      (built?_of_call (by simp [hv]))) hj

theorem tells_slotMaterial {slot : Option String}
    (hc : ∀ tree s, slot.bind pass.scene.materialTree? = some tree → s.scope = scope →
      pass.Calls c ⟨.material tree, depth, s⟩) :
    pass.Tells c scope (pass.slotTrace depth (pass.nodeTrace depth) slot)
      (pass.slotMaterial (pass.walk depth) slot) := by
  unfold Pass.slotTrace Pass.slotMaterial
  cases hslot : slot.bind pass.scene.materialTree? with
  | none => exact (quiet_pure _).tells
  | some tree =>
    have hmaterial : pass.Tells c scope (.call (.material tree) depth
        (materialTrace (pass.nodeTrace depth) tree)) (writeMaterialTree (pass.walk depth) tree) :=
      fun s hs => journey_material hd (hc tree s hslot hs)
    exact hmaterial.before fun _ => quiet_pure _

omit hd in
/-- The token that a slot gives is that of its tree, if it has one. -/
theorem slot_gives {scope : ObjectScope} {slot : Option String} {token : Option String}
    {s t : PassState} (hs : s.scope = some scope)
    (h : (pass.slotMaterial (pass.walk depth) slot).runOn s = (.ok token, t)) :
    List.Forall₂ (pass.GivesMaterial (pass.slotTrace depth (pass.nodeTrace depth) slot s)
      (some scope)) (slot.bind pass.scene.materialTree?).toList token.toList := by
  unfold Pass.slotMaterial at h
  unfold Pass.slotTrace
  cases htree : slot.bind pass.scene.materialTree? with
  | none =>
    simp only [htree] at h
    cases h
    exact .nil
  | some tree =>
    simp only [htree] at h
    obtain ⟨own, w, hown, hpure⟩ := of_runOn_bind_ok h
    cases hpure
    refine .cons ⟨⟨.material tree, depth, s⟩, List.mem_cons_self, rfl, hs, ?_⟩ .nil
    rw [Visit.run_material, hown]
    rfl

/-- The tokens that the slots of an object give are those of its trees, in order, and each
is given by a call in the scope of the object. -/
theorem slots_give {scope : ObjectScope} {slots : List (Option String)} {tokens : List String}
    {s u : PassState}
    (hc : ∀ slot ∈ slots, ∀ tree s, slot.bind pass.scene.materialTree? = some tree →
      s.scope = some scope → pass.Calls c ⟨.material tree, depth, s⟩)
    (hs : s.scope = some scope)
    (h : (collect (pass.slotMaterial (pass.walk depth)) slots).runOn s = (.ok tokens, u)) :
    List.Forall₂ (pass.GivesMaterial (Trace.collect (pass.slotMaterial (pass.walk depth))
        (pass.slotTrace depth (pass.nodeTrace depth)) slots s) (some scope))
      (slots.filterMap (·.bind pass.scene.materialTree?)) tokens := by
  induction slots generalizing s tokens with
  | nil =>
    cases h
    exact .nil
  | cons slot rest ih =>
    have hslot := tells_slotMaterial hd (hc slot List.mem_cons_self) s hs
    obtain ⟨first, t, hfirst, h⟩ := of_runOn_bind_ok h
    obtain ⟨others, w, hothers, h⟩ := of_runOn_bind_ok h
    cases h
    rw [hfirst] at hslot
    have hrest := ih (fun slot hm => hc slot (List.mem_cons_of_mem _ hm))
      (hslot.scope.trans hs) hothers
    have hall : Trace.collect (pass.slotMaterial (pass.walk depth))
        (pass.slotTrace depth (pass.nodeTrace depth)) (slot :: rest) s =
        pass.slotTrace depth (pass.nodeTrace depth) slot s ++
          Trace.collect (pass.slotMaterial (pass.walk depth))
            (pass.slotTrace depth (pass.nodeTrace depth)) rest t := by
      show Trace.bind _ _ _ s = _
      unfold Trace.bind
      rw [hfirst]
    have htrees : (slot :: rest).filterMap (·.bind pass.scene.materialTree?) =
        (slot.bind pass.scene.materialTree?).toList ++
          rest.filterMap (·.bind pass.scene.materialTree?) := by
      rw [List.filterMap_cons]
      cases slot.bind pass.scene.materialTree? <;> rfl
    rw [hall, htrees]
    exact List.rel_append
      ((slot_gives hs hfirst).imp fun _ _ hg => hg.mono (List.subset_append_left _ _))
      (hrest.imp fun _ _ hg => hg.mono (List.subset_append_right _ _))

variable (pass depth) in
omit hd in
/-- What has a tree among the slots of the object in scope is called for its material. -/
theorem calls_slot {scope : ObjectScope} {object : SceneObject} {s : PassState}
    (hscope : s.scope = some scope) (ho : pass.scene.object? scope.name = some object) :
    ∀ slot ∈ object.slots, ∀ tree t, slot.bind pass.scene.materialTree? = some tree →
      t.scope = some scope →
      pass.Calls (some ⟨.ownMaterial, depth, s⟩) ⟨.material tree, depth, t⟩ :=
  fun slot hm _ _ ht hts =>
    .slot rfl hscope ho (List.mem_filterMap.mpr ⟨slot, hm, ht⟩) rfl (hts.trans hscope.symm)

variable (pass depth) in
omit hd in
/-- The visits of the slots of the object in scope, if its material is not there. -/
theorem slotsTrace_eq (trace : NodeTree → Node → Bool → Trace) {scope : ObjectScope}
    {object : SceneObject} {s : PassState} (hscope : s.scope = some scope)
    (ho : pass.scene.object? scope.name = some object)
    (hnone : s.ledger.synthesized? (multiMaterialName scope.name) = none) :
    pass.slotsTrace depth trace s = Trace.collect (pass.slotMaterial (pass.walk depth))
      (pass.slotTrace depth trace) object.slots s := by
  simp only [Pass.slotsTrace, hscope, ho, hnone]

/-- The materials of the object in scope are gathered. -/
theorem journey_gathered {scope : ObjectScope} {object : SceneObject} {s : PassState}
    (hcall : pass.Calls c ⟨.ownMaterial, depth, s⟩) (hscope : s.scope = some scope)
    (ho : pass.scene.object? scope.name = some object)
    (hnone : s.ledger.synthesized? (multiMaterialName scope.name) = none) :
    pass.Journey c s (pass.ownMaterialTrace depth (pass.nodeTrace depth) s)
      (Visit.run pass ⟨.ownMaterial, depth, s⟩).2 := by
  set v : Visit := ⟨.ownMaterial, depth, s⟩ with hv
  have htrace := slotsTrace_eq pass depth (pass.nodeTrace depth) hscope ho hnone
  have hcalls := calls_slot pass depth hscope ho
  have hj : pass.Journey (some v) s (pass.slotsTrace depth (pass.nodeTrace depth) s)
      ((collect (pass.slotMaterial (pass.walk depth)) object.slots).runOn s).2 := by
    rw [htrace]
    exact Pass.Tells.collect (fun slot hm => tells_slotMaterial hd (hcalls slot hm)) s hscope
  have hrun := Visit.run_ownMaterial pass depth s
  rw [← hv] at hrun
  unfold Pass.writeObjectMaterial at hrun
  rw [runOn_bind_ok (runOn_get s)] at hrun
  simp only [hscope, ho, hnone] at hrun
  show pass.Journey c v.state (v :: pass.slotsTrace depth (pass.nodeTrace depth) s) _
  have hopens : ∀ name, ¬ v.Opens pass name := Visit.not_opens (by simp [hv])
  have hbuilt : pass.built? v = none := built?_of_call (by simp [hv])
  rcases hcollect : (collect (pass.slotMaterial (pass.walk depth)) object.slots).runOn s with
    ⟨e | tokens, u⟩ <;> rw [hcollect] at hj
  · rw [runOn_bind_error hcollect] at hrun
    refine .call hcall (.passed (gathered?_of_error (e := e) (by rw [hrun]; rfl)) hopens hbuilt) ?_
    rw [hrun]
    exact hj
  · rw [runOn_bind_ok hcollect] at hrun
    rcases hcombine : (pass.combineMaterials (multiMaterialName scope.name) tokens).runOn u with
      ⟨e | token, w⟩
    · rw [runOn_bind_error hcombine] at hrun
      have hquiet := quiet_combineMaterials pass (multiMaterialName scope.name) tokens u
      rw [hcombine] at hquiet
      refine .call hcall
        (.passed (gathered?_of_error (e := e) (by rw [hrun]; rfl)) hopens hbuilt) ?_
      rw [hrun]
      simpa using hj.append (.quiet hquiet.1 hquiet.2)
    · rw [runOn_bind_ok hcombine] at hrun
      have hgive := slots_give hd hcalls hscope hcollect
      rw [← htrace] at hgive
      exact .call hcall (.gathered rfl hscope ho hnone hcollect rfl hgive hcombine hrun) hj

/-- The material of the object in scope, which is called for another call. -/
theorem journey_ownMaterial {s : PassState}
    (hcall : pass.Calls c ⟨.ownMaterial, depth, s⟩) :
    pass.Journey c s (pass.ownMaterialTrace depth (pass.nodeTrace depth) s)
      ((pass.writeObjectMaterial (pass.walk depth)).runOn s).2 := by
  set v : Visit := ⟨.ownMaterial, depth, s⟩ with hv
  have hend : (v.run pass).2 = ((pass.writeObjectMaterial (pass.walk depth)).runOn s).2 := by
    rw [hv, Visit.run_ownMaterial]
  rw [← hend]
  -- a call that finds its answer, or has none to give, calls nothing
  have hplain : ∀ {r t}, (pass.writeObjectMaterial (pass.walk depth)).runOn s = (r, t) →
      s.Alike t → s.ledger.names ⊆ t.ledger.names → (∀ name, pass.gathered? name v = none) →
      pass.slotsTrace depth (pass.nodeTrace depth) s = [] →
      pass.Journey c s (pass.ownMaterialTrace depth (pass.nodeTrace depth) s) (v.run pass).2 := by
    intro r t h halike hnames hg hslots
    show pass.Journey c v.state (v :: pass.slotsTrace depth (pass.nodeTrace depth) s) _
    rw [hslots]
    refine .call hcall
      (.passed hg (Visit.not_opens (by simp [hv])) (built?_of_call (by simp [hv]))) ?_
    rw [hend, h]
    exact .quiet halike hnames
  unfold Pass.writeObjectMaterial at hplain
  rw [runOn_bind_ok (runOn_get s)] at hplain
  cases hscope : s.scope with
  | none =>
    simp only [hscope] at hplain
    exact hplain rfl (alike_note s _) (List.Subset.refl _)
      (fun name => by simp [Pass.gathered?, hv, hscope]) (by simp [Pass.slotsTrace, hscope])
  | some scope =>
    cases ho : pass.scene.object? scope.name with
    | none =>
      simp only [hscope, ho] at hplain
      exact hplain rfl (.refl s) (List.Subset.refl _)
        (fun name => by simp [Pass.gathered?, hv, hscope, ho])
        (by simp [Pass.slotsTrace, hscope, ho])
    | some object =>
      cases hmemo : s.ledger.synthesized? (multiMaterialName scope.name) with
      | none => exact journey_gathered hd hcall hscope ho hmemo
      | some token =>
        simp only [hscope, ho, hmemo] at hplain
        exact hplain rfl (.refl s) (List.Subset.refl _)
          (fun name => by simp [Pass.gathered?, hv, hscope, ho, hmemo])
          (by simp [Pass.slotsTrace, hscope, ho, hmemo])

/-! ### Objects -/

omit hd in
/-- What feeds the end of an object's tree is called in the scope of the object. -/
theorem callsSources_objectEnd {v : Visit} {name : String} {object : SceneObject} {key : String}
    {tree : NodeTree} {output : Node} (hv : v.call = .object name)
    (hnone : v.state.ledger.object? name = none) (ho : pass.scene.object? name = some object)
    (hkey : object.tree = some key) (htree : pass.scene.tree? key = some tree)
    (hout : tree.objectOutput? = some output) :
    pass.CallsSources (some v) (some (object.scope name)) depth tree output :=
  fun _ _ _ hfeeds hs => .objectEnd hv hnone ho hkey htree hout hfeeds rfl hs

theorem tells_buildObject {v : Visit} {name : String} {object : SceneObject}
    (hv : v.call = .object name) (hnone : v.state.ledger.object? name = none)
    (ho : pass.scene.object? name = some object) :
    pass.Tells (some v) (some (object.scope name))
      (pass.buildTrace depth (pass.nodeTrace depth) object)
      (pass.buildObject (pass.walk depth) name object) := by
  unfold Pass.buildTrace Pass.buildObject
  cases hkey : object.tree with
  | none =>
    unfold Pass.writePlainObject
    cases pass.catalog.get? "Node" with
    | none => exact (quiet_report_pure _ _).tells
    | some desc =>
      refine (quiet_writeGeometry pass).tells.bind fun geometry => ?_
      cases geometry with
      | none => exact (quiet_pure _).tells
      | some geometry =>
        have hmaterial : pass.Tells (some v) (some (object.scope name))
            (pass.ownMaterialTrace depth (pass.nodeTrace depth))
            (pass.writeObjectMaterial (pass.walk depth)) := fun s hs =>
          journey_ownMaterial hd (.plain hv hnone ho rfl hs)
        refine hmaterial.before fun material => ?_
        simp only [← bind_assoc, Contract.claimAndEmit_plugin]
        exact (quiet_claimAndEmit _ _ _ _).bind fun _ => quiet_pure _
  | some key =>
    simp only
    cases htree : pass.scene.tree? key with
    | none => exact (quiet_report_pure _ _).tells
    | some tree =>
      unfold writeObjectTree
      simp only
      cases hout : tree.objectOutput? with
      | none => exact (quiet_report_pure _ _).tells
      | some output =>
        exact (tells_resolveInput hd (callsSources_objectEnd hv hnone ho hkey htree hout)
          "Object" true).attempt quiet_objectToken

/-- An object, which is called for another call or for the pass. -/
theorem journey_object {name : String} {s : PassState}
    (hcall : pass.Calls c ⟨.object name, depth, s⟩) :
    pass.Journey c s (pass.objectTrace depth (pass.nodeTrace depth) name s)
      ((pass.writeObject (pass.walk depth) name).runOn s).2 := by
  set v : Visit := ⟨.object name, depth, s⟩ with hv
  have hrun := Visit.run_object pass name depth s
  rw [← hv] at hrun
  have hend : (v.run pass).2 = ((pass.writeObject (pass.walk depth) name).runOn s).2 := by
    rw [hrun]
  have hgathered : ∀ name, pass.gathered? name v = none := gathered?_of_call (by simp [hv])
  have hquiet : (∀ name, ¬ v.Opens pass name) → s.Alike (v.run pass).2 →
      s.ledger.names ⊆ (v.run pass).2.ledger.names →
      pass.Journey c v.state [v] (v.run pass).2 := fun hopens halike hnames =>
    .call hcall (.passed hgathered hopens (built?_of_call (by simp [hv]))) (.quiet halike hnames)
  rw [← hend]
  unfold Pass.objectTrace Trace.call
  beta_reduce
  show pass.Journey c v.state (v :: _) _
  rw [writeObject_runOn] at hrun
  cases hl : s.ledger.object? name with
  | some progress =>
    have hopens : ∀ name, ¬ v.Opens pass name := by
      rintro _ ⟨hcall, hnone, -⟩
      cases hcall
      rw [hl] at hnone
      cases hnone
    refine hquiet hopens ?_ ?_ <;> rw [hrun] <;> cases progress <;> simp only [hl]
    · exact alike_note s _
    · exact .refl s
    · exact List.Subset.refl _
    · exact List.Subset.refl _
  | none =>
    simp only [hl] at hrun ⊢
    cases ho : pass.scene.object? name with
    | none =>
      simp only [ho] at hrun ⊢
      have hopens : ∀ name, ¬ v.Opens pass name := by
        rintro _ ⟨hcall, -, hknown⟩
        cases hcall
        rw [ho] at hknown
        cases hknown
      refine hquiet hopens ?_ ?_ <;> rw [hrun]
      · exact .refl s
      · exact List.Subset.refl _
    | some object =>
      simp only [ho] at hrun ⊢
      by_cases hvisible : object.visible = true
      · rw [if_pos hvisible] at hrun ⊢
        have hj := tells_buildObject hd (v := v) rfl hl ho (s.enter name object) rfl
        rcases hbuild : (pass.buildObject (pass.walk depth) name object).runOn
          (s.enter name object) with ⟨e | token, u⟩ <;> rw [hbuild] at hrun hj
        · exact .call hcall (.quit rfl hl ho (by rw [hrun]; rfl)) hj
        · exact .call hcall (.left rfl hl ho hbuild hrun hvisible) hj
      · rw [if_neg hvisible] at hrun ⊢
        exact .call hcall (.hidden rfl hl hrun ho) (.refl _ _ _)

theorem tells_select {tree : NodeTree} {node : Node} {names : List String}
    (hc : ∀ name s, s.ledger.object? name ≠ some .resolving → s.scope = scope →
      pass.Calls c ⟨.object name, depth, s⟩) :
    pass.Tells c scope (pass.selectTrace depth (pass.nodeTrace depth) tree node names)
      (pass.select (pass.walk depth) tree node names) := by
  unfold Pass.selectTrace Pass.select
  refine (Pass.Tells.collect fun name _ s hs => ?_).before fun _ => quiet_pure _
  unfold Pass.selectMember
  rw [runOn_bind_ok (runOn_get s)]
  split
  · exact .refl pass c s
  · rename_i hfree
    exact journey_object hd (hc name s hfree hs)

/-! ### Nodes -/

theorem constructs_plugin {tree : NodeTree} {node : Node}
    (hc : pass.CallsSources c scope depth tree node) (plugin : String) (useLiterals : Bool) :
    pass.Constructs c scope
      (pass.pluginTrace depth (pass.nodeTrace depth) tree node plugin useLiterals)
      (pass.writePluginNode (pass.walk depth) tree node plugin useLiterals) := by
  unfold Pass.pluginTrace Pass.writePluginNode
  cases pass.catalog.get? plugin with
  | none => exact constructs_report _
  | some desc =>
    refine (Pass.Tells.collect fun socket _ =>
      tells_supply hd hc useLiterals socket).constructs fun supplied => ?_
    simp only [← bind_assoc, Contract.claimAndEmit_plugin]
    exact concludes_claimAndEmit _ _ _ fun _ => rfl

theorem constructs_layeredTexture {tree : NodeTree} {node : Node}
    (hc : pass.CallsSources c scope depth tree node) :
    pass.Constructs c scope
      (.collect (textureLayer (pass.walk depth) tree node)
        (textureLayerTrace (pass.nodeTrace depth) tree node) node.inputs)
      (pass.writeLayeredTexture (pass.walk depth) tree node) := by
  unfold Pass.writeLayeredTexture
  refine (Pass.Tells.collect fun socket _ =>
    tells_textureLayer hd hc socket).constructs fun layers => ?_
  split
  · exact concludes_report _
  · simp only [← bind_assoc, Contract.claimAndEmit_plain]
    exact concludes_claimAndEmit _ _ _ fun _ => rfl

theorem constructs_layeredBrdf {tree : NodeTree} {node : Node}
    (hc : pass.CallsSources c scope depth tree node) (additive : Bool) :
    pass.Constructs c scope
      (.collect (pass.brdfLayer (pass.walk depth) tree node)
        (pass.brdfLayerTrace depth (pass.nodeTrace depth) tree node)
        (List.range' 1 (node.inputs.length / 2)))
      (pass.writeLayeredBrdf (pass.walk depth) tree node additive) := by
  unfold Pass.writeLayeredBrdf
  refine (Pass.Tells.collect fun layer _ =>
    tells_brdfLayer hd hc layer).constructs fun layers => ?_
  split
  · exact concludes_report _
  · simp only [← bind_assoc, Contract.claimAndEmit_plain]
    exact concludes_claimAndEmit _ _ _ fun _ => rfl

/-- One step of the walk is told if the nodes below are. -/
theorem told_succ : pass.Told (depth + 1) := by
  intro c tree node useLiterals s hcall
  set v : Visit := ⟨.node tree node useLiterals, depth + 1, s⟩ with hv
  have hrun : v.run pass = (pass.compileNode (pass.walk depth) tree node useLiterals).runOn s := rfl
  have hsources : pass.CallsSources (some v) s.scope depth tree node :=
    fun _ _ _ hfeeds ht => .source rfl hfeeds rfl ht
  -- a node that is not entered under its own name is a journey if what it does is one
  have hpassed : ∀ {trace : Trace}, node.kind.isBuilt = false → pass.Tells (some v) s.scope trace
      (pass.compileNode (pass.walk depth) tree node useLiterals) →
      pass.Journey c s (v :: trace s) (v.run pass).2 := fun hkind h =>
    .call hcall
      (.passed (gathered?_of_call (by simp [hv])) (Visit.not_opens (by simp [hv]))
        (built?_of_call (by simp [hv, hkind])))
      (by rw [hrun]; exact h s rfl)
  show pass.Journey c s (v :: pass.kindTrace depth (pass.nodeTrace depth) tree node useLiterals s)
    (v.run pass).2
  unfold Pass.compileNode at hpassed
  unfold Pass.kindTrace
  cases hkind : node.kind with
  | plugin category plugin =>
    have hwalk : pass.walk (depth + 1) tree node useLiterals =
        once tree node (pass.writePluginNode (pass.walk depth) tree node plugin useLiterals) := by
      simp only [Pass.walk, Pass.compileNode, hkind]
    exact journey_once hwalk (by rw [hkind]; rfl) hcall
      (constructs_plugin hd hsources plugin useLiterals)
  | layeredTexture =>
    have hwalk : pass.walk (depth + 1) tree node useLiterals =
        once tree node (pass.writeLayeredTexture (pass.walk depth) tree node) := by
      simp only [Pass.walk, Pass.compileNode, hkind]
    exact journey_once hwalk (by rw [hkind]; rfl) hcall (constructs_layeredTexture hd hsources)
  | layeredBrdf additive =>
    have hwalk : pass.walk (depth + 1) tree node useLiterals =
        once tree node (pass.writeLayeredBrdf (pass.walk depth) tree node additive) := by
      simp only [Pass.walk, Pass.compileNode, hkind]
    exact journey_once hwalk (by rw [hkind]; rfl) hcall (constructs_layeredBrdf hd hsources additive)
  | unset =>
    simp only [hkind] at hpassed
    exact hpassed rfl (quiet_pure _).tells
  | selectObject object =>
    simp only [hkind] at hpassed
    exact hpassed rfl ((tells_select hd fun _ _ hfree ht => .selected rfl rfl hfree ht).before
      fun _ => quiet_pure _)
  | selectGroup group =>
    simp only [hkind] at hpassed
    exact hpassed rfl ((tells_select hd fun _ _ hfree ht => .selected rfl rfl hfree ht).before
      fun _ => quiet_pure _)
  | objectGeometry =>
    simp only [hkind] at hpassed
    exact hpassed rfl (quiet_writeGeometry pass).tells
  | objectMaterial =>
    simp only [hkind] at hpassed
    have hmaterial : pass.Tells (some v) s.scope
        (pass.ownMaterialTrace depth (pass.nodeTrace depth))
        (pass.writeObjectMaterial (pass.walk depth)) := fun t ht =>
      journey_ownMaterial hd (.ownMaterial rfl hkind rfl ht)
    exact hpassed rfl (hmaterial.before fun _ => quiet_pure _)
  | materialOutput dontOverride =>
    simp only [hkind] at hpassed
    exact hpassed rfl (tells_resolveInput hd hsources _ _)
  | objectOutput =>
    simp only [hkind] at hpassed
    exact hpassed rfl (tells_resolveInput hd hsources _ _)

end Surface

/-- The walk is told by its traces at every depth. -/
theorem told (pass : Pass) : ∀ depth, pass.Told depth
  | 0 => fun c tree node useLiterals s hcall =>
    .call (v := ⟨.node tree node useLiterals, 0, s⟩) hcall
      (.passed (gathered?_of_call (by simp)) (Visit.not_opens (by simp)) (built?_of_run nofun))
      (.refl pass _ s)
  | depth + 1 => told_succ (told pass depth)

/-! ### Passes -/

section Passes

variable (pass)

theorem tells_writeMaterial (material : String) :
    pass.Tells none none (pass.sceneMaterialTrace material) (pass.writeMaterial material) := by
  unfold Pass.sceneMaterialTrace Pass.slotTrace Pass.writeMaterial Pass.compiler
  simp only [Option.bind_some]
  cases ht : pass.scene.materialTree? material with
  | none => exact (quiet_pure _).tells
  | some tree =>
    have hmaterial : pass.Tells none none (.call (.material tree) pass.scene.walkDepth
        (materialTrace (pass.nodeTrace pass.scene.walkDepth) tree))
        (writeMaterialTree (pass.walk pass.scene.walkDepth) tree) := fun s hs =>
      journey_material (told pass _) (.sceneMaterial ht rfl hs)
    exact hmaterial.before fun _ => quiet_pure _

theorem tells_writeSceneObject (name : String) :
    pass.Tells none none (pass.sceneObjectTrace name) (pass.writeSceneObject name) := by
  have hobject : pass.Tells none none (pass.sceneObjectTrace name)
      (pass.writeObject pass.compiler name) := fun s hs =>
    journey_object (told pass _) (.sceneObject rfl hs)
  exact hobject.before fun _ => quiet_pure _

theorem tells_writeOverride : pass.Tells none none pass.overrideTrace pass.writeOverride := by
  unfold Pass.overrideTrace Pass.writeOverride
  cases pass.settings.overrideMaterial with
  | none => exact (quiet_pure _).tells
  | some material =>
    unfold Pass.sceneMaterialTrace Pass.slotTrace Pass.compiler
    simp only [Option.bind_some]
    cases ht : pass.scene.materialTree? material with
    | none => exact (quiet_report _).tells
    | some tree =>
      intro s hs
      have hj := journey_material (told pass pass.scene.walkDepth)
        (.sceneMaterial ht rfl hs : pass.Calls none ⟨.material tree, pass.scene.walkDepth, s⟩)
      simp only
      rw [runOn_bind]
      generalize htoken : (writeMaterialTree _ tree).runOn s = o at hj ⊢
      rcases o with ⟨e | token, t⟩
      · exact hj
      · have hchosen := Pass.Journey.chosen hj htoken
        have hreport := hchosen.append
          (.quiet (alike_note _ (.overriding token)) (List.Subset.refl _))
        rw [List.append_nil] at hreport
        exact hreport

theorem tells_body : pass.Tells none none pass.bodyTrace (pass.body pass.items.length) := by
  rw [Pass.body_all]
  unfold Pass.bodyTrace Pass.opening
  refine ((quiet_writeDefaults pass).tells.bind fun _ => tells_writeOverride pass).bind fun _ => ?_
  refine (Pass.Tells.forM fun material _ => tells_writeMaterial pass material).bind fun _ => ?_
  exact Pass.Tells.forM fun name _ => tells_writeSceneObject pass name

/-- **A pass is a journey through its visits.** From the state behind its head, a pass gets
to its end by the calls that it lists, each made for another one or for the pass itself;
nothing is entered but in the bracket of a call. -/
theorem journey_pass (s : PassState) :
    pass.Journey none (pass.headed s) (pass.visits s) (pass.run.runOn s).2 := by
  rw [Pass.run_runOn]
  unfold Pass.visits Pass.afterHead
  split
  · have hclosing : Quiet pass.closing := fun t => ⟨alike_note t _, List.Subset.refl _⟩
    exact ((tells_body pass).before fun _ => hclosing) _ rfl
  · exact .refl pass none _

end Passes

end ShadeNet
