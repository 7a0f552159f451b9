/-
# What gave nothing is done again

A node that gave nothing, or failed with a cycle, is forgotten, and what comes to it again
does all of it again. Now the ledger is that of the end of the first run, in which more is
compiled than there was on the way. The second run retraces the first if no node that gave
nothing has got a value in the meantime and, where the first run failed with a cycle, if no
layered shading model on the way has written a weight of its own: that it writes again.

Key definitions: `PassState.Again`, `Pass.StillNothing`, `Pass.WeightsKept`, `Pass.Retraces`.
Key theorem: `retraces_walk`.
-/
import ShadeNet.Proofs.Recall

namespace ShadeNet

open Compile

variable {α β : Type} {pass : Pass} {scene : Scene} {s t u f last : PassState}
  {key name : String}

/-! ### The second run -/

/-- A state `f` of the second run at the place where the first run was in the state `s`: what is
compiled is what is compiled in `last`, the end of the first run, and what is being compiled is
what was in the first run. -/
structure PassState.Again (scene : Scene) (last s f : PassState) : Prop where
  lasts : last.Lasts scene f
  scope : f.scope = s.scope
  node : ∀ key name value, f.ledger.node? key name = some (.done value) →
    last.ledger.node? key name = some (.done value)
  resolvingNode : ∀ key name,
    f.ledger.node? key name = some .resolving ↔ s.ledger.node? key name = some .resolving
  resolvingObject : ∀ name,
    f.ledger.object? name = some .resolving ↔ s.ledger.object? name = some .resolving

namespace PassState.Again

/-- Where the second run begins. -/
theorem start (h : s.Frame t) : PassState.Again scene t s t where
  lasts := .refl scene t
  scope := h.scope
  node _ _ _ hn := hn
  resolvingNode key name := h.ledger.nodes.resolving (key, name)
  resolvingObject := h.ledger.objects.resolving

/-- The first run goes on by a whole call, and the second reports at most. -/
theorem next (h : PassState.Again scene last s f) (hu : s.Frame u) (lines : List LogLine) :
    PassState.Again scene last u (f.notes lines) where
  lasts := h.lasts.notes lines
  scope := h.scope.trans hu.scope.symm
  node := h.node
  resolvingNode key name :=
    (h.resolvingNode key name).trans (hu.ledger.nodes.resolving (key, name)).symm
  resolvingObject name := (h.resolvingObject name).trans (hu.ledger.objects.resolving name).symm

/-- Both runs mark a node that is not compiled. -/
theorem mark (h : PassState.Again scene last s f) (hnone : f.ledger.node? key name = none) :
    PassState.Again scene last (s.mark key name) (f.mark key name) where
  lasts := h.lasts.trans (.mark fun value => by rw [hnone]; exact nofun)
  scope := h.scope
  node k n value hn := by
    have hn := (Ledger.node?_setNode _ _ _ _ _ _).symm.trans hn
    split at hn
    · cases hn
    · exact h.node k n value hn
  resolvingNode k n := by
    have hf := Ledger.node?_setNode f.ledger key name .resolving k n
    have hs := Ledger.node?_setNode s.ledger key name .resolving k n
    show (f.ledger.setNode key name .resolving).node? k n = _ ↔
      (s.ledger.setNode key name .resolving).node? k n = _
    rw [hf, hs]
    split
    · exact Iff.rfl
    · exact h.resolvingNode k n
  resolvingObject := h.resolvingObject

end PassState.Again

/-- A node that was marked and is forgotten leaves no trace. -/
theorem abandon_mark (hnone : f.ledger.node? key name = none) (lines : List LogLine) :
    ((f.mark key name).notes lines).abandon key name = f.notes lines := by
  have hnodes : (f.ledger.nodes.insert (key, name) .resolving).erase (key, name) =
      f.ledger.nodes := OrderedMap.erase_insert _ hnone
  unfold PassState.abandon PassState.notes PassState.mark Ledger.abandonNode Ledger.setNode
  simp only [hnodes]

/-- No node is compiled in between. -/
def PassState.NothingSince (s t : PassState) : Prop :=
  ∀ key name value, t.ledger.node? key name = some (.done value) →
    s.ledger.node? key name = some (.done value)

/-! ### What must not have changed -/

/-- No node that gave nothing to one of these visits, made in the scope of the end, has a value
in the end. -/
def Pass.StillNothing (pass : Pass) (visits : List Visit) (last : PassState) : Prop :=
  ∀ v ∈ visits, ∀ tree node useLiterals, v.call = .node tree node useLiterals →
    v.state.scope = last.scope → (v.run pass).1 = .ok none →
    ∀ value, last.ledger.node? (last.treeKey tree.name) node.name ≠ some (.done value)

/-- A node failed with a cycle in one of these visits, made in the scope of the end. -/
def Pass.FailsIn (pass : Pass) (visits : List Visit) (last : PassState) (tree : NodeTree)
    (node : Node) (useLiterals : Bool) : Prop :=
  ∃ v ∈ visits, v.call = .node tree node useLiterals ∧ v.state.scope = last.scope ∧
    ∃ e, (v.run pass).1 = .error e ∧ e.isCycle = true

/-- The weight of a layer is linked, and what feeds it gives a token wherever it gives anything
to one of these visits. -/
def Pass.WeightLinked (pass : Pass) (visits : List Visit) (last : PassState) (tree : NodeTree)
    (node : Node) (layer : Nat) : Prop :=
  ∃ source output,
    tree.linkedSource? ⟨node.name, "Weight " ++ toString layer⟩ = some (source, output) ∧
    ∀ v ∈ visits, v.call = .node tree source false → v.state.scope = last.scope →
      ∀ value, (v.run pass).1 = .ok value → (value.bind (·.token?)).isSome = true

/-- A layered shading model that fails with a cycle in one of these visits has written no weight
of its own: a layer that is linked has a weight that is linked. -/
def Pass.WeightsKept (pass : Pass) (visits : List Visit) (last : PassState) : Prop :=
  ∀ tree node useLiterals additive, node.kind = .layeredBrdf additive →
    pass.FailsIn visits last tree node useLiterals →
    ∀ layer ∈ List.range' 1 (node.inputs.length / 2), ∀ socket,
      node.input? ("BRDF " ++ toString layer) = some socket →
      tree.isLinked ⟨node.name, socket.name⟩ = true →
      pass.WeightLinked visits last tree node layer

/-! ### Parts that are retraced -/

theorem mem_nodeTrace (pass : Pass) (depth : Nat) (tree : NodeTree) (node : Node)
    (useLiterals : Bool) (s : PassState) :
    ⟨.node tree node useLiterals, depth, s⟩ ∈ pass.nodeTrace depth tree node useLiterals s := by
  cases depth <;> exact List.mem_cons_self

section Parts

variable (pass) (visits : List Visit) (last : PassState)

/-- A part of the first run whose result counts is repeated in the second. -/
def Pass.Redoes (P : α → Prop) (trace : Trace) (c : Compile α) : Prop :=
  ∀ s t f a, c.runOn s = (.ok a, t) → P a → t.Lasts pass.scene last →
    PassState.Again pass.scene last s f → trace s ⊆ visits → c.Repeats (.ok a) f

/-- A part of the first run that failed with a cycle, behind which nothing was compiled, fails so
in the second. -/
def Pass.Refails (trace : Trace) (c : Compile α) : Prop :=
  ∀ s t f e, c.runOn s = (.error e, t) → e.isCycle = true → t.Lasts pass.scene last →
    t.NothingSince last → PassState.Again pass.scene last s f → trace s ⊆ visits →
    c.Repeats (.error e) f

/-- What holds of the results that a part had in the scope of the end. -/
def Yields (K : α → Prop) (trace : Trace) (c : Compile α) : Prop :=
  ∀ s t a, c.runOn s = (.ok a, t) → s.scope = last.scope → trace s ⊆ visits → K a

/-- A part of the first run is retraced in the second, whatever came of it; cycles are looked at
only if asked for. -/
structure Pass.Retraces (cycles : Prop) (trace : Trace) (c : Compile α) : Prop where
  lasting : pass.Lasting c
  redoes : pass.Redoes visits last (fun _ => True) trace c
  refails : cycles → pass.Refails visits last trace c

/-- The build of a node is retraced where it gave nothing, and where it failed with a cycle. -/
structure Pass.Rebuilds (cycles : Prop) (tree : NodeTree) (node : Node) (useLiterals : Bool)
    (trace : Trace) (build : Compile (Option Resolved)) : Prop where
  lasting : pass.Lasting build
  redoes : pass.Redoes visits last (· = none) trace build
  refails : cycles → pass.FailsIn visits last tree node useLiterals →
    pass.Refails visits last trace build

end Parts

variable {visits : List Visit} {cycles : Prop} {P : α → Prop} {Q : β → Prop}
  {trace first : Trace} {c : Compile α}

theorem Pass.Lasting.frame {r : Except Failure α} (h : pass.Lasting c)
    (hrun : c.runOn s = (r, t)) : s.Frame t := by
  have hrel := h s
  rw [hrun] at hrel
  exact hrel.1

theorem Pass.Recalls.redoes (h : pass.Recalls P c) : pass.Redoes visits last P trace c :=
  fun s t f a hrun ha hlasts hagain _ => h s t f a hrun ha (hlasts.trans hagain.lasts)

theorem refails_of_neverCycles (h : NeverCycles c) : pass.Refails visits last trace c := by
  intro s t f e hrun hcycle
  have hno := h s e (by rw [hrun])
  rw [hno] at hcycle
  cases hcycle

theorem Pass.Recalls.retraces (h : pass.Recalls (fun _ => True) c) (hl : pass.Lasting c)
    (hn : NeverCycles c) : pass.Retraces visits last cycles trace c :=
  ⟨hl, h.redoes, fun _ => refails_of_neverCycles hn⟩

namespace Pass.Redoes

/-- A step and what is done with its result, if that is retraced for the results it has. -/
theorem bind {K : α → Prop} {g : α → Compile β} {rest : α → Trace}
    (hc : pass.Redoes visits last P first c) (hl : pass.Lasting c)
    (hK : Yields visits last K first c) (hlg : ∀ a, pass.Lasting (g a))
    (hg : ∀ a, K a → pass.Redoes visits last Q (rest a) (g a))
    (hP : ∀ a s b t, (g a).runOn s = (.ok b, t) → Q b → P a) :
    pass.Redoes visits last Q (.bind c first rest) (c >>= g) := by
  intro s t f b hrun hb hlasts hagain hvisits
  obtain ⟨a, u, hrunc, hrung⟩ := of_runOn_bind_ok hrun
  unfold Trace.bind at hvisits
  rw [hrunc] at hvisits
  obtain ⟨hfirst, hrest⟩ := List.append_subset.mp hvisits
  have hu : u.Lasts pass.scene last := ((hlg a).lasts hrung).trans hlasts
  have hscope : s.scope = last.scope := hagain.scope.symm.trans hagain.lasts.scope
  refine (hc s u f a hrunc (hP a u b t hrung hb) hu hagain hfirst).bind fun lines => ?_
  exact hg a (hK s u a hrunc hscope hfirst) u t _ b hrung hb hlasts
    (hagain.next (hl.frame hrunc) lines) hrest

/-- A step before one that recalls what it gave. -/
theorem before {g : α → Compile β} (hc : pass.Redoes visits last P first c)
    (hl : pass.Lasting c) (hlg : ∀ a, pass.Lasting (g a)) (hg : ∀ a, pass.Recalls Q (g a))
    (hP : ∀ a s b t, (g a).runOn s = (.ok b, t) → Q b → P a) :
    pass.Redoes visits last Q first (c >>= g) := by
  rw [← Trace.bind_none c first]
  exact hc.bind (K := fun _ => True) hl (fun _ _ _ _ _ _ => trivial) hlg
    (fun a _ => (hg a).redoes) hP

/-- Steps one after another, with the condition on what is gathered. -/
theorem collect {R : β → Prop} {g : α → Compile (Option β)} {first : α → Trace} {l : List α}
    (h : ∀ a ∈ l, pass.Redoes visits last (fun r => ∀ b ∈ r, R b) (first a) (g a))
    (hl : ∀ a ∈ l, pass.Lasting (g a)) :
    pass.Redoes visits last (fun bs => ∀ b ∈ bs, R b) (.collect g first l)
      (ShadeNet.collect g l) := by
  induction l with
  | nil => exact (recalls_pure _ _).redoes
  | cons a rest ih =>
    have hrest : ∀ b ∈ rest, pass.Lasting (g b) := fun b hb => hl b (List.mem_cons_of_mem a hb)
    have hothers := ih (fun b hb => h b (List.mem_cons_of_mem a hb)) hrest
    refine (h a List.mem_cons_self).bind (K := fun _ => True) (hl a List.mem_cons_self)
      (fun _ _ _ _ _ _ => trivial) (fun _ => (Pass.Lasting.collect hrest).bind fun _ =>
        lasting_pure _) (fun found _ => hothers.before (.collect hrest)
          (fun _ => lasting_pure _) (fun _ => recalls_pure _ _) ?_) ?_
    · intro others s bs t hrun hbs b hb
      cases hrun
      exact hbs b (List.mem_append_right _ hb)
    · intro found s bs t hrun hbs b hb
      obtain ⟨others, u, -, hrun⟩ := of_runOn_bind_ok hrun
      cases hrun
      exact hbs b (List.mem_append_left _ (by simpa using hb))

end Pass.Redoes

namespace Pass.Refails

theorem bind {K : α → Prop} {g : α → Compile β} {rest : α → Trace}
    (hc : pass.Refails visits last first c)
    (hok : pass.Redoes visits last (fun _ => True) first c) (hl : pass.Lasting c)
    (hK : Yields visits last K first c) (hlg : ∀ a, pass.Lasting (g a))
    (hg : ∀ a, K a → pass.Refails visits last (rest a) (g a)) :
    pass.Refails visits last (.bind c first rest) (c >>= g) := by
  intro s t f e hrun hcycle hlasts hsince hagain hvisits
  unfold Trace.bind at hvisits
  rw [runOn_bind] at hrun
  rcases hrunc : c.runOn s with ⟨e' | a, u⟩ <;> rw [hrunc] at hrun hvisits
  · cases hrun
    exact (hc s t f e hrunc hcycle hlasts hsince hagain
      (List.append_subset.mp hvisits).1).bind_error g
  · obtain ⟨hfirst, hrest⟩ := List.append_subset.mp hvisits
    have hu : u.Lasts pass.scene last := ((hlg a).lasts hrun).trans hlasts
    have hscope : s.scope = last.scope := hagain.scope.symm.trans hagain.lasts.scope
    refine (hok s u f a hrunc trivial hu hagain hfirst).bind fun lines => ?_
    exact hg a (hK s u a hrunc hscope hfirst) u t _ e hrun hcycle hlasts hsince
      (hagain.next (hl.frame hrunc) lines) hrest

/-- A step before one that fails with no cycle. -/
theorem before {g : α → Compile β} (hc : pass.Refails visits last first c)
    (hg : ∀ a, NeverCycles (g a)) : pass.Refails visits last first (c >>= g) := by
  intro s t f e hrun hcycle hlasts hsince hagain hvisits
  rw [runOn_bind] at hrun
  rcases hrunc : c.runOn s with ⟨e' | a, u⟩ <;> rw [hrunc] at hrun
  · cases hrun
    exact (hc s t f e hrunc hcycle hlasts hsince hagain hvisits).bind_error g
  · have hrung : (g a).runOn u = (.error e, t) := hrun
    rw [hg a u e (by rw [hrung])] at hcycle
    cases hcycle

end Pass.Refails

namespace Pass.Retraces

/-- A call is retraced if what it does is. -/
theorem call (h : pass.Retraces visits last cycles trace c) (made : Call) (depth : Nat) :
    pass.Retraces visits last cycles (.call made depth trace) c where
  lasting := h.lasting
  redoes s t f a hrun ha hlasts hagain hvisits :=
    h.redoes s t f a hrun ha hlasts hagain (List.cons_subset.mp hvisits).2
  refails hcycles s t f e hrun hcycle hlasts hsince hagain hvisits :=
    h.refails hcycles s t f e hrun hcycle hlasts hsince hagain (List.cons_subset.mp hvisits).2

theorem before {g : α → Compile β} (hc : pass.Retraces visits last cycles first c)
    (hlg : ∀ a, pass.Lasting (g a)) (hg : ∀ a, pass.Recalls (fun _ => True) (g a))
    (hn : ∀ a, NeverCycles (g a)) : pass.Retraces visits last cycles first (c >>= g) :=
  ⟨hc.lasting.bind hlg, hc.redoes.before hc.lasting hlg hg fun _ _ _ _ _ _ => trivial,
    fun hcycles => (hc.refails hcycles).before hn⟩

theorem bind {K : α → Prop} {g : α → Compile β} {rest : α → Trace}
    (hc : pass.Retraces visits last cycles first c) (hK : Yields visits last K first c)
    (hlg : ∀ a, pass.Lasting (g a))
    (hg : ∀ a, K a → pass.Retraces visits last cycles (rest a) (g a)) :
    pass.Retraces visits last cycles (.bind c first rest) (c >>= g) :=
  ⟨hc.lasting.bind hlg,
    hc.redoes.bind hc.lasting hK hlg (fun a ha => (hg a ha).redoes) fun _ _ _ _ _ _ => trivial,
    fun hcycles => (hc.refails hcycles).bind hc.redoes hc.lasting hK hlg fun a ha =>
      (hg a ha).refails hcycles⟩

theorem collect {g : α → Compile (Option β)} {first : α → Trace} {l : List α}
    (h : ∀ a ∈ l, pass.Retraces visits last cycles (first a) (g a)) :
    pass.Retraces visits last cycles (.collect g first l) (ShadeNet.collect g l) := by
  induction l with
  | nil => exact (recalls_pure _ _).retraces (lasting_pure _) (neverCycles_pure _)
  | cons a rest ih =>
    have hothers := ih fun b hb => h b (List.mem_cons_of_mem a hb)
    refine (h a List.mem_cons_self).bind (K := fun _ => True) (fun _ _ _ _ _ _ => trivial)
      (fun _ => hothers.lasting.bind fun _ => lasting_pure _) fun found _ => ?_
    exact hothers.before (fun _ => lasting_pure _) (fun _ => recalls_pure _ _) fun _ =>
      neverCycles_pure _

end Pass.Retraces

/-! ### Steps of a node -/

theorem lasting_report_pure (line : LogLine) (a : α) :
    pass.Lasting (report line >>= fun _ => pure a) :=
  fun s => ⟨s.frame_note line, .of_alike (alike_note s line)⟩

theorem neverCycles_report_pure (line : LogLine) (a : α) :
    NeverCycles (report line >>= fun _ => pure a) :=
  (neverCycles_report line).bind fun _ => neverCycles_pure a

theorem lasting_claimAndEmit (pass : Pass) (base : String) (reports : List LogLine)
    (record : String → Record) : pass.Lasting (pass.claimAndEmit base reports record) :=
  fun s => ⟨frame_claimAndEmit pass base reports record s,
    .of_alike (alike_claimAndEmit pass base reports record s)⟩

theorem retraces_pure (a : α) : pass.Retraces visits last cycles trace (pure a) :=
  (recalls_pure _ a).retraces (lasting_pure a) (neverCycles_pure a)

theorem retraces_report_pure (line : LogLine) (a : α) :
    pass.Retraces visits last cycles trace (report line >>= fun _ => pure a) :=
  (recalls_report_pure _ line a).retraces (lasting_report_pure line a)
    (neverCycles_report_pure line a)

theorem Pass.Retraces.bind_pure (h : pass.Retraces visits last cycles first c) (g : α → β) :
    pass.Retraces visits last cycles first (c >>= fun a => pure (g a)) :=
  h.before (fun _ => lasting_pure _) (fun _ => recalls_pure _ _) fun _ => neverCycles_pure _

theorem lasting_record (base : String) (reports : List LogLine) (record : String → Record) :
    pass.Lasting (pass.claimAndEmit base reports record >>= fun token =>
      pure (some (Resolved.reference token))) :=
  (lasting_claimAndEmit pass base reports record).bind fun _ => lasting_pure _

theorem neverCycles_record (base : String) (reports : List LogLine) (record : String → Record) :
    NeverCycles (pass.claimAndEmit base reports record >>= fun token =>
      pure (some (Resolved.reference token))) := by
  intro s
  rw [runOn_bind, claimAndEmit_runOn]
  have h := neverCycles_emit pass (record (freeName s.ledger.names base)) (s.claim base reports)
  generalize Compile.runOn _ _ = o at h ⊢
  rcases o with ⟨e | token, t⟩
  · exact fun e' he => h e' (by cases he; rfl)
  · exact noCycle_ok _

/-- A build that ends with a record gives something, so there is nothing to recall. -/
theorem record_ne_none {base : String} {reports : List LogLine} {record : String → Record} :
    (pass.claimAndEmit base reports record >>= fun token =>
      pure (some (Resolved.reference token))).runOn s ≠ (.ok none, t) := by
  intro hrun
  obtain ⟨token, u, -, hpure⟩ := of_runOn_bind_ok hrun
  cases hpure

theorem recalls_record (base : String) (reports : List LogLine) (record : String → Record) :
    pass.Recalls (· = none) (pass.claimAndEmit base reports record >>= fun token =>
      pure (some (Resolved.reference token))) := by
  rintro s t f r hrun rfl
  exact absurd hrun record_ne_none

theorem lasting_writeWeight (base brdf : String) (layer : Nat) (weight : Single) :
    pass.Lasting (pass.writeWeight base brdf layer weight) := by
  unfold Pass.writeWeight
  rw [Contract.claimAndEmit_plain]
  exact lasting_claimAndEmit pass _ _ _

/-- The layer of a shading model: its weight is the linked one, or it is written. -/
def Pass.weighLayer (pass : Pass) (compile : NodeCompiler) (tree : NodeTree) (node : Node)
    (layer : Nat) (brdf : String) : Compile (Option (String × String)) := do
  match ← linkedWeight compile tree node ("Weight " ++ toString layer) with
  | some weight => return some (brdf, weight)
  | none => do
    let weight ← pass.writeWeight (nodeName tree.name node.name) brdf layer
      (layerWeight (node.input? ("Weight " ++ toString layer)))
    return some (brdf, weight)

/-- A layer from the value on the socket of its shading model. -/
def Pass.modelLayer (pass : Pass) (compile : NodeCompiler) (tree : NodeTree) (node : Node)
    (layer : Nat) (value : Option Resolved) : Compile (Option (String × String)) :=
  match value.bind (·.token?) with
  | none => do
    report (.brdfLayerEmpty tree.name ("BRDF " ++ toString layer) node.name)
    return none
  | some brdf => pass.weighLayer compile tree node layer brdf

theorem Pass.brdfLayer_eq (pass : Pass) (compile : NodeCompiler) (tree : NodeTree) (node : Node)
    (layer : Nat) : pass.brdfLayer compile tree node layer =
      match node.input? ("BRDF " ++ toString layer) with
      | none => pure none
      | some socket =>
        if tree.isLinked ⟨node.name, socket.name⟩ then
          resolveSocket compile tree node socket true >>= pass.modelLayer compile tree node layer
        else pure none := rfl

section Node

variable {depth : Nat} {tree : NodeTree} {node : Node}

/-- A weight that is linked is a token. -/
theorem yields_linkedWeight {layer : Nat} (hw : pass.WeightLinked visits last tree node layer) :
    Yields visits last (fun weight => weight.isSome = true)
      (weightTrace (pass.nodeTrace depth) tree node ("Weight " ++ toString layer))
      (Pass.linkedWeight (pass.walk depth) tree node ("Weight " ++ toString layer)) := by
  obtain ⟨source, output, hlinked, htoken⟩ := hw
  intro s t weight hrun hscope hvisits
  unfold Pass.linkedWeight at hrun
  unfold weightTrace at hvisits
  rw [hlinked] at hrun hvisits
  obtain ⟨value, u, hvalue, hpure⟩ := of_runOn_bind_ok hrun
  cases hpure
  exact htoken _ (hvisits (mem_nodeTrace pass depth tree source false s)) rfl hscope value
    (by rw [Visit.run_node, hvalue])

theorem lasting_brdfLayer (layer : Nat) :
    pass.Lasting (pass.brdfLayer (pass.walk depth) tree node layer) :=
  Comparison.rel_of_keeps (Contract.keeps_brdfLayer
    ((lastingComparison pass).compiles_walk depth) trivial layer)

theorem lasting_weighLayer (layer : Nat) (brdf : String) :
    pass.Lasting (pass.weighLayer (pass.walk depth) tree node layer brdf) := by
  have hc := (lastingComparison pass).compiles_walk depth
  unfold Pass.weighLayer
  refine Pass.Lasting.bind
    (Comparison.rel_of_keeps (Contract.keeps_linkedWeight hc trivial _)) fun weight => ?_
  cases weight with
  | some weight => exact lasting_pure _
  | none => exact (lasting_writeWeight _ _ _ _).bind fun _ => lasting_pure _

theorem lasting_modelLayer (layer : Nat) (value : Option Resolved) :
    pass.Lasting (pass.modelLayer (pass.walk depth) tree node layer value) := by
  unfold Pass.modelLayer
  cases value.bind (·.token?) with
  | none => exact lasting_report_pure _ _
  | some brdf => exact lasting_weighLayer layer brdf

/-- A shading model always makes a layer. -/
theorem weighLayer_ok {layer : Nat} {brdf : String} {r : Option (String × String)}
    (h : (pass.weighLayer (pass.walk depth) tree node layer brdf).runOn s = (.ok r, t)) :
    r.isSome = true := by
  unfold Pass.weighLayer at h
  obtain ⟨weight, u, -, h⟩ := of_runOn_bind_ok h
  cases weight with
  | some weight =>
    cases h
    rfl
  | none =>
    obtain ⟨weight, w, -, h⟩ := of_runOn_bind_ok h
    cases h
    rfl

variable (hd : ∀ tree node useLiterals, pass.Retraces visits last cycles
  (pass.nodeTrace depth tree node useLiterals) (pass.walk depth tree node useLiterals))

include hd

variable (tree node) in
theorem retraces_resolveSocket (socket : Socket) (useLiterals : Bool) :
    pass.Retraces visits last cycles
      (socketTrace (pass.nodeTrace depth) tree node socket useLiterals)
      (resolveSocket (pass.walk depth) tree node socket useLiterals) := by
  unfold socketTrace resolveSocket NodeTree.source?
  cases tree.linkTo? ⟨node.name, socket.name⟩ with
  | none => exact retraces_pure _
  | some link =>
    simp only [Option.bind_some]
    cases tree.node? link.source.node with
    | none => exact retraces_report_pure _ _
    | some source => exact (hd tree source useLiterals).bind_pure _

variable (tree node) in
theorem retraces_resolveInput (name : String) (useLiterals : Bool) :
    pass.Retraces visits last cycles
      (inputTrace (pass.nodeTrace depth) tree node name useLiterals)
      (resolveInput (pass.walk depth) tree node name useLiterals) := by
  unfold inputTrace resolveInput
  cases node.input? name with
  | none => exact retraces_report_pure _ _
  | some socket => exact retraces_resolveSocket tree node hd socket useLiterals

variable (tree node) in
theorem retraces_supply (useLiterals : Bool) (socket : Socket) :
    pass.Retraces visits last cycles
      (supplyTrace (pass.nodeTrace depth) tree node useLiterals socket)
      (supply (pass.walk depth) tree node useLiterals socket) := by
  unfold supplyTrace supply
  cases socket.attr with
  | none => exact retraces_pure _
  | some attr => exact (retraces_resolveSocket tree node hd socket useLiterals).bind_pure _

variable (tree node) in
theorem retraces_textureLayer (socket : Socket) :
    pass.Retraces visits last cycles (textureLayerTrace (pass.nodeTrace depth) tree node socket)
      (textureLayer (pass.walk depth) tree node socket) := by
  unfold textureLayerTrace textureLayer
  split
  · refine (retraces_resolveSocket tree node hd socket true).before (fun value => ?_)
      (fun value => ?_) (fun value => ?_) <;> cases value.bind (·.token?)
    · exact lasting_report_pure _ _
    · exact lasting_pure _
    · exact recalls_report_pure _ _ _
    · exact recalls_pure _ _
    · exact neverCycles_report_pure _ _
    · exact neverCycles_pure _
  · exact retraces_pure _

theorem retraces_linkedWeight (socket : String) :
    pass.Retraces visits last cycles (weightTrace (pass.nodeTrace depth) tree node socket)
      (Pass.linkedWeight (pass.walk depth) tree node socket) := by
  unfold weightTrace Pass.linkedWeight
  cases tree.linkedSource? ⟨node.name, socket⟩ with
  | none => exact retraces_pure _
  | some found => exact (hd tree found.1 false).bind_pure _

theorem retraces_weighLayer {layer : Nat} (hw : pass.WeightLinked visits last tree node layer)
    (brdf : String) :
    pass.Retraces visits last cycles
      (weightTrace (pass.nodeTrace depth) tree node ("Weight " ++ toString layer))
      (pass.weighLayer (pass.walk depth) tree node layer brdf) := by
  rw [← Trace.bind_none (Pass.linkedWeight (pass.walk depth) tree node _) (weightTrace _ _ _ _)]
  unfold Pass.weighLayer
  refine (retraces_linkedWeight hd _).bind (yields_linkedWeight hw) (fun weight => ?_)
    fun weight hsome => ?_
  · cases weight with
    | some weight => exact lasting_pure _
    | none => exact (lasting_writeWeight _ _ _ _).bind fun _ => lasting_pure _
  · obtain ⟨weight, rfl⟩ := Option.isSome_iff_exists.mp hsome
    exact retraces_pure _

/-- A layer is retraced if its weight is linked. -/
theorem retraces_brdfLayer {layer : Nat}
    (hw : ∀ socket, node.input? ("BRDF " ++ toString layer) = some socket →
      tree.isLinked ⟨node.name, socket.name⟩ = true →
      pass.WeightLinked visits last tree node layer) :
    pass.Retraces visits last cycles
      (pass.brdfLayerTrace depth (pass.nodeTrace depth) tree node layer)
      (pass.brdfLayer (pass.walk depth) tree node layer) := by
  rw [Pass.brdfLayer_eq]
  unfold Pass.brdfLayerTrace
  cases hinput : node.input? ("BRDF " ++ toString layer) with
  | none => exact retraces_pure _
  | some socket =>
    simp only
    split
    · rename_i hlinked
      refine (retraces_resolveSocket tree node hd socket true).bind (K := fun _ => True)
        (fun _ _ _ _ _ _ => trivial) (lasting_modelLayer layer) fun value _ => ?_
      unfold Pass.modelLayer
      cases value.bind (·.token?) with
      | none => exact retraces_report_pure _ _
      | some brdf => exact retraces_weighLayer hd (hw socket hinput hlinked) brdf
    · exact retraces_pure _

/-- A layer that came to nothing is retraced in any case. -/
theorem redoes_brdfLayer (layer : Nat) :
    pass.Redoes visits last (fun r => ∀ b ∈ r, False)
      (pass.brdfLayerTrace depth (pass.nodeTrace depth) tree node layer)
      (pass.brdfLayer (pass.walk depth) tree node layer) := by
  rw [Pass.brdfLayer_eq]
  unfold Pass.brdfLayerTrace
  cases node.input? ("BRDF " ++ toString layer) with
  | none => exact (recalls_pure _ _).redoes
  | some socket =>
    simp only
    split
    · have hsocket := retraces_resolveSocket tree node hd socket true
      refine hsocket.redoes.bind (K := fun _ => True) hsocket.lasting (fun _ _ _ _ _ _ => trivial)
        (lasting_modelLayer layer) (fun value _ => ?_) fun _ _ _ _ _ _ => trivial
      unfold Pass.modelLayer
      cases value.bind (·.token?) with
      | none => exact (recalls_report_pure _ _ _).redoes
      | some brdf =>
        intro s t f r hrun hnone
        obtain ⟨found, rfl⟩ := Option.isSome_iff_exists.mp (weighLayer_ok hrun)
        exact (hnone found rfl).elim
    · exact (recalls_pure _ _).redoes

end Node

/-! ### The walk -/

section Build

variable {depth : Nat} {tree : NodeTree} {node : Node} {useLiterals : Bool}

theorem repeats_once {build : Compile (Option Resolved)} {r : Except Failure (Option Resolved)}
    (hnone : f.ledger.node? (f.treeKey tree.name) node.name = none)
    (hr : ∀ value, r ≠ .ok (some value))
    (h : build.Repeats r (f.mark (f.treeKey tree.name) node.name)) :
    (once tree node build).Repeats r f := by
  obtain ⟨lines, hrun⟩ := h
  refine ⟨lines, ?_⟩
  rw [once_runOn, hnone]
  simp only
  rw [hrun, ← abandon_mark hnone lines]
  rcases r with e | _ | value
  · rfl
  · rfl
  · exact absurd rfl (hr value)

/-- A node that is being compiled in neither run and is not compiled in the end is not reached
in the second run. -/
theorem PassState.Again.unreached (h : PassState.Again scene last s f)
    (hs : s.ledger.node? key name = none)
    (hlast : ∀ value, last.ledger.node? key name ≠ some (.done value)) :
    f.ledger.node? key name = none := by
  rcases hf : f.ledger.node? key name with _ | _ | value
  · rfl
  · rw [h.resolvingNode, hs] at hf
    cases hf
  · exact absurd (h.node _ _ _ hf) (hlast value)

theorem PassState.Again.treeKey (h : PassState.Again scene last s f) (name : String) :
    f.treeKey name = s.treeKey name := by
  unfold PassState.treeKey
  rw [h.scope]

/-- What lasts behind a node that is forgotten lasts behind its build. -/
theorem Pass.Lasting.unmarked {r : Except Failure α} (hl : pass.Lasting c)
    (hrun : c.runOn (s.mark key name) = (r, u)) (h : (u.abandon key name).Lasts pass.scene last) :
    u.Lasts pass.scene last := by
  have hmarked : (s.mark key name).ledger.node? key name = some .resolving :=
    (Ledger.node?_setNode _ _ _ _ _ _).trans (if_pos rfl)
  have hresolving := ((hl.frame hrun).ledger.nodes.resolving (key, name)).mpr hmarked
  exact (PassState.Lasts.abandon hresolving).trans h

section Once

variable {trace : Trace} {build : Compile (Option Resolved)}
  (hwalk : pass.walk (depth + 1) tree node useLiterals = once tree node build)
  (htrace : pass.nodeTrace (depth + 1) tree node useLiterals =
    .call (.node tree node useLiterals) (depth + 1) (onceTrace tree node trace))
  (hb : pass.Rebuilds visits last cycles tree node useLiterals trace build)

include hwalk htrace hb

/-- A node that is built once keeps its value; one that gave nothing has none in the end, so it
is built again. -/
theorem redoes_once (hstill : pass.StillNothing visits last) :
    pass.Redoes visits last (fun _ => True) (pass.nodeTrace (depth + 1) tree node useLiterals)
      (pass.walk (depth + 1) tree node useLiterals) := by
  intro s t f r hrun _ hlasts hagain hvisits
  cases r with
  | some value => exact recalls_walk pass _ _ _ _ s t f _ hrun rfl (hlasts.trans hagain.lasts)
  | none =>
    have hscope : s.scope = last.scope := hagain.scope.symm.trans hagain.lasts.scope
    have hkey := hagain.treeKey tree.name
    have hlast : ∀ value,
        last.ledger.node? (s.treeKey tree.name) node.name ≠ some (.done value) := by
      rw [← hkey, hagain.lasts.treeKey]
      exact hstill _ (hvisits (mem_nodeTrace pass _ tree node useLiterals s)) tree node
        useLiterals rfl hscope (by rw [Visit.run_node, hrun])
    rw [hwalk, once_runOn] at hrun
    rw [hwalk]
    rw [htrace] at hvisits
    obtain ⟨-, hvisits⟩ := List.cons_subset.mp hvisits
    unfold onceTrace at hvisits
    cases hnone : s.ledger.node? (s.treeKey tree.name) node.name with
    | some progress =>
      rw [hnone] at hrun
      cases progress <;> cases hrun
    | none =>
      rw [hnone] at hrun hvisits
      simp only at hrun hvisits
      have hf := hagain.unreached hnone hlast
      rcases hrunb : build.runOn (s.mark (s.treeKey tree.name) node.name) with
        ⟨e | _ | value, u⟩ <;> rw [hrunb] at hrun <;> cases hrun
      refine repeats_once (by rw [hkey, hf]) (by simp) ?_
      rw [hkey]
      exact hb.redoes _ u _ none hrunb rfl (hb.lasting.unmarked hrunb hlasts)
        (hagain.mark hf) hvisits

/-- A node that failed with a cycle is forgotten, and nothing is compiled behind it, so it has no
value in the end and is built again. -/
theorem refails_once (hcycles : cycles) :
    pass.Refails visits last (pass.nodeTrace (depth + 1) tree node useLiterals)
      (pass.walk (depth + 1) tree node useLiterals) := by
  intro s t f e hrun hcycle hlasts hsince hagain hvisits
  have hscope : s.scope = last.scope := hagain.scope.symm.trans hagain.lasts.scope
  have hkey := hagain.treeKey tree.name
  have hfails : pass.FailsIn visits last tree node useLiterals :=
    ⟨_, hvisits (mem_nodeTrace pass _ tree node useLiterals s), rfl, hscope, e,
      by rw [Visit.run_node, hrun], hcycle⟩
  rw [hwalk, once_runOn] at hrun
  rw [hwalk]
  rw [htrace] at hvisits
  obtain ⟨-, hvisits⟩ := List.cons_subset.mp hvisits
  unfold onceTrace at hvisits
  cases hnone : s.ledger.node? (s.treeKey tree.name) node.name with
  | some progress =>
    rw [hnone] at hrun
    cases progress <;> cases hrun
    refine .of_unchanged ?_
    rw [once_runOn, hkey, (hagain.resolvingNode _ _).mpr hnone]
  | none =>
    rw [hnone] at hrun hvisits
    simp only at hrun hvisits
    rcases hrunb : build.runOn (s.mark (s.treeKey tree.name) node.name) with
      ⟨e | _ | value, u⟩ <;> rw [hrunb] at hrun <;> cases hrun
    have hforgotten : (u.abandon (s.treeKey tree.name) node.name).ledger.node?
        (s.treeKey tree.name) node.name = none :=
      (Ledger.node?_abandonNode _ _ _ _ _).trans (if_pos rfl)
    have hf := hagain.unreached hnone fun value hn => by
      have h := hsince _ _ _ hn
      rw [hforgotten] at h
      cases h
    have hsinceb : u.NothingSince last := fun k n value hn => by
      have h := (Ledger.node?_abandonNode _ _ _ _ _).symm.trans (hsince k n value hn)
      split at h
      · cases h
      · exact h
    refine repeats_once (by rw [hkey, hf]) (by simp) ?_
    rw [hkey]
    exact hb.refails hcycles hfails _ u _ _ hrunb hcycle (hb.lasting.unmarked hrunb hlasts)
      hsinceb (hagain.mark hf) hvisits

theorem retraces_once (hstill : pass.StillNothing visits last) :
    pass.Retraces visits last cycles (pass.nodeTrace (depth + 1) tree node useLiterals)
      (pass.walk (depth + 1) tree node useLiterals) :=
  ⟨lasting_walk pass (depth + 1) tree node useLiterals, redoes_once hwalk htrace hb hstill,
    refails_once hwalk htrace hb⟩

end Once

/-- A build that gathers something and writes it gave nothing only where nothing was gathered. -/
theorem rebuilds_gather {γ : Type} {member : γ → Compile (Option β)} {first : γ → Trace}
    {l : List γ} {g : List β → Compile (Option Resolved)}
    (hl : ∀ a ∈ l, pass.Lasting (member a))
    (hd : ∀ a ∈ l, pass.Redoes visits last (fun r => ∀ b ∈ r, False) (first a) (member a))
    (hf : cycles → pass.FailsIn visits last tree node useLiterals → ∀ a ∈ l,
      pass.Retraces visits last cycles (first a) (member a))
    (hlg : ∀ bs, pass.Lasting (g bs)) (hg : ∀ bs, pass.Recalls (· = none) (g bs))
    (hn : ∀ bs, NeverCycles (g bs))
    (hnone : ∀ bs s t, (g bs).runOn s = (.ok none, t) → bs = []) :
    pass.Rebuilds visits last cycles tree node useLiterals (.collect member first l)
      (collect member l >>= g) where
  lasting := (Pass.Lasting.collect hl).bind hlg
  redoes := (Pass.Redoes.collect hd hl).before (.collect hl) hlg hg fun bs s r t hrun hr b hb => by
    rw [hnone bs s t (hr ▸ hrun)] at hb
    cases hb
  refails hcycles hfails :=
    ((Pass.Retraces.collect (hf hcycles hfails)).refails hcycles).before hn

/-- A node of layers, of which nothing is written if there are none. -/
theorem rebuilds_layers {γ : Type} {member : γ → Compile (Option β)} {first : γ → Trace}
    {l : List γ} (base : String) (line : LogLine) (record : List β → String → Record)
    (hl : ∀ a ∈ l, pass.Lasting (member a))
    (hd : ∀ a ∈ l, pass.Redoes visits last (fun r => ∀ b ∈ r, False) (first a) (member a))
    (hf : cycles → pass.FailsIn visits last tree node useLiterals → ∀ a ∈ l,
      pass.Retraces visits last cycles (first a) (member a)) :
    pass.Rebuilds visits last cycles tree node useLiterals (.collect member first l)
      (collect member l >>= fun bs =>
        if bs.isEmpty then report line >>= fun _ => pure none
        else pass.claimAndEmit base [] (record bs) >>= fun token =>
          pure (some (.reference token))) := by
  refine rebuilds_gather hl hd hf (fun bs => ?_) (fun bs => ?_) (fun bs => ?_) fun bs s t hrun => ?_
  · split
    · exact lasting_report_pure _ _
    · exact lasting_record _ _ _
  · split
    · exact recalls_report_pure _ _ _
    · exact recalls_record _ _ _
  · split
    · exact neverCycles_report_pure _ _
    · exact neverCycles_record _ _ _
  · split at hrun
    · exact List.isEmpty_iff.mp ‹_›
    · exact absurd hrun record_ne_none

section Kinds

variable (hd : ∀ tree node useLiterals, pass.Retraces visits last cycles
    (pass.nodeTrace depth tree node useLiterals) (pass.walk depth tree node useLiterals))

include hd

theorem rebuilds_plugin (plugin : String) :
    pass.Rebuilds visits last cycles tree node useLiterals
      (pass.pluginTrace depth (pass.nodeTrace depth) tree node plugin useLiterals)
      (pass.writePluginNode (pass.walk depth) tree node plugin useLiterals) := by
  unfold Pass.pluginTrace Pass.writePluginNode
  cases pass.catalog.get? plugin with
  | none => exact ⟨lasting_report_pure _ _, (recalls_report_pure _ _ _).redoes, fun _ _ =>
      refails_of_neverCycles (neverCycles_report_pure _ _)⟩
  | some desc =>
    have hs := fun socket => retraces_supply tree node hd useLiterals socket
    simp only [← bind_assoc, Contract.claimAndEmit_plugin]
    simp only [bind_assoc]
    exact rebuilds_gather (fun socket _ => (hs socket).lasting)
      (fun socket _ s t f _ hrun _ => (hs socket).redoes s t f _ hrun trivial)
      (fun _ _ socket _ => hs socket) (fun _ => lasting_record _ _ _)
      (fun _ => recalls_record _ _ _) (fun _ => neverCycles_record _ _ _)
      fun _ _ _ hrun => absurd hrun record_ne_none

theorem rebuilds_layeredTexture :
    pass.Rebuilds visits last cycles tree node useLiterals
      (.collect (textureLayer (pass.walk depth) tree node)
        (textureLayerTrace (pass.nodeTrace depth) tree node) node.inputs)
      (pass.writeLayeredTexture (pass.walk depth) tree node) := by
  have hs := fun socket => retraces_textureLayer tree node hd socket
  exact rebuilds_layers (nodeName tree.name node.name) _
    (fun layers name => pass.layeredTextureRecord name layers)
    (fun socket _ => (hs socket).lasting)
    (fun socket _ s t f _ hrun _ => (hs socket).redoes s t f _ hrun trivial)
    fun _ _ socket _ => hs socket

/-- The layers of a shading model are retraced, if it failed, for their linked weights. -/
theorem rebuilds_layeredBrdf {additive : Bool} (hkind : node.kind = .layeredBrdf additive)
    (hweights : cycles → pass.WeightsKept visits last) :
    pass.Rebuilds visits last cycles tree node useLiterals
      (.collect (pass.brdfLayer (pass.walk depth) tree node)
        (pass.brdfLayerTrace depth (pass.nodeTrace depth) tree node)
        (List.range' 1 (node.inputs.length / 2)))
      (pass.writeLayeredBrdf (pass.walk depth) tree node additive) :=
  rebuilds_layers (nodeName tree.name node.name) _
    (fun layers name => pass.layeredBrdfRecord name layers additive)
    (fun layer _ => lasting_brdfLayer layer) (fun layer _ => redoes_brdfLayer hd layer)
    fun hcycles hfails layer hlayer => retraces_brdfLayer hd
      (hweights hcycles tree node useLiterals additive hkind hfails layer hlayer)

end Kinds

/-- An object that is asked for again is compiled, or is being compiled as it was. -/
theorem retraces_selectMember (trace : Trace) (name : String) :
    pass.Retraces visits last cycles trace
      (pass.selectMember (pass.walk depth) tree node name) := by
  refine ⟨lasting_selectMember depth tree node name, (recalls_selectMember _ _ _ _).redoes,
    fun _ => ?_⟩
  intro s t f e hrun hcycle _ _ hagain _
  unfold Pass.selectMember at hrun ⊢
  rw [runOn_bind_ok (runOn_get s)] at hrun
  split at hrun
  · rename_i hresolving
    cases hrun
    refine .of_unchanged ?_
    rw [runOn_bind_ok (runOn_get f), if_pos ((hagain.resolvingObject name).mpr hresolving)]
    rfl
  · rw [neverCycles_writeObject pass _ name s e (by rw [hrun])] at hcycle
    cases hcycle

theorem retraces_select (names : List String) :
    pass.Retraces visits last cycles
      (pass.selectTrace depth (pass.nodeTrace depth) tree node names)
      (pass.select (pass.walk depth) tree node names) :=
  (Pass.Retraces.collect fun name _ => retraces_selectMember _ name).bind_pure _

end Build

variable (cycles) in
/-- **The second run retraces the first.** -/
theorem retraces_walk (hstill : pass.StillNothing visits last)
    (hweights : cycles → pass.WeightsKept visits last) :
    ∀ (depth : Nat) (tree : NodeTree) (node : Node) (useLiterals : Bool),
      pass.Retraces visits last cycles (pass.nodeTrace depth tree node useLiterals)
        (pass.walk depth tree node useLiterals)
  | 0, tree, node, useLiterals => by
    refine ⟨lasting_walk pass 0 tree node useLiterals, fun s t f r hrun => ?_, fun _ =>
      refails_of_neverCycles (neverCycles_throw rfl)⟩
    cases hrun
  | depth + 1, tree, node, useLiterals => by
    have hd := retraces_walk hstill hweights depth
    have hwalk : pass.walk (depth + 1) tree node useLiterals =
        pass.compileNode (pass.walk depth) tree node useLiterals := rfl
    have htrace : pass.nodeTrace (depth + 1) tree node useLiterals =
        .call (.node tree node useLiterals) (depth + 1)
          (pass.kindTrace depth (pass.nodeTrace depth) tree node useLiterals) := rfl
    unfold Pass.compileNode at hwalk
    unfold Pass.kindTrace at htrace
    cases hkind : node.kind <;> simp only [hkind] at hwalk htrace
    case plugin category plugin =>
      exact retraces_once hwalk htrace (rebuilds_plugin hd plugin) hstill
    case layeredTexture =>
      exact retraces_once hwalk htrace (rebuilds_layeredTexture hd) hstill
    case layeredBrdf additive =>
      exact retraces_once hwalk htrace (rebuilds_layeredBrdf hd hkind hweights) hstill
    case unset =>
      rw [hwalk, htrace]
      exact retraces_pure _
    case selectObject object =>
      rw [hwalk, htrace]
      exact ((retraces_select _).bind_pure _).call _ _
    case selectGroup group =>
      rw [hwalk, htrace]
      exact ((retraces_select _).bind_pure _).call _ _
    case objectGeometry =>
      rw [hwalk, htrace]
      exact (recalls_writeGeometry pass).retraces (fun s => ⟨frame_writeGeometry pass s,
        .of_alike (alike_writeGeometry pass s)⟩) (neverCycles_writeGeometry pass)
    case objectMaterial =>
      rw [hwalk, htrace]
      exact ((recalls_writeObjectMaterial depth).retraces (lasting_writeObjectMaterial pass depth)
        (neverCycles_writeObjectMaterial pass _)).bind_pure _
    case materialOutput dontOverride =>
      rw [hwalk, htrace]
      exact (retraces_resolveInput tree node hd _ _).call _ _
    case objectOutput =>
      rw [hwalk, htrace]
      exact (retraces_resolveInput tree node hd _ _).call _ _

end ShadeNet
