/-
# The conduct of a walk

A conduct lists the values that nodes may be entered with, the states in which a call may be
made, what may be reported and with which failures a step may end. What it asks for is local:
where one call may be made, so may the calls that it makes, in the states in which it makes
them; and what is out of place in the trees of the scene may be reported. The walk then keeps
it as a whole: a call that may be made reports and fails as it may, and all calls below it are
made where they may be.

Key definitions: `LogLine.isFinding`, `Call.Within`, `Conduct`, `freeConduct`,
`Conduct.Entered`, `Conduct.Ends`, `Conduct.Keeps`.
Key theorems: `Conduct.Keeps.bind`, `Conduct.keeps_once`, `Conduct.compiles`,
`Conduct.keeps_call`, `Conduct.keeps_body`, `Conduct.keeps_run`.
-/
import ShadeNet.Proofs.Retrace
import ShadeNet.Proofs.Selection

namespace ShadeNet

open Compile

variable {α β : Type}

/-! ### Reports and calls -/

/-- Whether a report is about a source or a plugin that is not there, or about a cycle. -/
def LogLine.isFinding : LogLine → Bool
  | sourceMissing _ _ _ | pluginUnknown _ _ _ | materialCycle _ _ | objectCycle _ _ => true
  | _ => false

/-- One node is compiled from another: the first link into one of its sockets starts there. -/
def NodeTree.FedBy (tree : NodeTree) (node source : Node) : Prop := tree.Feeds source node

theorem NodeTree.Feeds.mem {tree : NodeTree} {source node : Node} (h : tree.Feeds source node) :
    source ∈ tree.nodes.values := by
  obtain ⟨link, socket, -, hs⟩ := h
  exact OrderedMap.mem_values_of_get? hs

/-- The call is of a tree of the scene, or of a node in one. -/
def Call.Within (scene : Scene) : Call → Prop
  | .node tree n _ => (tree, n) ∈ scene.positions
  | .material tree => tree ∈ scene.trees.values
  | .ownMaterial | .object _ => True

/-- The state in which the inputs of a node are resolved, if the node is not compiled. -/
def PassState.inside (s : PassState) (tree : NodeTree) (node : Node) : PassState :=
  if node.kind.isBuilt then s.mark (s.treeKey tree.name) node.name else s

/-- What a walk is held to. -/
structure Conduct (pass : Pass) where
  /-- The values that nodes are entered with. -/
  Worth : Resolved → Prop
  /-- Where a call may be made. -/
  Ready : Call → PassState → Prop
  /-- What may be reported. -/
  Reports : LogLine → Prop
  /-- The failures that may occur. -/
  Fails : Failure → Prop
  worth : ∀ token, Worth (.reference token)
  -- where calls may be made
  within : ∀ {call s}, Ready call s → call.Within pass.scene
  frame : ∀ {call} {s t : PassState}, s.Frame t → Ready call s → Ready call t
  start : ∀ {call} {s : PassState}, s.ledger.Idle → call.Within pass.scene → Ready call s
  source : ∀ {tree node source useLiterals useLiterals'} {s : PassState},
    Ready (.node tree node useLiterals) s →
    (node.kind.isBuilt = true → s.ledger.node? (s.treeKey tree.name) node.name = none) →
    tree.Feeds source node → Ready (.node tree source useLiterals') (s.inside tree node)
  ownMaterial : ∀ {tree node useLiterals s}, Ready (.node tree node useLiterals) s →
    node.kind = .objectMaterial → Ready .ownMaterial s
  selected : ∀ {tree node useLiterals names s}, Ready (.node tree node useLiterals) s →
    pass.scene.selected? node.kind = some names → ∀ name, Ready (.object name) s
  slot : ∀ {scope object tree} {s : PassState}, Ready .ownMaterial s → s.scope = some scope →
    pass.scene.object? scope.name = some object → tree ∈ pass.scene.slotTrees object →
    Ready (.material tree) s
  materialEnd : ∀ {tree output source useLiterals s}, Ready (.material tree) s →
    tree.materialOutput? = some output → tree.Feeds source output →
    Ready (.node tree source useLiterals) s
  objectEnd : ∀ {name object key tree output source useLiterals} {s : PassState},
    Ready (.object name) s → s.ledger.object? name = none →
    pass.scene.object? name = some object → object.tree = some key →
    pass.scene.tree? key = some tree → tree.objectOutput? = some output →
    tree.Feeds source output → Ready (.node tree source useLiterals) (s.enter name object)
  plain : ∀ {name object} {s : PassState}, Ready (.object name) s →
    s.ledger.object? name = none → pass.scene.object? name = some object →
    Ready .ownMaterial (s.enter name object)
  -- what may be reported
  reports : ∀ {line : LogLine}, line.isFinding = false → Reports line
  reports_source : ∀ {tree link}, tree ∈ pass.scene.trees.values → link ∈ tree.links →
    tree.node? link.source.node = none →
    Reports (.sourceMissing tree.name link.target link.source.node)
  reports_plugin : ∀ {tree node category plugin}, (tree, node) ∈ pass.scene.positions →
    node.kind = .plugin category plugin → pass.catalog.get? plugin = none →
    Reports (.pluginUnknown tree.name node.name plugin)
  reports_materialCycle : ∀ {tree node}, Fails (.cycle tree node) →
    Reports (.materialCycle tree node)
  reports_objectCycle : ∀ {tree node}, Fails (.cycle tree node) → Reports (.objectCycle tree node)
  -- which failures may occur
  fails : ∀ {failure : Failure}, failure.isCycle = false → Fails failure
  fails_node : ∀ {tree node useLiterals} {s : PassState}, Ready (.node tree node useLiterals) s →
    node.kind.isBuilt = true → s.ledger.node? (s.treeKey tree.name) node.name = some .resolving →
    Fails (.cycle tree.name node.name)
  fails_select : ∀ {tree node useLiterals names s}, Ready (.node tree node useLiterals) s →
    pass.scene.selected? node.kind = some names → Fails (.cycle tree.name node.name)

/-- The conduct that asks for nothing: any call of the scene may be made in any state. -/
def freeConduct (pass : Pass) : Conduct pass where
  Worth _ := True
  Ready call _ := call.Within pass.scene
  Reports _ := True
  Fails _ := True
  worth _ := trivial
  within := id
  frame _ := id
  start _ := id
  source hr _ hs :=
    Scene.mem_positions.mpr ⟨(Scene.mem_positions.mp hr).1, NodeTree.Feeds.mem hs⟩
  ownMaterial _ _ := trivial
  selected _ _ _ := trivial
  slot _ _ _ ht := by
    obtain ⟨key, hkey⟩ := Scene.exists_of_slotTrees ht
    exact OrderedMap.mem_values_of_get? hkey
  materialEnd hr _ hs := Scene.mem_positions.mpr ⟨hr, NodeTree.Feeds.mem hs⟩
  objectEnd _ _ _ _ hkey _ hs :=
    Scene.mem_positions.mpr ⟨OrderedMap.mem_values_of_get? hkey, NodeTree.Feeds.mem hs⟩
  plain _ _ _ := trivial
  reports _ := trivial
  reports_source _ _ _ := trivial
  reports_plugin _ _ _ := trivial
  reports_materialCycle _ := trivial
  reports_objectCycle _ := trivial
  fails _ := trivial
  fails_node _ _ _ := trivial
  fails_select _ _ := trivial

namespace Conduct

variable {pass : Pass} (C : Conduct pass)

/-- Every node that is compiled has a value that it may be entered with. -/
def Entered (s : PassState) : Prop :=
  ∀ key name value, s.ledger.node? key name = some (.done value) → C.Worth value

/-- What was reported in between may be reported. -/
def Reported (s t : PassState) : Prop :=
  ∃ lines, t.log = s.log ++ lines ∧ ∀ line ∈ lines, C.Reports line

/-- A call is made where it may be, and a failure of it that is no cycle is that of the step
that makes it. -/
structure Admits (v : Visit) (r : Except Failure α) : Prop where
  entered : C.Entered v.state
  ready : C.Ready v.call v.state
  surfaces : ∀ failure, failure.isCycle = false → (v.run pass).1 = .error failure →
    r = .error failure

/-- How a step that began in `s` ends: in a state with `P`, and with a result that has `Q` or
a failure that may occur. -/
structure Ends (P : PassState → Prop) (Q : α → Prop) (s : PassState)
    (o : Except Failure α × PassState) : Prop where
  entered : C.Entered o.2
  kept : P o.2
  reported : C.Reported s o.2
  ok : ∀ a, o.1 = .ok a → Q a
  error : ∀ failure, o.1 = .error failure → C.Fails failure

/-- From a state with `P`, a step ends as it should and the calls of its trace are made where
they may be. -/
def Keeps (P : PassState → Prop) (trace : Trace) (c : Compile α) (Q : α → Prop) : Prop :=
  ∀ s, C.Entered s → P s → C.Ends P Q s (c.runOn s) ∧ ∀ v ∈ trace s, C.Admits v (c.runOn s).1

/-- What holds of a state holds of all later ones that keep its frame. -/
def Framed (P : PassState → Prop) : Prop := ∀ s t : PassState, s.Frame t → P s → P t

theorem framed_frame (b : PassState) : Framed b.Frame := fun _ _ h hb => hb.trans h

variable {C} {P : PassState → Prop} {c : Compile α} {Q : α → Prop} {R : β → Prop}
  {trace : Trace} {b s t u : PassState}

theorem Reported.of_log (h : t.log = s.log) : C.Reported s t := ⟨[], by simpa using h, by simp⟩

theorem Reported.refl (s : PassState) : C.Reported s s := .of_log rfl

theorem Reported.trans (h : C.Reported s t) (k : C.Reported t u) : C.Reported s u := by
  obtain ⟨lines, ht, hl⟩ := h
  obtain ⟨more, hu, hm⟩ := k
  refine ⟨lines ++ more, by rw [hu, ht, List.append_assoc], fun line hline => ?_⟩
  exact (List.mem_append.mp hline).elim (hl line) (hm line)

theorem reported_lines (lines : List LogLine) (ht : t.log = s.log ++ lines)
    (h : ∀ line ∈ lines, line.isFinding = false) : C.Reported s t :=
  ⟨lines, ht, fun line hl => C.reports (h line hl)⟩

theorem Entered.of_nodes (h : C.Entered s) (hn : t.ledger.nodes = s.ledger.nodes) :
    C.Entered t := by
  intro key name value hv
  unfold Ledger.node? at hv
  rw [hn] at hv
  exact h key name value hv

theorem Entered.mark (h : C.Entered s) (key name : String) : C.Entered (s.mark key name) := by
  intro k n value hv
  have hv := (Ledger.node?_setNode _ _ _ _ _ _).symm.trans hv
  split at hv
  · cases hv
  · exact h k n value hv

theorem Entered.finish (h : C.Entered s) (key name : String) {value : Resolved}
    (hw : C.Worth value) : C.Entered (s.finish key name value) := by
  intro k n other hv
  have hv := (Ledger.node?_setNode _ _ _ _ _ _).symm.trans hv
  split at hv
  · cases hv
    exact hw
  · exact h k n other hv

theorem Entered.abandon (h : C.Entered s) (key name : String) : C.Entered (s.abandon key name) := by
  intro k n value hv
  have hv := (Ledger.node?_abandonNode _ _ _ _ _).symm.trans hv
  split at hv
  · cases hv
  · exact h k n value hv

/-! ### Steps that call nothing -/

theorem forall_mem_none (s : PassState) {r : Except Failure α} :
    ∀ v ∈ Trace.none s, C.Admits v r := fun _ hv => absurd hv List.not_mem_nil

theorem Admits.imp {v : Visit} {r : Except Failure α} {r' : Except Failure β}
    (h : C.Admits v r) (hr : ∀ failure, r = .error failure → r' = .error failure) :
    C.Admits v r' :=
  { h with surfaces := fun failure hf hv => hr failure (h.surfaces failure hf hv) }

theorem ends_ok {a : α} (hi : C.Entered t) (hp : P t) (hr : C.Reported s t) (h : Q a) :
    C.Ends P Q s (.ok a, t) :=
  ⟨hi, hp, hr, fun b hb => (by cases hb; exact h), fun f hf => (by cases hf)⟩

theorem ends_error {failure : Failure} (hi : C.Entered t) (hp : P t) (hr : C.Reported s t)
    (h : C.Fails failure) : C.Ends P Q s (.error failure, t) :=
  ⟨hi, hp, hr, fun b hb => (by cases hb), fun f hf => (by cases hf; exact h)⟩

theorem keeps_pure {a : α} (h : Q a) : C.Keeps P .none (pure a) Q := fun s hi hs =>
  ⟨ends_ok hi hs (.refl s) h, forall_mem_none _⟩

theorem keeps_throw {failure : Failure} (h : C.Fails failure) :
    C.Keeps P .none (throw failure) Q := fun s hi hs =>
  ⟨ends_error hi hs (.refl s) h, forall_mem_none _⟩

theorem keeps_report (hP : Framed P) {line : LogLine} (h : C.Reports line) :
    C.Keeps P .none (report line) fun _ => True := fun s hi hs =>
  ⟨ends_ok (hi.of_nodes rfl) (hP s _ (s.frame_note line) hs) ⟨[line], rfl, by simpa using h⟩
    trivial, forall_mem_none _⟩

theorem log_writeRecord (pass : Pass) (r : Record) (s : PassState) :
    ((pass.writeRecord r).runOn s).2.log = s.log := by
  rcases writeRecord_cases pass r s with h | ⟨sink, -, h⟩
  · rw [h]
    rfl
  · rw [h]

theorem log_writeOut (pass : Pass) (entries : List Entry) (s : PassState) :
    ((entries.forM pass.writeOut).runOn s).2.log = s.log :=
  @rel_writeOut pass (fun s t => t.log = s.log) (fun _ => rfl) (fun _ _ _ h k => k.trans h) _
    (fun r _ => log_writeRecord pass r) (fun _ _ => rfl) s

theorem reported_emit (r : Record) (s : PassState) :
    C.Reported s ((pass.emit r).runOn s).2 := by
  refine emit_state (.of_log (log_writeRecord pass r s)) fun t h => h.trans ?_
  refine reported_lines (t.ledger.rewriteReports r.name) rfl fun line hl => ?_
  unfold Ledger.rewriteReports at hl
  split at hl
  · rw [List.mem_singleton.mp hl]
    rfl
  · cases hl

/-- A record is written, and what is reported with it is no finding. -/
theorem keeps_claimAndEmit (hP : Framed P) {base : String} {reports : List LogLine}
    {record : String → Record} (h : ∀ line ∈ reports, line.isFinding = false) :
    C.Keeps P .none (pass.claimAndEmit base reports record) fun _ => True := by
  intro s hi hs
  have hclaim : C.Reported s (s.claim base reports) := reported_lines reports rfl h
  refine ⟨⟨hi.of_nodes (alike_claimAndEmit pass base reports record s).nodes,
    hP s _ (frame_claimAndEmit pass base reports record s) hs, ?_, fun _ _ => trivial,
    fun failure hf => ?_⟩, forall_mem_none _⟩
  · rw [claimAndEmit_runOn]
    exact hclaim.trans (reported_emit _ _)
  · rw [claimAndEmit_runOn] at hf
    rw [emit_error (t := ((pass.emit _).runOn (s.claim base reports)).2) (Prod.ext hf rfl)]
    exact C.fails rfl

theorem reported_writeGeometry (s : PassState) : C.Reported s (pass.writeGeometry.runOn s).2 := by
  refine writeGeometry_state (.refl s)
    (reported_lines [.geometryOutsideObject] rfl (by simp [LogLine.isFinding]))
    (fun name => reported_lines [.objectWithoutMesh name] rfl (by simp [LogLine.isFinding]))
    fun scope mesh _ _ _ => .of_log ?_
  exact log_writeOut pass _ (s.handOut ⟨scope.name, mesh, meshName mesh⟩)

theorem keeps_writeGeometry (hP : Framed P) :
    C.Keeps P .none pass.writeGeometry fun _ => True := fun s hi hs =>
  ⟨⟨hi.of_nodes (alike_writeGeometry pass s).nodes, hP s _ (frame_writeGeometry pass s) hs,
    reported_writeGeometry s, fun _ _ => trivial, fun failure hf => by
      obtain ⟨message, rfl⟩ := writeGeometry_error
        (t := (pass.writeGeometry.runOn s).2) (Prod.ext hf rfl)
      exact C.fails rfl⟩, forall_mem_none _⟩

/-! ### Steps one after another -/

theorem Ends.of_reported {o : Except Failure α × PassState} (hs : C.Reported s t)
    (h : C.Ends P Q t o) : C.Ends P Q s o := { h with reported := hs.trans h.reported }

theorem Keeps.imp {Q' : α → Prop} (h : C.Keeps P trace c Q) (hq : ∀ a, Q a → Q' a) :
    C.Keeps P trace c Q' := fun s hi hs =>
  ⟨{ (h s hi hs).1 with ok := fun a ha => hq a ((h s hi hs).1.ok a ha) }, (h s hi hs).2⟩

theorem Keeps.bind {f : α → Compile β} {rest : α → Trace} (hc : C.Keeps P trace c Q)
    (hf : ∀ a, Q a → C.Keeps P (rest a) (f a) R) :
    C.Keeps P (.bind c trace rest) (c >>= f) R := by
  intro s hi hs
  obtain ⟨hends, hvisits⟩ := hc s hi hs
  rw [runOn_bind]
  unfold Trace.bind
  generalize c.runOn s = o at hends hvisits ⊢
  rcases o with ⟨e | a, t⟩
  · refine ⟨ends_error hends.entered hends.kept hends.reported (hends.error e rfl),
      fun v hv => ?_⟩
    exact (hvisits v (by simpa using hv)).imp fun f hf => by cases hf; rfl
  · have hrest := hf a (hends.ok a rfl) t hends.entered hends.kept
    refine ⟨hrest.1.of_reported hends.reported, fun v hv => ?_⟩
    refine (List.mem_append.mp hv).elim (fun hv => ?_) (hrest.2 v)
    exact (hvisits v hv).imp fun f hf => by cases hf

/-- A step with calls before one that calls nothing. -/
theorem Keeps.before {f : α → Compile β} (hc : C.Keeps P trace c Q)
    (hf : ∀ a, Q a → C.Keeps P .none (f a) R) : C.Keeps P trace (c >>= f) R := by
  intro s hi hs
  have h := hc.bind hf s hi hs
  rwa [Trace.bind_none] at h

/-- A step that reports something and gives a value. -/
theorem keeps_report_pure (hP : Framed P) {line : LogLine} {a : α} (h : C.Reports line)
    (ha : Q a) : C.Keeps P .none (report line >>= fun _ => pure a) Q :=
  (keeps_report hP h).before fun _ _ => keeps_pure ha

/-- A step whose failures are looked at, and handed on unless they are cycles. -/
theorem Keeps.attempt {g : Except Failure α → Compile β} (hc : C.Keeps P trace c Q)
    (hg : ∀ r, (∀ failure, r = .error failure → C.Fails failure) → C.Keeps P .none (g r) R)
    (hon : HandsOn g) : C.Keeps P trace (ShadeNet.attempt c >>= g) R := by
  intro s hi hs
  obtain ⟨hends, hvisits⟩ := hc s hi hs
  rw [runOn_bind_ok (runOn_attempt c s)]
  have hrest := (hg _ hends.error _ hends.entered hends.kept).1
  refine ⟨hrest.of_reported hends.reported, fun v hv => { hvisits v hv with surfaces := ?_ }⟩
  intro failure hf hrun
  rw [(hvisits v hv).surfaces failure hf hrun]
  exact (hon failure hf _).1

theorem keeps_collect {f : α → Compile (Option β)} {first : α → Trace} {l : List α}
    (h : ∀ a ∈ l, C.Keeps P (first a) (f a) fun _ => True) :
    C.Keeps P (.collect f first l) (collect f l) fun _ => True := by
  induction l with
  | nil => exact keeps_pure trivial
  | cons a rest ih =>
    have hrest := ih fun b hb => h b (List.mem_cons_of_mem a hb)
    exact (h a List.mem_cons_self).bind fun _ _ => hrest.before fun _ _ => keeps_pure trivial

theorem keeps_forM {f : α → Compile Unit} {first : α → Trace} {l : List α}
    (h : ∀ a ∈ l, C.Keeps P (first a) (f a) fun _ => True) :
    C.Keeps P (.collect f first l) (l.forM f) fun _ => True := by
  induction l with
  | nil => exact keeps_pure trivial
  | cons a rest ih =>
    exact (h a List.mem_cons_self).bind fun _ _ => ih fun b hb => h b (List.mem_cons_of_mem a hb)

/-! ### Nodes that may be called -/

/-- A node of a known plugin comes to a value that it may be entered with. -/
def Gives (C : Conduct pass) (node : Node) (r : Option Resolved) : Prop :=
  ∀ category plugin desc, node.kind = .plugin category plugin →
    pass.catalog.get? plugin = some desc → ∃ value, r = some value ∧ C.Worth value

/-- What the build of a node comes to. -/
def Builds (C : Conduct pass) (node : Node) (r : Option Resolved) : Prop :=
  (∀ value ∈ r, C.Worth value) ∧ C.Gives node r

/-- A walk of some depth keeps the conduct at every node that may be called. -/
def Compiles (C : Conduct pass) (depth : Nat) : Prop :=
  ∀ tree node useLiterals s, C.Ready (.node tree node useLiterals) s →
    C.Keeps s.Frame (pass.nodeTrace depth tree node useLiterals)
      (pass.walk depth tree node useLiterals) (C.Gives node)

/-- What feeds a node of a tree of the scene may be called. -/
structure Feeds (C : Conduct pass) (b : PassState) (tree : NodeTree) (node : Node) : Prop where
  known : tree ∈ pass.scene.trees.values
  source : ∀ source useLiterals, tree.Feeds source node → C.Ready (.node tree source useLiterals) b

section Walk

variable {depth : Nat} {tree : NodeTree} {node : Node}

/-- A call in a state that keeps the frame of one where it may be made. -/
theorem Compiles.after (hd : C.Compiles depth) {useLiterals : Bool}
    (h : C.Ready (.node tree node useLiterals) b) :
    C.Keeps b.Frame (pass.nodeTrace depth tree node useLiterals)
      (pass.walk depth tree node useLiterals) (C.Gives node) := by
  intro s hi hs
  obtain ⟨hends, hvisits⟩ := hd tree node useLiterals s (C.frame hs h) s hi (.refl s)
  exact ⟨{ hends with kept := hs.trans hends.kept }, hvisits⟩

/-! ### Nodes that are built once -/

theorem builds_token (token : String) : C.Builds node (some (.reference token)) :=
  ⟨fun value hv => by cases hv; exact C.worth token, fun _ _ _ _ _ => ⟨_, rfl, C.worth token⟩⟩

/-- A node that is of no known plugin may come to nothing. -/
theorem builds_none (h : ∀ category plugin, node.kind = .plugin category plugin →
    pass.catalog.get? plugin = none) : C.Builds node none := by
  refine ⟨by simp, fun category plugin desc hk hd => ?_⟩
  rw [h category plugin hk] at hd
  cases hd

/-- A node that is no node of a plugin may come to anything. -/
theorem gives_of_kind {r : Option Resolved}
    (h : ∀ category plugin, node.kind ≠ .plugin category plugin) : C.Gives node r :=
  fun category plugin _ hk => absurd hk (h category plugin)

theorem feeds_inside {useLiterals : Bool} (hr : C.Ready (.node tree node useLiterals) s)
    (hn : node.kind.isBuilt = true → s.ledger.node? (s.treeKey tree.name) node.name = none) :
    C.Feeds (s.inside tree node) tree node :=
  ⟨(Scene.mem_positions.mp (C.within hr)).1, fun _ _ hfeeds => C.source hr hn hfeeds⟩

/-- A node without a record of its own is not marked. -/
theorem feeds_passing {useLiterals : Bool} (hr : C.Ready (.node tree node useLiterals) s)
    (hk : node.kind.isBuilt = false) : C.Feeds s tree node := by
  have hfeeds := feeds_inside hr fun h => absurd h (by simp [hk])
  rwa [PassState.inside, if_neg (by simp [hk])] at hfeeds

/-- A node that is met while it is built fails as it may, and one that is not compiled is
built where its inputs may be called. -/
theorem keeps_once {useLiterals : Bool} {build : Compile (Option Resolved)}
    (hr : C.Ready (.node tree node useLiterals) s) (hk : node.kind.isBuilt = true)
    (hb : ∀ t, C.Ready (.node tree node useLiterals) t →
      t.ledger.node? (t.treeKey tree.name) node.name = none →
      C.Keeps (t.mark (t.treeKey tree.name) node.name).Frame trace build (C.Builds node)) :
    C.Keeps s.Frame (onceTrace tree node trace) (once tree node build) (C.Gives node) := by
  intro t hi ht
  have hready := C.frame ht hr
  rw [once_runOn]
  unfold onceTrace
  cases hn : t.ledger.node? (t.treeKey tree.name) node.name with
  | some progress =>
    refine ⟨?_, forall_mem_none s⟩
    cases progress with
    | resolving => exact ends_error hi ht (.refl t) (C.fails_node hready hk hn)
    | done value => exact ends_ok hi ht (.refl t) fun _ _ _ _ _ => ⟨value, rfl, hi _ _ _ hn⟩
  | none =>
    obtain ⟨hends, hvisits⟩ := hb t hready hn _ (hi.mark _ _) (.refl _)
    simp only
    generalize build.runOn _ = o at hends hvisits ⊢
    refine ⟨?_, fun v hv => (hvisits v hv).imp fun failure hf => ?_⟩
    rotate_left
    · rcases o with ⟨_ | _, u⟩ <;> cases hf
      rfl
    rcases o with ⟨failure | _ | value, u⟩
    · exact ends_error (hends.entered.abandon _ _)
        (ht.trans ((frameComparison pass).abandon hn hends.kept)) hends.reported
        (hends.error failure rfl)
    · exact ends_ok (hends.entered.abandon _ _)
        (ht.trans ((frameComparison pass).abandon hn hends.kept)) hends.reported
        (hends.ok none rfl).2
    · obtain ⟨hworth, hgives⟩ := hends.ok _ rfl
      exact ends_ok (hends.entered.finish _ _ (hworth value rfl))
        (ht.trans ((frameComparison pass).finish value hn hends.kept)) hends.reported hgives

/-- The build of a node that is not compiled. -/
theorem keeps_built {useLiterals : Bool} {build : Compile (Option Resolved)}
    (hr : C.Ready (.node tree node useLiterals) s) (hk : node.kind.isBuilt = true)
    (hb : ∀ b, C.Feeds b tree node → C.Keeps b.Frame trace build (C.Builds node)) :
    C.Keeps s.Frame (onceTrace tree node trace) (once tree node build) (C.Gives node) := by
  refine keeps_once hr hk fun t ht hn => hb _ ?_
  have hfeeds := feeds_inside ht fun _ => hn
  rwa [PassState.inside, if_pos hk] at hfeeds

theorem isFinding_pluginReports (desc : PluginDesc) (params : OrderedMap String Value)
    (supplied : OrderedMap String Resolved) :
    ∀ line ∈ pass.pluginReports desc params supplied, line.isFinding = false := by
  intro line hl
  obtain ⟨param, -, hp⟩ := List.mem_filterMap.mp hl
  cases hsp : pass.spellParam params supplied param <;> rw [hsp] at hp <;> cases hp
  rfl

/-! ### Calls and ends -/

/-- A call that is made where it may be, with the calls below it. -/
theorem Keeps.call (call : Call) (hr : C.Ready call b) {g : α → Option Resolved}
    (hcall : call.compile pass (pass.walk depth) = c >>= fun a => pure (g a))
    (hc : C.Keeps b.Frame trace c Q) : C.Keeps b.Frame (.call call depth trace) c Q := by
  intro s hi hs
  refine ⟨(hc s hi hs).1, fun v hv => ?_⟩
  rcases List.mem_cons.mp hv with rfl | hv
  · refine ⟨hi, C.frame hs hr, fun failure _ hrun => ?_⟩
    have hmap : ((c.runOn s).1.map g) = .error failure := by
      rw [← hrun, Visit.run, hcall, runOn_bind_pure]
    cases ho : (c.runOn s).1 with
    | error e =>
      rw [ho] at hmap
      cases hmap
      rfl
    | ok a =>
      rw [ho] at hmap
      cases hmap
  · exact (hc s hi hs).2 v hv

theorem feeds_materialEnd (hr : C.Ready (.material tree) b) {output : Node}
    (ho : tree.materialOutput? = some output) : C.Feeds b tree output :=
  ⟨C.within hr, fun _ _ hfeeds => C.materialEnd hr ho hfeeds⟩

theorem keeps_materialToken (hP : Framed P) (tree : NodeTree)
    {r : Except Failure (Option Resolved)} (hr : ∀ failure, r = .error failure → C.Fails failure) :
    C.Keeps P .none (materialToken tree r) fun _ => True := by
  unfold materialToken
  split
  · exact keeps_pure trivial
  · exact keeps_report_pure hP (C.reports rfl) trivial
  · exact keeps_report_pure hP (C.reports_materialCycle (hr _ rfl)) trivial
  · exact keeps_throw (hr _ rfl)

theorem keeps_objectToken (hP : Framed P) {r : Except Failure (Option Resolved)}
    (hr : ∀ failure, r = .error failure → C.Fails failure) :
    C.Keeps P .none (objectToken r) fun _ => True := by
  unfold objectToken
  split
  · exact keeps_pure trivial
  · exact keeps_report_pure hP (C.reports_objectCycle (hr _ rfl)) trivial
  · exact keeps_throw (hr _ rfl)

theorem keeps_combineMaterials (hP : Framed P) (key : String) (materials : List String) :
    C.Keeps P .none (pass.combineMaterials key materials) fun _ => True := by
  unfold Pass.combineMaterials
  split
  · exact keeps_pure trivial
  · exact keeps_pure trivial
  · rw [Contract.claimAndEmit_plain]
    exact keeps_claimAndEmit hP (by simp)

theorem keeps_synthesize (hP : Framed P) (key token : String) :
    C.Keeps P .none (modifyLedger (·.setSynthesized key token)) fun _ => True := fun s hi hs =>
  ⟨ends_ok (hi.of_nodes rfl)
    (hP s _ (.of_ledger (Ledger.frame_setSynthesized _ _ _) rfl rfl rfl rfl) hs)
    (.of_log rfl) trivial, forall_mem_none _⟩

/-! ### Sockets and layers -/

variable (hd : C.Compiles depth)

include hd

theorem keeps_resolveSocket (hf : C.Feeds b tree node) (socket : Socket) (useLiterals : Bool) :
    C.Keeps b.Frame (socketTrace (pass.nodeTrace depth) tree node socket useLiterals)
      (resolveSocket (pass.walk depth) tree node socket useLiterals) fun _ => True := by
  unfold socketTrace resolveSocket NodeTree.source?
  cases hl : tree.linkTo? ⟨node.name, socket.name⟩ with
  | none => exact keeps_pure trivial
  | some link =>
    have htarget : link.target = ⟨node.name, socket.name⟩ := by
      simpa using List.find?_some hl
    simp only [Option.bind_some]
    cases hn : tree.node? link.source.node with
    | none =>
      have hline := C.reports_source hf.known (List.mem_of_find?_eq_some hl) hn
      rw [htarget] at hline
      exact keeps_report_pure (framed_frame b) hline trivial
    | some source =>
      exact (hd.after (hf.source source useLiterals ⟨link, _, hl, hn⟩)).before fun _ _ =>
        keeps_pure trivial

theorem keeps_resolveInput (hf : C.Feeds b tree node) (name : String) (useLiterals : Bool) :
    C.Keeps b.Frame (inputTrace (pass.nodeTrace depth) tree node name useLiterals)
      (resolveInput (pass.walk depth) tree node name useLiterals) fun _ => True := by
  unfold inputTrace resolveInput
  cases node.input? name with
  | none => exact keeps_report_pure (framed_frame b) (C.reports rfl) trivial
  | some socket => exact keeps_resolveSocket hd hf socket useLiterals

theorem keeps_supply (hf : C.Feeds b tree node) (useLiterals : Bool) (socket : Socket) :
    C.Keeps b.Frame (supplyTrace (pass.nodeTrace depth) tree node useLiterals socket)
      (supply (pass.walk depth) tree node useLiterals socket) fun _ => True := by
  unfold supplyTrace supply
  cases socket.attr with
  | none => exact keeps_pure trivial
  | some attr =>
    exact (keeps_resolveSocket hd hf socket useLiterals).before fun _ _ => keeps_pure trivial

theorem keeps_textureLayer (hf : C.Feeds b tree node) (socket : Socket) :
    C.Keeps b.Frame (textureLayerTrace (pass.nodeTrace depth) tree node socket)
      (textureLayer (pass.walk depth) tree node socket) fun _ => True := by
  unfold textureLayerTrace textureLayer
  split
  · refine (keeps_resolveSocket hd hf socket true).before fun value _ => ?_
    split
    · exact keeps_pure trivial
    · exact keeps_report_pure (framed_frame b) (C.reports rfl) trivial
  · exact keeps_pure trivial

theorem keeps_linkedWeight (hf : C.Feeds b tree node) (socket : String) :
    C.Keeps b.Frame (weightTrace (pass.nodeTrace depth) tree node socket)
      (Pass.linkedWeight (pass.walk depth) tree node socket) fun _ => True := by
  unfold weightTrace Pass.linkedWeight
  cases hl : tree.linkedSource? ⟨node.name, socket⟩ with
  | none => exact keeps_pure trivial
  | some found =>
    obtain ⟨source, output⟩ := found
    have hfeeds : tree.Feeds source node := by
      obtain ⟨link, hlink, hl⟩ := Option.bind_eq_some_iff.mp hl
      obtain ⟨source', hn, hl⟩ := Option.bind_eq_some_iff.mp hl
      obtain ⟨output', -, hl⟩ := Option.bind_eq_some_iff.mp hl
      cases hl
      exact ⟨link, socket, hlink, hn⟩
    exact (hd.after (hf.source source false hfeeds)).before fun _ _ => keeps_pure trivial

theorem keeps_brdfLayer (hf : C.Feeds b tree node) (layer : Nat) :
    C.Keeps b.Frame (pass.brdfLayerTrace depth (pass.nodeTrace depth) tree node layer)
      (pass.brdfLayer (pass.walk depth) tree node layer) fun _ => True := by
  unfold Pass.brdfLayerTrace Pass.brdfLayer
  simp only
  cases node.input? ("BRDF " ++ toString layer) with
  | none => exact keeps_pure trivial
  | some socket =>
    simp only
    split
    · refine (keeps_resolveSocket hd hf socket true).bind fun value _ => ?_
      cases value.bind (·.token?) with
      | none => exact keeps_report_pure (framed_frame b) (C.reports rfl) trivial
      | some brdf =>
        refine (keeps_linkedWeight hd hf _).before fun weight _ => ?_
        split
        · exact keeps_pure trivial
        · unfold Pass.writeWeight
          rw [Contract.claimAndEmit_plain]
          exact (keeps_claimAndEmit (framed_frame b) (by simp)).before fun _ _ =>
            keeps_pure trivial
    · exact keeps_pure trivial

theorem keeps_writePluginNode (hf : C.Feeds b tree node) {category : Category} {plugin : String}
    (hk : node.kind = .plugin category plugin) (hn : node ∈ tree.nodes.values)
    (useLiterals : Bool) :
    C.Keeps b.Frame (pass.pluginTrace depth (pass.nodeTrace depth) tree node plugin useLiterals)
      (pass.writePluginNode (pass.walk depth) tree node plugin useLiterals) (C.Builds node) := by
  unfold Pass.pluginTrace Pass.writePluginNode
  cases hd' : pass.catalog.get? plugin with
  | none =>
    have hline := C.reports_plugin (Scene.mem_positions.mpr ⟨hf.known, hn⟩) hk hd'
    refine keeps_report_pure (framed_frame b) hline (builds_none fun category' plugin' hk' => ?_)
    rw [hk] at hk'
    cases hk'
    exact hd'
  | some desc =>
    refine (keeps_collect fun socket _ => keeps_supply hd hf useLiterals socket).before
      fun supplied _ => ?_
    simp only [← bind_assoc, Contract.claimAndEmit_plugin]
    exact (keeps_claimAndEmit (framed_frame b) (isFinding_pluginReports _ _ _)).before
      fun token _ => keeps_pure (builds_token token)

theorem keeps_writeLayeredTexture (hf : C.Feeds b tree node) (hk : node.kind = .layeredTexture) :
    C.Keeps b.Frame (.collect (textureLayer (pass.walk depth) tree node)
        (textureLayerTrace (pass.nodeTrace depth) tree node) node.inputs)
      (pass.writeLayeredTexture (pass.walk depth) tree node) (C.Builds node) := by
  unfold Pass.writeLayeredTexture
  refine (keeps_collect fun socket _ => keeps_textureLayer hd hf socket).before fun layers _ => ?_
  split
  · exact keeps_report_pure (framed_frame b) (C.reports rfl)
      (builds_none fun _ _ hk' => by rw [hk] at hk'; cases hk')
  · simp only [← bind_assoc, Contract.claimAndEmit_plain]
    exact (keeps_claimAndEmit (framed_frame b) (by simp)).before
      fun token _ => keeps_pure (builds_token token)

theorem keeps_writeLayeredBrdf (hf : C.Feeds b tree node) {additive : Bool}
    (hk : node.kind = .layeredBrdf additive) :
    C.Keeps b.Frame (.collect (pass.brdfLayer (pass.walk depth) tree node)
        (pass.brdfLayerTrace depth (pass.nodeTrace depth) tree node)
        (List.range' 1 (node.inputs.length / 2)))
      (pass.writeLayeredBrdf (pass.walk depth) tree node additive) (C.Builds node) := by
  unfold Pass.writeLayeredBrdf
  refine (keeps_collect fun layer _ => keeps_brdfLayer hd hf layer).before fun layers _ => ?_
  split
  · exact keeps_report_pure (framed_frame b) (C.reports rfl)
      (builds_none fun _ _ hk' => by rw [hk] at hk'; cases hk')
  · simp only [← bind_assoc, Contract.claimAndEmit_plain]
    exact (keeps_claimAndEmit (framed_frame b) (by simp)).before
      fun token _ => keeps_pure (builds_token token)

/-! ### Materials -/

/-- The tree of a material that may be called. -/
theorem keeps_writeMaterialTree (hr : C.Ready (.material tree) b) :
    C.Keeps b.Frame (.call (.material tree) depth (materialTrace (pass.nodeTrace depth) tree))
      (writeMaterialTree (pass.walk depth) tree) fun _ => True := by
  refine Keeps.call _ hr rfl ?_
  unfold materialTrace writeMaterialTree
  cases ho : tree.materialOutput? with
  | none => exact keeps_report_pure (framed_frame b) (C.reports rfl) trivial
  | some output =>
    intro s hi hs
    rw [runOn_bind_ok (runOn_get s)]
    simp only
    cases (if output.kind = .materialOutput true then none else s.overrideToken) with
    | some token => exact keeps_pure (P := b.Frame) trivial s hi hs
    | none =>
      simp only
      split
      · exact (keeps_resolveInput hd (feeds_materialEnd hr ho) "Material" true).attempt
          (fun _ => keeps_materialToken (framed_frame b) tree)
          (Pairing.handsOn_materialToken tree) s hi hs
      · exact keeps_report_pure (framed_frame b) (C.reports rfl) trivial s hi hs

theorem keeps_slotMaterial {slot : Option String}
    (hr : ∀ tree, slot.bind pass.scene.materialTree? = some tree → C.Ready (.material tree) b) :
    C.Keeps b.Frame (pass.slotTrace depth (pass.nodeTrace depth) slot)
      (pass.slotMaterial (pass.walk depth) slot) fun _ => True := by
  unfold Pass.slotTrace Pass.slotMaterial
  cases hslot : slot.bind pass.scene.materialTree? with
  | none => exact keeps_pure trivial
  | some tree =>
    exact (keeps_writeMaterialTree hd (hr tree hslot)).before fun _ _ => keeps_pure trivial

/-- The material of the object in scope, if it may be called. -/
theorem keeps_writeObjectMaterial (hr : C.Ready .ownMaterial b) :
    C.Keeps b.Frame (pass.ownMaterialTrace depth (pass.nodeTrace depth))
      (pass.writeObjectMaterial (pass.walk depth)) fun _ => True := by
  refine Keeps.call _ hr rfl fun s hi hs => ?_
  unfold Pass.slotsTrace Pass.writeObjectMaterial
  rw [runOn_bind_ok (runOn_get s)]
  cases hscope : s.scope with
  | none => exact keeps_report_pure (framed_frame b) (C.reports rfl) trivial s hi hs
  | some scope =>
    simp only
    cases ho : pass.scene.object? scope.name with
    | none => exact keeps_pure (P := b.Frame) trivial s hi hs
    | some object =>
      simp only
      cases s.ledger.synthesized? (multiMaterialName scope.name) with
      | some token => exact keeps_pure (P := b.Frame) trivial s hi hs
      | none =>
        simp only
        refine ((keeps_collect fun slot hslot => keeps_slotMaterial hd fun tree ht => ?_).before
          fun materials _ => (keeps_combineMaterials (framed_frame b) _ materials).before
            fun token _ => (keeps_synthesize (framed_frame b) _ token).before
              fun _ _ => keeps_pure trivial) s hi hs
        exact C.slot hr (hs.scope.symm.trans hscope) ho (List.mem_filterMap.mpr ⟨slot, hslot, ht⟩)

/-! ### Objects -/

theorem keeps_writeObjectTree (hf : ∀ output, tree.objectOutput? = some output →
    C.Feeds b tree output) :
    C.Keeps b.Frame (match tree.objectOutput? with
        | none => .none
        | some output => inputTrace (pass.nodeTrace depth) tree output "Object" true)
      (writeObjectTree (pass.walk depth) tree) fun _ => True := by
  unfold writeObjectTree
  cases ho : tree.objectOutput? with
  | none => exact keeps_report_pure (framed_frame b) (C.reports rfl) trivial
  | some output =>
    exact (keeps_resolveInput hd (hf output ho) "Object" true).attempt
      (fun _ => keeps_objectToken (framed_frame b)) Pairing.handsOn_objectToken

theorem keeps_writePlainObject {name : String} {object : SceneObject}
    (hr : C.Ready .ownMaterial b) (hobject : object.tree = none) :
    C.Keeps b.Frame (pass.buildTrace depth (pass.nodeTrace depth) object)
      (pass.writePlainObject (pass.walk depth) name object) fun _ => True := by
  unfold Pass.buildTrace Pass.writePlainObject
  simp only [hobject]
  cases pass.catalog.get? "Node" with
  | none => exact keeps_report_pure (framed_frame b) (C.reports rfl) trivial
  | some desc =>
    refine (keeps_writeGeometry (framed_frame b)).bind fun geometry _ => ?_
    cases geometry with
    | none => exact keeps_pure trivial
    | some geometry =>
      refine (keeps_writeObjectMaterial hd hr).before fun material _ => ?_
      simp only [← bind_assoc, Contract.claimAndEmit_plugin]
      exact (keeps_claimAndEmit (framed_frame b) (isFinding_pluginReports _ _ _)).before
        fun _ _ => keeps_pure trivial

/-- What an object is compiled from in its own scope. -/
theorem keeps_buildObject {name : String} {object : SceneObject} (hr : C.Ready (.object name) s)
    (hn : s.ledger.object? name = none) (ho : pass.scene.object? name = some object) :
    C.Keeps (s.enter name object).Frame (pass.buildTrace depth (pass.nodeTrace depth) object)
      (pass.buildObject (pass.walk depth) name object) fun _ => True := by
  unfold Pass.buildObject
  cases hkey : object.tree with
  | none => exact keeps_writePlainObject hd (C.plain hr hn ho) hkey
  | some key =>
    unfold Pass.buildTrace
    simp only [hkey]
    cases ht : pass.scene.tree? key with
    | none => exact keeps_report_pure (framed_frame _) (C.reports rfl) trivial
    | some tree =>
      refine keeps_writeObjectTree hd fun output hout => ⟨OrderedMap.mem_values_of_get? ht, ?_⟩
      exact fun source useLiterals hfeeds => C.objectEnd hr hn ho hkey ht hout hfeeds

/-- An object that may be called. -/
theorem keeps_writeObject {name : String} (hr : C.Ready (.object name) b) :
    C.Keeps b.Frame (pass.objectTrace depth (pass.nodeTrace depth) name)
      (pass.writeObject (pass.walk depth) name) fun _ => True := by
  refine Keeps.call _ hr rfl fun s hi hs => ?_
  rw [writeObject_runOn]
  cases hn : s.ledger.object? name with
  | some progress =>
    refine ⟨?_, forall_mem_none s⟩
    cases progress with
    | resolving => exact (keeps_report_pure (P := b.Frame) (a := (none : Option String))
        (framed_frame b) (C.reports rfl) trivial s hi hs).1
    | done token => exact (keeps_pure (P := b.Frame) trivial s hi hs).1
  | none =>
    simp only
    cases ho : pass.scene.object? name with
    | none => exact keeps_pure (P := b.Frame) trivial s hi hs
    | some object =>
      by_cases hv : object.visible = true
      · simp only [if_pos hv]
        obtain ⟨hends, hvisits⟩ := keeps_buildObject hd (C.frame hs hr) hn ho
          (s.enter name object) (hi.of_nodes rfl) (.refl _)
        generalize Compile.runOn _ _ = o at hends hvisits ⊢
        refine ⟨?_, fun v hv => (hvisits v hv).imp fun failure hf => ?_⟩
        rotate_left
        · rcases o with ⟨_ | _, t⟩ <;> cases hf
          rfl
        rcases o with ⟨failure | token, t⟩
        · exact ends_error (hends.entered.of_nodes rfl)
            (hs.trans ((frameComparison pass).quit hn ho hends.kept)) hends.reported
            (hends.error failure rfl)
        · exact ends_ok (hends.entered.of_nodes rfl)
            (hs.trans ((frameComparison pass).leave token hn ho hends.kept)) hends.reported trivial
      · simp only [if_neg hv]
        have hhide : s.Frame (s.hide name) := (frameComparison pass).hide hn ho
        exact ⟨ends_ok (t := s.hide name) (hi.of_nodes rfl) (hs.trans hhide) (.of_log rfl) trivial,
          forall_mem_none s⟩

/-- The objects that a selector picks, if they may be called. -/
theorem keeps_select (hr : ∀ name, C.Ready (.object name) b)
    (hf : C.Fails (.cycle tree.name node.name)) (names : List String) :
    C.Keeps b.Frame (pass.selectTrace depth (pass.nodeTrace depth) tree node names)
      (pass.select (pass.walk depth) tree node names) fun _ => True := by
  have hmember : ∀ name ∈ names, C.Keeps b.Frame
      (fun s => if s.ledger.object? name = some .resolving then []
        else pass.objectTrace depth (pass.nodeTrace depth) name s)
      (pass.selectMember (pass.walk depth) tree node name) fun _ => True := by
    intro name _ s hi hs
    unfold Pass.selectMember
    rw [runOn_bind_ok (runOn_get s)]
    by_cases hbusy : s.ledger.object? name = some .resolving
    · simp only [if_pos hbusy]
      exact keeps_throw (P := b.Frame) hf s hi hs
    · simp only [if_neg hbusy]
      exact keeps_writeObject hd (hr name) s hi hs
  exact (keeps_collect hmember).before fun tokens _ => keeps_pure trivial

/-! ### The walk -/

/-- One step of the walk keeps the conduct if the steps below do. -/
theorem compiles_succ : C.Compiles (depth + 1) := by
  intro tree node useLiterals s hr
  have hmem := (Scene.mem_positions.mp (C.within hr)).2
  show C.Keeps s.Frame (.call (.node tree node useLiterals) (depth + 1)
    (pass.kindTrace depth (pass.nodeTrace depth) tree node useLiterals))
    (pass.compileNode (pass.walk depth) tree node useLiterals) _
  refine Keeps.call (.node tree node useLiterals) (g := id) hr (bind_pure _).symm ?_
  have hselect : ∀ names more, pass.scene.selected? node.kind = some more →
      C.Keeps s.Frame (pass.selectTrace depth (pass.nodeTrace depth) tree node names)
        (pass.select (pass.walk depth) tree node names) fun _ => True := fun names _ hs =>
    keeps_select hd (C.selected hr hs) (C.fails_select hr hs) names
  have hgives : (∀ category plugin, node.kind ≠ .plugin category plugin) →
      ∀ r, C.Gives node r := fun h r => gives_of_kind h
  unfold Pass.kindTrace Pass.compileNode
  cases hkind : node.kind with
  | plugin category plugin =>
    exact keeps_built hr (by rw [hkind]; rfl) fun b hf =>
      keeps_writePluginNode hd hf hkind hmem useLiterals
  | unset => exact keeps_pure (hgives (by simp [hkind]) _)
  | layeredTexture =>
    exact keeps_built hr (by rw [hkind]; rfl) fun b hf => keeps_writeLayeredTexture hd hf hkind
  | layeredBrdf additive =>
    exact keeps_built hr (by rw [hkind]; rfl) fun b hf => keeps_writeLayeredBrdf hd hf hkind
  | selectObject object =>
    exact (hselect _ object.toList (by rw [hkind]; rfl)).before fun _ _ =>
      keeps_pure (hgives (by simp [hkind]) _)
  | selectGroup group =>
    exact (hselect _ _ (by rw [hkind]; rfl)).before fun _ _ =>
      keeps_pure (hgives (by simp [hkind]) _)
  | objectGeometry =>
    exact (keeps_writeGeometry (framed_frame s)).imp fun r _ => hgives (by simp [hkind]) r
  | objectMaterial =>
    exact (keeps_writeObjectMaterial hd (C.ownMaterial hr hkind)).before fun _ _ =>
      keeps_pure (hgives (by simp [hkind]) _)
  | materialOutput refuses =>
    have hfeeds := feeds_passing hr (by rw [hkind]; rfl)
    exact (keeps_resolveInput hd hfeeds "Material" useLiterals).imp fun r _ =>
      hgives (by simp [hkind]) r
  | objectOutput =>
    have hfeeds := feeds_passing hr (by rw [hkind]; rfl)
    exact (keeps_resolveInput hd hfeeds "Object" useLiterals).imp fun r _ =>
      hgives (by simp [hkind]) r

end Walk

/-- The walk keeps the conduct at every depth. -/
theorem compiles (C : Conduct pass) : ∀ depth, C.Compiles depth
  | 0 => fun tree node useLiterals _ hr =>
    Keeps.call (.node tree node useLiterals) (g := id) hr (bind_pure _).symm
      (keeps_throw (C.fails rfl))
  | depth + 1 => compiles_succ (compiles C depth)

end Conduct

/-! ### Calls -/

namespace Conduct

variable {pass : Pass} (C : Conduct pass)

/-- What a call comes to. -/
def Answers : Call → Option Resolved → Prop
  | .node _ n _, r => C.Gives n r
  | _, _ => True

/-- A call that may be made ends as it should, and all calls below it are made where they may
be. -/
theorem keeps_call (depth : Nat) {call : Call} {s : PassState} (hr : C.Ready call s) :
    C.Keeps s.Frame (call.trace pass depth) (call.compile pass (pass.walk depth))
      (C.Answers call) := by
  have hd := C.compiles depth
  cases call with
  | node tree n useLiterals => exact hd tree n useLiterals s hr
  | material tree => exact (keeps_writeMaterialTree hd hr).before fun _ _ => keeps_pure trivial
  | ownMaterial => exact (keeps_writeObjectMaterial hd hr).before fun _ _ => keeps_pure trivial
  | object name => exact (keeps_writeObject hd hr).before fun _ _ => keeps_pure trivial

/-! ### Passes -/

variable {C} {P : PassState → Prop} {trace : Trace} {c : Compile α} {Q : α → Prop}

/-- Nothing is being compiled. -/
abbrev Resting (s : PassState) : Prop := s.ledger.Idle

theorem framed_resting : Framed Resting := fun _ _ h hs => h.ledger.idle hs

/-- A step that keeps the frame of every state in which nothing is being compiled. -/
theorem Keeps.resting (h : ∀ s : PassState, Resting s → C.Keeps s.Frame trace c Q) :
    C.Keeps Resting trace c Q := by
  intro s hi hs
  obtain ⟨hends, hvisits⟩ := h s hs s hi (.refl s)
  exact ⟨{ hends with kept := framed_resting _ _ hends.kept hs }, hvisits⟩

theorem keeps_tree {material : String} {tree : NodeTree}
    (ht : pass.scene.materialTree? material = some tree) :
    C.Keeps Resting (.call (.material tree) pass.scene.walkDepth
        (materialTrace (pass.nodeTrace pass.scene.walkDepth) tree))
      (writeMaterialTree pass.compiler tree) fun _ => True := by
  obtain ⟨key, -, hkey⟩ := Option.bind_eq_some_iff.mp ht
  exact .resting fun s hs => keeps_writeMaterialTree (C.compiles _)
    (C.start hs (OrderedMap.mem_values_of_get? hkey))

theorem keeps_writeMaterial (material : String) :
    C.Keeps Resting (pass.sceneMaterialTrace material) (pass.writeMaterial material)
      fun _ => True := by
  unfold Pass.sceneMaterialTrace Pass.slotTrace Pass.writeMaterial
  simp only [Option.bind_some]
  cases ht : pass.scene.materialTree? material with
  | none => exact keeps_pure trivial
  | some tree => exact (keeps_tree ht).before fun _ _ => keeps_pure trivial

theorem keeps_writeSceneObject (name : String) :
    C.Keeps Resting (pass.sceneObjectTrace name) (pass.writeSceneObject name) fun _ => True :=
  Keeps.before (.resting fun _ hs => keeps_writeObject (C.compiles _) (C.start hs trivial))
    fun _ _ => keeps_pure trivial

theorem keeps_emit (hP : Framed P) (r : Record) : C.Keeps P .none (pass.emit r) fun _ => True :=
  fun s hi hs =>
    ⟨⟨hi.of_nodes (alike_emit pass r s).nodes, hP s _ (frame_emit pass r s) hs, reported_emit r s,
      fun _ _ => trivial, fun failure hf => by
        rw [emit_error (t := ((pass.emit r).runOn s).2) (Prod.ext hf rfl)]
        exact C.fails rfl⟩, forall_mem_none _⟩

theorem keeps_writeDefaults : C.Keeps Resting .none pass.writeDefaults fun _ => True := by
  intro s hi hs
  unfold Pass.writeDefaults
  rw [runOn_bind_ok (runOn_get s)]
  split
  · exact keeps_pure (P := Resting) trivial s hi hs
  · exact ((keeps_emit framed_resting _).before fun _ _ =>
      (keeps_emit framed_resting _).before fun _ _ => keeps_pure trivial) s hi hs

/-- The override is chosen. -/
theorem keeps_choose (token : String) :
    C.Keeps Resting .none (modify fun s : PassState => { s with overrideToken := some token })
      fun _ => True := fun _ hi hs =>
  ⟨ends_ok (hi.of_nodes rfl) hs (.of_log rfl) trivial, forall_mem_none _⟩

theorem keeps_writeOverride :
    C.Keeps Resting pass.overrideTrace pass.writeOverride fun _ => True := by
  unfold Pass.overrideTrace Pass.writeOverride
  cases pass.settings.overrideMaterial with
  | none => exact keeps_pure trivial
  | some material =>
    unfold Pass.sceneMaterialTrace Pass.slotTrace
    simp only [Option.bind_some]
    cases ht : pass.scene.materialTree? material with
    | none => exact keeps_report framed_resting (C.reports rfl)
    | some tree =>
      exact (keeps_tree ht).before fun token _ =>
        (keeps_report framed_resting (C.reports rfl)).before fun _ _ => keeps_choose token

/-- All that a pass does behind its head. -/
theorem keeps_body :
    C.Keeps Resting pass.bodyTrace (pass.body pass.items.length) fun _ => True := by
  rw [Pass.body_all]
  unfold Pass.bodyTrace Pass.opening
  refine (keeps_writeDefaults.bind fun _ _ => keeps_writeOverride).bind fun _ _ => ?_
  refine (keeps_forM fun material _ => keeps_writeMaterial material).bind fun _ _ => ?_
  exact keeps_forM fun name _ => keeps_writeSceneObject name

theorem entered_start {s : PassState} (h : s.ledger.nodes = ∅) : C.Entered s := by
  intro key name value hv
  unfold Ledger.node? at hv
  rw [h] at hv
  cases hv

variable (C) (s : PassState)

/-- A pass makes its calls where they may be made, and a failure of one that is no cycle is
its own. It reports what may be reported, and nodes are entered with what they may be. -/
theorem keeps_run : (C.Entered (pass.run.runOn s).2 ∧ C.Reported s (pass.run.runOn s).2) ∧
    ∀ v ∈ pass.visits s, C.Admits v (pass.run.runOn s).1 := by
  have hhead : C.Reported s (pass.headed s) :=
    reported_lines [.exporting pass.scene.name pass.frame] rfl
      (by simp [LogLine.isFinding])
  rw [Pass.run_runOn]
  unfold Pass.visits Pass.afterHead
  split
  · have hclosing : C.Keeps Resting .none pass.closing fun _ => True := fun t hi ht =>
      ⟨ends_ok (hi.of_nodes rfl) ht (reported_lines [_] rfl (by simp [LogLine.isFinding]))
        trivial, forall_mem_none _⟩
    obtain ⟨hends, hvisits⟩ := (keeps_body.before fun _ _ => hclosing) (pass.headed s)
      (entered_start rfl) (idle_headed pass s)
    exact ⟨⟨hends.entered, hhead.trans hends.reported⟩, hvisits⟩
  · exact ⟨⟨entered_start rfl, hhead⟩, forall_mem_none s⟩

end Conduct

end ShadeNet
