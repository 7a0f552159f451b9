/-
# What the calls of a pass do to the state

From state to state a pass changes its ledger only by the calls it makes. Each call is
made for another one (`Pass.Calls`), and it brackets what it needs itself: a node is
marked while it is built, an object is in scope while it is compiled, and what comes of
it is entered in the end (`Pass.Brackets`). In between names are taken and records are
written, and nothing else happens (`PassState.Alike`). A journey is a part of a pass
that is put together from such calls; that a pass is one is proved elsewhere.

Key definitions: `PassState.Writes`, `Pass.Calls`, `Pass.gathered?`, `NodeKind.isBuilt`,
`Pass.built?`, `Pass.Brackets`, `Pass.Journey`.
Key theorems: `Journey.invariant`, `Journey.relates`, `Journey.scope`, `Journey.precedes`.
-/
import ShadeNet.Proofs.Spelled
import ShadeNet.Proofs.Visit

namespace ShadeNet

open Compile

/-! ### What is in a journey -/

/-- A record is written under a name that was free. -/
structure PassState.Writes (s : PassState) (r : Record) (t : PassState) : Prop where
  alike : s.Alike t
  names : s.ledger.names ⊆ t.ledger.names
  fresh : r.name ∉ s.ledger.names
  taken : r.name ∈ t.ledger.names
  sent : t.sent = s.sent ++ [r]
  whole : (s.sink.write (.record r)).2 = true
  sink : t.sink = (s.sink.write (.record r)).1

/-- A node feeds an input socket of another one. -/
def NodeTree.Feeds (tree : NodeTree) (source node : Node) : Prop :=
  ∃ link socket, tree.linkTo? ⟨node.name, socket⟩ = some link ∧
    tree.node? link.source.node = some source

/-- The trees of the slots of an object, in order. -/
def Scene.slotTrees (scene : Scene) (object : SceneObject) : List NodeTree :=
  object.slots.filterMap (·.bind scene.materialTree?)

/-- The scope in which an object is compiled. -/
def SceneObject.scope (object : SceneObject) (name : String) : ObjectScope :=
  ⟨name, object.mesh, object.tree⟩

/-- A visit that is made for another one, or for the pass itself. -/
inductive Pass.Calls (pass : Pass) : Option Visit → Visit → Prop
  | sceneMaterial {tree material v} : pass.scene.materialTree? material = some tree →
    v.call = .material tree → v.state.scope = none → Calls pass none v
  | sceneObject {name v} : v.call = .object name → v.state.scope = none → Calls pass none v
  | source {c tree node useLiterals source useLiterals' v} : c.call = .node tree node useLiterals →
    tree.Feeds source node → v.call = .node tree source useLiterals' →
    v.state.scope = c.state.scope → Calls pass (some c) v
  | ownMaterial {c tree node useLiterals v} : c.call = .node tree node useLiterals →
    node.kind = .objectMaterial → v.call = .ownMaterial → v.state.scope = c.state.scope →
    Calls pass (some c) v
  | selected {c tree node useLiterals name v} : c.call = .node tree node useLiterals →
    v.call = .object name → v.state.ledger.object? name ≠ some .resolving →
    v.state.scope = c.state.scope → Calls pass (some c) v
  | slot {c scope object tree v} : c.call = .ownMaterial → c.state.scope = some scope →
    pass.scene.object? scope.name = some object → tree ∈ pass.scene.slotTrees object →
    v.call = .material tree → v.state.scope = c.state.scope → Calls pass (some c) v
  | materialEnd {c tree output source useLiterals v} : c.call = .material tree →
    tree.materialOutput? = some output → tree.Feeds source output →
    v.call = .node tree source useLiterals → v.state.scope = c.state.scope → Calls pass (some c) v
  | objectEnd {c name object key tree output source useLiterals v} : c.call = .object name →
    c.state.ledger.object? name = none → pass.scene.object? name = some object →
    object.tree = some key → pass.scene.tree? key = some tree →
    tree.objectOutput? = some output → tree.Feeds source output →
    v.call = .node tree source useLiterals → v.state.scope = some (object.scope name) →
    Calls pass (some c) v
  | plain {c name object v} : c.call = .object name → c.state.ledger.object? name = none →
    pass.scene.object? name = some object → v.call = .ownMaterial →
    v.state.scope = some (object.scope name) → Calls pass (some c) v

/-- A visit compiles an object: one of the scene that is not in the ledger. -/
def Visit.Opens (pass : Pass) (v : Visit) (name : String) : Prop :=
  v.call = .object name ∧ v.state.ledger.object? name = none ∧
    (pass.scene.object? name).isSome = true

theorem Visit.not_opens {pass : Pass} {v : Visit} (h : ∀ name, v.call ≠ .object name)
    (name : String) : ¬ v.Opens pass name := fun ho => h name ho.1

/-- The record that a call writes for the materials of the object of the given name, if
there are several. -/
def Pass.gathered? (pass : Pass) (name : String) (v : Visit) : Option Record :=
  match v.call, v.state.scope with
  | .ownMaterial, some scope =>
    match pass.scene.object? scope.name,
        v.state.ledger.synthesized? (multiMaterialName scope.name) with
    | some object, none =>
      match ((collect (pass.slotMaterial (pass.walk v.depth)) object.slots).runOn v.state).1,
          (v.run pass).1 with
      | .ok materials, .ok (some (.reference token)) =>
        if scope.name = name ∧ 2 ≤ materials.length then
          some (Pass.multiMaterialRecord token materials)
        else none
      | _, _ => none
    | _, _ => none
  | _, _ => none

/-- Whether a node of this kind has a record of its own. -/
def NodeKind.isBuilt : NodeKind → Bool
  | plugin _ _ | layeredTexture | layeredBrdf _ => true
  | _ => false

/-- The record that a call writes for the node that it is of, if the node is not in the ledger
and comes to something. -/
def Pass.built? (pass : Pass) (v : Visit) : Option Record :=
  match v.call with
  | .node tree node _ =>
    if node.kind.isBuilt && v.state.ledger.node? (v.state.treeKey tree.name) node.name = none then
      match (v.run pass).1 with
      | .ok (some _) => (v.run pass).2.sent.getLast?
      | _ => none
    else none
  | _ => none

/-- A call among the visits, made in the given scope, gave the token of a material tree. -/
def Pass.GivesMaterial (pass : Pass) (visits : List Visit) (scope : Option ObjectScope)
    (tree : NodeTree) (token : String) : Prop :=
  ∃ v ∈ visits, v.call = .material tree ∧ v.state.scope = scope ∧
    (v.run pass).1 = .ok (some (.reference token))

theorem Pass.GivesMaterial.mono {pass : Pass} {visits more : List Visit}
    {scope : Option ObjectScope} {tree : NodeTree} {token : String}
    (h : pass.GivesMaterial visits scope tree token) (hsub : visits ⊆ more) :
    pass.GivesMaterial more scope tree token := by
  obtain ⟨v, hv, hgives⟩ := h
  exact ⟨v, hsub hv, hgives⟩

/-- The tokens of the slots of an object, in order, are given by calls among the visits that
are made in the scope of the object. -/
def Pass.SlotsGive (pass : Pass) (visits : List Visit) (scope : ObjectScope)
    (object : SceneObject) (tokens : List String) : Prop :=
  List.Forall₂ (pass.GivesMaterial visits (some scope)) (pass.scene.slotTrees object) tokens

/-- The state in which a call makes its calls, these calls, and the state behind them. -/
inductive Pass.Brackets (pass : Pass) (v : Visit) : PassState → List Visit → PassState → Prop
  /-- What comes of the call is not entered. -/
  | passed {vs} : (∀ name, pass.gathered? name v = none) → (∀ name, ¬ v.Opens pass name) →
    pass.built? v = none → Brackets pass v v.state vs (v.run pass).2
  /-- A node is built and written. -/
  | built {tree node useLiterals vs u w r} : v.call = .node tree node useLiterals →
    v.state.ledger.node? (v.state.treeKey tree.name) node.name = none → u.Writes r w →
    v.run pass = (.ok (some (.reference r.name)),
      w.finish (v.state.treeKey tree.name) node.name (.reference r.name)) →
    node.kind.isBuilt = true →
    Brackets pass v (v.state.mark (v.state.treeKey tree.name) node.name) vs u
  /-- A node comes to nothing. -/
  | dropped {tree node useLiterals vs u} : v.call = .node tree node useLiterals →
    v.state.ledger.node? (v.state.treeKey tree.name) node.name = none →
    (v.run pass).2 = u.abandon (v.state.treeKey tree.name) node.name →
    (∀ value, (v.run pass).1 ≠ .ok (some value)) →
    Brackets pass v (v.state.mark (v.state.treeKey tree.name) node.name) vs u
  /-- The materials of an object are gathered. -/
  | gathered {scope object vs u w materials token} : v.call = .ownMaterial →
    v.state.scope = some scope → pass.scene.object? scope.name = some object →
    v.state.ledger.synthesized? (multiMaterialName scope.name) = none →
    (collect (pass.slotMaterial (pass.walk v.depth)) object.slots).runOn v.state =
      (.ok materials, u) → vs = pass.slotsTrace v.depth (pass.nodeTrace v.depth) v.state →
    pass.SlotsGive vs scope object materials →
    (pass.combineMaterials (multiMaterialName scope.name) materials).runOn u = (.ok token, w) →
    v.run pass = (.ok (some (.reference token)),
      w.synthesize (multiMaterialName scope.name) token) →
    Brackets pass v v.state vs u
  /-- An object that is not rendered is passed over. -/
  | hidden {name object} : v.call = .object name → v.state.ledger.object? name = none →
    v.run pass = (.ok none, v.state.hide name) → pass.scene.object? name = some object →
    Brackets pass v v.state [] v.state
  /-- An object is compiled. -/
  | left {name object vs u token} : v.call = .object name →
    v.state.ledger.object? name = none → pass.scene.object? name = some object →
    (pass.buildObject (pass.walk v.depth) name object).runOn (v.state.enter name object) =
      (.ok token, u) →
    v.run pass = (.ok (token.map .reference), u.leave v.state.scope name token) →
    object.visible = true → Brackets pass v (v.state.enter name object) vs u
  /-- An object fails. -/
  | quit {name object vs u} : v.call = .object name → v.state.ledger.object? name = none →
    pass.scene.object? name = some object → (v.run pass).2 = u.quit v.state.scope name →
    Brackets pass v (v.state.enter name object) vs u

/-- A part of a pass, with its visits, that is made for a call or for the pass itself. -/
inductive Pass.Journey (pass : Pass) : Option Visit → PassState → List Visit → PassState → Prop
  /-- Names are taken and records are written. -/
  | quiet {c s t} : s.Alike t → s.ledger.names ⊆ t.ledger.names → Journey pass c s [] t
  /-- The token of the tree of a material is chosen as the override. -/
  | chosen {s t vs tree token} : Journey pass none s vs t →
    (writeMaterialTree pass.compiler tree).runOn s = (.ok token, t) →
    Journey pass none s vs { t with overrideToken := some token }
  /-- One part after another. -/
  | append {c s t u vs ws} : Journey pass c s vs t → Journey pass c t ws u →
    Journey pass c s (vs ++ ws) u
  /-- A call. -/
  | call {c v inner vs u} : pass.Calls c v → pass.Brackets v inner vs u →
    Journey pass (some v) inner vs u → Journey pass c v.state (v :: vs) (v.run pass).2

/-! ### Records that are written -/

section Written

variable {pass : Pass} {s t : PassState}

/-- A record with a name of its own is written, or nothing is entered. -/
theorem claimAndEmit_writes {base : String} {reports : List LogLine} {record : String → Record}
    (hn : ∀ name, (record name).name = name) {token : String}
    (h : (pass.claimAndEmit base reports record).runOn s = (.ok token, t)) :
    ∃ r, r = record token ∧ r.name = token ∧ s.Writes r t := by
  have halike := alike_claimAndEmit pass base reports record s
  have hframe := frame_claimAndEmit pass base reports record s
  rw [h] at halike hframe
  rw [claimAndEmit_runOn] at h
  have htoken : token = freeName s.ledger.names base := by rw [emit_token h, hn]
  have hend := emit_ok h
  have hwhole := emit_whole h
  rw [← htoken] at hwhole
  refine ⟨record token, rfl, hn token, halike, hframe.ledger.names, ?_, ?_, ?_, hwhole, ?_⟩
  · rw [hn, htoken]
    exact freeName_not_mem _ _
  · rw [hend, ← htoken]
    exact mem_addMember.mpr (Or.inr rfl)
  · rw [hend, ← htoken]
    rfl
  · rw [hend, ← htoken]
    rfl

/-- What the materials of an object come to: the default, the only one, or a record. -/
theorem combineMaterials_ok {object : String} {materials : List String} {token : String}
    (h : (pass.combineMaterials (multiMaterialName object) materials).runOn s = (.ok token, t)) :
    (materials = [] ∧ token = defaultMaterial ∧ t = s) ∨ (materials = [token] ∧ t = s) ∨
      2 ≤ materials.length ∧ (Pass.multiMaterialRecord token materials).name = token ∧
        s.Writes (Pass.multiMaterialRecord token materials) t := by
  match materials with
  | [] =>
    cases h
    exact Or.inl ⟨rfl, rfl, rfl⟩
  | [material] =>
    cases h
    exact Or.inr (Or.inl ⟨rfl, rfl⟩)
  | a :: b :: rest =>
    have hwrite : (pass.claimAndEmit (multiMaterialName object) []
        fun name => Pass.multiMaterialRecord name (a :: b :: rest)).runOn s = (.ok token, t) := h
    obtain ⟨r, rfl, hname, hw⟩ := claimAndEmit_writes (fun _ => rfl) hwrite
    exact Or.inr (Or.inr ⟨by simp, hname, hw⟩)

/-- Whatever the materials come to, nothing is entered. -/
theorem alike_combineMaterials {object : String} {materials : List String} {token : String}
    (h : (pass.combineMaterials (multiMaterialName object) materials).runOn s = (.ok token, t)) :
    s.Alike t ∧ s.ledger.names ⊆ t.ledger.names := by
  rcases combineMaterials_ok h with ⟨-, -, rfl⟩ | ⟨-, rfl⟩ | ⟨-, -, hw⟩
  · exact ⟨.refl t, List.Subset.refl _⟩
  · exact ⟨.refl t, List.Subset.refl _⟩
  · exact ⟨hw.alike, hw.names⟩

end Written

/-! ### What a journey keeps -/

/-- What the ledger has for an object, it has where a bracket opens. -/
theorem Pass.Brackets.object_kept_inner {pass : Pass} {v : Visit} {inner u : PassState}
    {vs : List Visit} {name : String} {progress : Progress (Option String)}
    (hb : pass.Brackets v inner vs u) (hs : v.state.ledger.object? name = some progress) :
    inner.ledger.object? name = some progress := by
  cases hb with
  | left _ hnone | quit _ hnone =>
    refine (Ledger.object?_setObject _ _ _ _).trans ?_
    rw [if_neg, hs]
    rintro rfl
    rw [hs] at hnone
    cases hnone
  | passed | built | dropped | gathered | hidden => exact hs

namespace Pass.Journey

variable {pass : Pass} {c : Option Visit} {s t : PassState} {vs : List Visit}

theorem refl (pass : Pass) (c : Option Visit) (s : PassState) : pass.Journey c s [] s :=
  .quiet (.refl s) (List.Subset.refl _)

/-- What the steps between calls keep, and what holds inside a bracket if it held before it
and behind a bracket if it held before it and in the end of it, holds throughout. -/
theorem invariant (Inv : PassState → Prop)
    (quiet : ∀ s t, s.Alike t → s.ledger.names ⊆ t.ledger.names → Inv s → Inv t)
    (chosen : ∀ s t tree token, (writeMaterialTree pass.compiler tree).runOn s = (.ok token, t) →
      Inv s → Inv t → Inv { t with overrideToken := some token })
    (opens : ∀ v inner vs u, pass.Brackets v inner vs u → Inv v.state → Inv inner)
    (closes : ∀ v inner vs u, pass.Brackets v inner vs u → pass.Journey (some v) inner vs u →
      Inv v.state → Inv u → Inv (v.run pass).2)
    (h : pass.Journey c s vs t) (hs : Inv s) :
    Inv t ∧ ∀ v ∈ vs, Inv v.state ∧ Inv (v.run pass).2 := by
  induction h with
  | quiet halike hnames => exact ⟨quiet _ _ halike hnames hs, by simp⟩
  | chosen _ hrun ih =>
    obtain ⟨ht, hvs⟩ := ih hs
    exact ⟨chosen _ _ _ _ hrun hs ht, hvs⟩
  | append _ _ ih ih' =>
    obtain ⟨ht, hvs⟩ := ih hs
    obtain ⟨hu, hws⟩ := ih' ht
    exact ⟨hu, fun v hv => (List.mem_append.mp hv).elim (hvs v) (hws v)⟩
  | call _ hb hj ih =>
    obtain ⟨hu, hvs⟩ := ih (opens _ _ _ _ hb hs)
    have hend := closes _ _ _ _ hb hj hs hu
    refine ⟨hend, fun w hw => ?_⟩
    rcases List.mem_cons.mp hw with rfl | hw
    · exact ⟨hs, hend⟩
    · exact hvs w hw

/-- A node that is being built is so throughout a journey that begins meanwhile. -/
theorem node_resolving {key name : String} (h : pass.Journey c s vs t)
    (hs : s.ledger.node? key name = some .resolving) :
    t.ledger.node? key name = some .resolving := by
  refine (h.invariant (fun s => s.ledger.node? key name = some .resolving)
    (fun _ _ ha _ hs => (ha.node? key name).trans hs) (fun _ _ _ _ _ _ ht => ht) ?_ ?_ hs).1
  · intro v inner vs u hb hs
    cases hb with
    | built hcall hnone | dropped hcall hnone =>
      exact (Ledger.node?_setNode _ _ _ _ _ _).trans (by rw [hs, ite_self])
    | passed | gathered | hidden | left | quit => exact hs
  · intro v inner vs u hb _ hs hu
    have hother : ∀ {k n : String}, v.state.ledger.node? k n = none → (k, n) ≠ (key, name) := by
      rintro _ _ hnone ⟨⟩
      rw [hs] at hnone
      cases hnone
    cases hb with
    | passed => exact hu
    | built _ hnone hw hrun =>
      rw [hrun]
      exact (Ledger.node?_setNode _ _ _ _ _ _).trans
        (by rw [if_neg (hother hnone), hw.alike.node?, hu])
    | dropped _ hnone hrun =>
      rw [hrun]
      exact (Ledger.node?_abandonNode _ _ _ _ _).trans (by rw [if_neg (hother hnone), hu])
    | gathered _ _ _ _ _ _ _ hcombine hrun =>
      rw [hrun]
      exact ((alike_combineMaterials hcombine).1.node? key name).trans hu
    | hidden _ _ hrun | left _ _ _ _ hrun | quit _ _ _ hrun =>
      rw [hrun]
      exact hu

/-- What the ledger has for an object when a journey begins, it has throughout: an object that
is being compiled is so, and one that is compiled keeps its token. -/
theorem object_kept {name : String} {progress : Progress (Option String)}
    (h : pass.Journey c s vs t) (hs : s.ledger.object? name = some progress) :
    t.ledger.object? name = some progress ∧
      ∀ v ∈ vs, v.state.ledger.object? name = some progress := by
  have hall := h.invariant (fun s => s.ledger.object? name = some progress)
    (fun _ _ ha _ hs => (ha.object? name).trans hs) (fun _ _ _ _ _ _ ht => ht) ?_ ?_ hs
  · exact ⟨hall.1, fun v hv => (hall.2 v hv).1⟩
  · exact fun v inner vs u hb hs => hb.object_kept_inner hs
  · intro v inner vs u hb _ hs hu
    have hother : ∀ {other : String}, v.state.ledger.object? other = none → other ≠ name := by
      rintro _ hnone rfl
      rw [hs] at hnone
      cases hnone
    cases hb with
    | passed => exact hu
    | built _ _ hw hrun => rw [hrun]; exact (hw.alike.object? name).trans hu
    | dropped _ _ hrun => rw [hrun]; exact hu
    | gathered _ _ _ _ _ _ _ hcombine hrun =>
      rw [hrun]
      exact ((alike_combineMaterials hcombine).1.object? name).trans hu
    | hidden _ hnone hrun =>
      rw [hrun]
      exact (Ledger.object?_setObject _ _ _ _).trans (by rw [if_neg (hother hnone), hs])
    | left _ hnone _ _ hrun =>
      rw [hrun]
      exact (Ledger.object?_setObject _ _ _ _).trans (by rw [if_neg (hother hnone), hu])
    | quit _ hnone _ hrun =>
      rw [hrun]
      exact (Ledger.object?_abandonObject _ _ _).trans (by rw [if_neg (hother hnone), hu])

/-- A journey comes back to the scope it began in. -/
theorem scope (h : pass.Journey c s vs t) : t.scope = s.scope := by
  induction h with
  | quiet halike => exact halike.scope
  | chosen _ _ ih => exact ih
  | append _ _ ih ih' => exact ih'.trans ih
  | call _ hb _ ih =>
    cases hb with
    | passed => exact ih
    | built _ _ hw hrun => rw [hrun]; exact hw.alike.scope.trans ih
    | dropped _ _ hrun => rw [hrun]; exact ih
    | gathered _ _ _ _ _ _ _ hcombine hrun =>
      rw [hrun]
      exact (alike_combineMaterials hcombine).1.scope.trans ih
    | hidden _ _ hrun => rw [hrun]; rfl
    | left _ _ _ _ hrun => rw [hrun]; rfl
    | quit _ _ _ hrun => rw [hrun]; rfl

end Pass.Journey

/-! ### What lasts -/

/-- What a state has that comes later, whatever is being compiled in the one or the other:
the nodes that are compiled, and the records. -/
structure PassState.Precedes (s t : PassState) : Prop where
  nodes : ∀ key name value, s.ledger.node? key name = some (.done value) →
    t.ledger.node? key name = some (.done value)
  sent : s.sent <+: t.sent

namespace PassState.Precedes

variable {s t u : PassState}

theorem refl (s : PassState) : s.Precedes s := ⟨fun _ _ _ h => h, List.prefix_refl _⟩

theorem trans (h : s.Precedes t) (k : t.Precedes u) : s.Precedes u :=
  ⟨fun key name value hd => k.nodes key name value (h.nodes key name value hd),
    h.sent.trans k.sent⟩

theorem of_alike (h : s.Alike t) : s.Precedes t :=
  ⟨fun key name _ hd => (h.node? key name).trans hd, h.sent⟩

/-- A node that is not compiled is marked, entered or forgotten. -/
theorem of_setNode (key node : String) (hsent : s.sent <+: t.sent)
    (hset : ∀ k n, (key, node) ≠ (k, n) → t.ledger.node? k n = s.ledger.node? k n)
    (hnot : ∀ value, s.ledger.node? key node ≠ some (.done value)) : s.Precedes t := by
  refine ⟨fun k n _ hd => ?_, hsent⟩
  by_cases heq : (key, node) = (k, n)
  · cases heq
    exact absurd hd (hnot _)
  · exact (hset k n heq).trans hd

theorem mark {key node : String} (h : s.ledger.node? key node = none) :
    s.Precedes (s.mark key node) := by
  refine .of_setNode key node (List.prefix_refl _) (fun k n heq => ?_) fun _ hd => ?_
  · exact (Ledger.node?_setNode _ _ _ _ _ _).trans (if_neg heq)
  · rw [h] at hd
    cases hd

theorem finish {key node : String} (h : s.ledger.node? key node = some .resolving)
    (value : Resolved) : s.Precedes (s.finish key node value) := by
  refine .of_setNode key node (List.prefix_refl _) (fun k n heq => ?_) fun _ hd => ?_
  · exact (Ledger.node?_setNode _ _ _ _ _ _).trans (if_neg heq)
  · rw [h] at hd
    cases hd

theorem abandon {key node : String} (h : s.ledger.node? key node = some .resolving) :
    s.Precedes (s.abandon key node) := by
  refine .of_setNode key node (List.prefix_refl _) (fun k n heq => ?_) fun _ hd => ?_
  · exact (Ledger.node?_abandonNode _ _ _ _ _).trans (if_neg heq)
  · rw [h] at hd
    cases hd

end PassState.Precedes

namespace Pass

variable {pass : Pass} {c : Option Visit} {s t inner u : PassState} {v : Visit} {vs : List Visit}

/-- A visit of a journey is a call with a bracket. -/
theorem Journey.call_of_mem (h : pass.Journey c s vs t) (hv : v ∈ vs) :
    ∃ inner ws u, pass.Brackets v inner ws u ∧ pass.Journey (some v) inner ws u := by
  induction h with
  | quiet => simp at hv
  | chosen _ _ ih => exact ih hv
  | append _ _ ih ih' => exact (List.mem_append.mp hv).elim ih ih'
  | call _ hb hj ih =>
    rcases List.mem_cons.mp hv with rfl | hv
    · exact ⟨_, _, _, hb, hj⟩
    · exact ih hv

theorem mark_resolving (s : PassState) (key node : String) :
    (s.mark key node).ledger.node? key node = some .resolving :=
  (Ledger.node?_setNode _ _ _ _ _ _).trans (if_pos rfl)

theorem Brackets.precedes_inner (hb : pass.Brackets v inner vs u) : v.state.Precedes inner := by
  cases hb with
  | built _ hnone | dropped _ hnone => exact .mark hnone
  | left | quit => exact ⟨fun _ _ _ hd => hd, List.prefix_refl _⟩
  | passed | gathered | hidden => exact .refl _

theorem Brackets.precedes_run (hb : pass.Brackets v inner vs u)
    (hj : pass.Journey (some v) inner vs u) : u.Precedes (v.run pass).2 := by
  cases hb with
  | passed => exact .refl _
  | built _ _ hw hrun =>
    rw [hrun]
    have hmark := (hw.alike.node? _ _).trans (hj.node_resolving (mark_resolving _ _ _))
    exact (PassState.Precedes.of_alike hw.alike).trans (.finish hmark _)
  | dropped _ _ hrun =>
    rw [hrun]
    exact .abandon (hj.node_resolving (mark_resolving _ _ _))
  | gathered _ _ _ _ _ _ _ hcombine hrun =>
    rw [hrun]
    have hlast := PassState.Precedes.of_alike (alike_combineMaterials hcombine).1
    exact ⟨hlast.nodes, hlast.sent⟩
  | hidden _ _ hrun => rw [hrun]; exact ⟨fun _ _ _ hd => hd, List.prefix_refl _⟩
  | left _ _ _ _ hrun => rw [hrun]; exact ⟨fun _ _ _ hd => hd, List.prefix_refl _⟩
  | quit _ _ _ hrun => rw [hrun]; exact ⟨fun _ _ _ hd => hd, List.prefix_refl _⟩

/-- What relates the states of the steps between calls, and the states where brackets open and
close, relates the ends of a journey to the states where its visits begin and end. -/
theorem Journey.relates (Rel : PassState → PassState → Prop) (refl : ∀ s, Rel s s)
    (trans : ∀ s t u, Rel s t → Rel t u → Rel s u)
    (quiet : ∀ s t, s.Alike t → s.ledger.names ⊆ t.ledger.names → Rel s t)
    (chosen : ∀ (s : PassState) (token : String), Rel s { s with overrideToken := some token })
    (opens : ∀ v inner vs u, pass.Brackets v inner vs u → Rel v.state inner)
    (closes : ∀ v inner vs u, pass.Brackets v inner vs u → pass.Journey (some v) inner vs u →
      Rel u (v.run pass).2)
    (h : pass.Journey c s vs t) :
    Rel s t ∧ ∀ v ∈ vs, Rel s v.state ∧ Rel (v.run pass).2 t := by
  induction h with
  | quiet halike hnames => exact ⟨quiet _ _ halike hnames, by simp⟩
  | @chosen s t _ _ token _ _ ih =>
    have hlast := chosen t token
    exact ⟨trans _ _ _ ih.1 hlast, fun v hv => ⟨(ih.2 v hv).1, trans _ _ _ (ih.2 v hv).2 hlast⟩⟩
  | append _ _ ih ih' =>
    refine ⟨trans _ _ _ ih.1 ih'.1, fun v hv => ?_⟩
    rcases List.mem_append.mp hv with hv | hv
    · exact ⟨(ih.2 v hv).1, trans _ _ _ (ih.2 v hv).2 ih'.1⟩
    · exact ⟨trans _ _ _ ih.1 (ih'.2 v hv).1, (ih'.2 v hv).2⟩
  | call _ hb hj ih =>
    have hinner := opens _ _ _ _ hb
    have hend := closes _ _ _ _ hb hj
    refine ⟨trans _ _ _ (trans _ _ _ hinner ih.1) hend, fun w hw => ?_⟩
    rcases List.mem_cons.mp hw with rfl | hw
    · exact ⟨refl _, refl _⟩
    · exact ⟨trans _ _ _ hinner (ih.2 w hw).1, trans _ _ _ (ih.2 w hw).2 hend⟩

/-- The end of a journey has what each of its visits began with and ended with. -/
theorem Journey.precedes (h : pass.Journey c s vs t) :
    s.Precedes t ∧ ∀ v ∈ vs, s.Precedes v.state ∧ (v.run pass).2.Precedes t :=
  h.relates PassState.Precedes .refl (fun _ _ _ => .trans) (fun _ _ ha _ => .of_alike ha)
    (fun _ _ => ⟨fun _ _ _ hd => hd, List.prefix_refl _⟩) (fun _ _ _ _ hb => hb.precedes_inner)
    fun _ _ _ _ hb hj => hb.precedes_run hj

/-- Meshes that were handed out when a visit ended were so in the end of the journey. -/
theorem Journey.meshes (h : pass.Journey c s vs t) :
    s.ledger.meshes ⊆ t.ledger.meshes ∧
      ∀ v ∈ vs, s.ledger.meshes ⊆ v.state.ledger.meshes ∧
        (v.run pass).2.ledger.meshes ⊆ t.ledger.meshes := by
  refine h.relates (fun s t => s.ledger.meshes ⊆ t.ledger.meshes)
    (fun _ => List.Subset.refl _) (fun _ _ _ => List.Subset.trans) (fun _ _ ha _ => ha.meshes)
    (fun _ _ => List.Subset.refl _) (fun v inner vs u hb => ?_) fun v inner vs u hb _ => ?_
  · cases hb <;> exact List.Subset.refl _
  · cases hb with
    | passed => exact List.Subset.refl _
    | built _ _ hw hrun => rw [hrun]; exact hw.alike.meshes
    | gathered _ _ _ _ _ _ _ hcombine hrun =>
      rw [hrun]
      exact (alike_combineMaterials hcombine).1.meshes
    | dropped _ _ hrun | hidden _ _ hrun | left _ _ _ _ hrun | quit _ _ _ hrun =>
      rw [hrun]
      exact List.Subset.refl _

end Pass

end ShadeNet
