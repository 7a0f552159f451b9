/-
# Where the entries of a ledger come from

In a journey that begins with an empty ledger every entry was made by one of the visits:
what the ledger has for a node, for an object or for the material of an object is what
that visit came to. And since every record has a name of its own, no two nodes have one
value.

Key definitions: `PassState.Placed`, `Memo`, `PassState.Holds`, `Pass.Enters`,
`Pass.Explained`, `PassState.Tokened`.
Key theorems: `Journey.placed`, `Journey.stored`, `Journey.explained`, `Journey.tokened`,
`holds_run`.
-/
import ShadeNet.Proofs.Itinerary

namespace ShadeNet

open Compile

variable {pass : Pass} {c : Option Visit} {s t u inner : PassState} {v : Visit}
  {vs ws : List Visit}

/-! ### Scopes -/

/-- The object in scope is one of the scene, and it is being compiled. -/
def PassState.Placed (scene : Scene) (s : PassState) : Prop :=
  ∀ scope, s.scope = some scope → s.ledger.object? scope.name = some .resolving ∧
    ∃ object, scene.object? scope.name = some object ∧ scope = object.scope scope.name

theorem Pass.Brackets.placed_inner (hb : pass.Brackets v inner vs u)
    (hv : v.state.Placed pass.scene) : inner.Placed pass.scene := by
  cases hb with
  | passed | built | dropped | gathered | hidden => exact hv
  | left _ _ ho | quit _ _ ho =>
    intro scope hscope
    cases hscope
    exact ⟨(Ledger.object?_setObject _ _ _ _).trans (if_pos rfl), _, ho, rfl⟩

namespace Pass.Journey

theorem placed_end (h : pass.Journey c s vs t) (hs : s.Placed pass.scene) :
    t.Placed pass.scene := by
  intro scope hscope
  rw [h.scope] at hscope
  obtain ⟨hresolving, hobject⟩ := hs scope hscope
  exact ⟨(h.object_kept hresolving).1, hobject⟩

/-- Every call is made outside objects or in the scope of one that is being compiled. -/
theorem placed (h : pass.Journey c s vs t) (hs : s.Placed pass.scene) :
    ∀ v ∈ vs, v.state.Placed pass.scene := by
  induction h with
  | quiet => simp
  | chosen _ _ ih => exact ih hs
  | append hj _ ih ih' =>
    intro v hv
    rcases List.mem_append.mp hv with hv | hv
    · exact ih hs v hv
    · exact ih' (hj.placed_end hs) v hv
  | call _ hb _ ih =>
    intro w hw
    rcases List.mem_cons.mp hw with rfl | hw
    · exact hs
    · exact ih (hb.placed_inner hs) w hw

end Pass.Journey

/-! ### Trees -/

/-- The tree that is called, if one is, is a tree of the scene. -/
def Call.Stored (scene : Scene) : Call → Prop
  | .node tree _ _ | .material tree => ∃ key, scene.tree? key = some tree
  | .ownMaterial | .object _ => True

theorem Scene.exists_of_materialTree? {scene : Scene} {material : String} {tree : NodeTree}
    (h : scene.materialTree? material = some tree) : ∃ key, scene.tree? key = some tree := by
  obtain ⟨key, -, hkey⟩ := Option.bind_eq_some_iff.mp h
  exact ⟨key, hkey⟩

theorem Scene.exists_of_slotTrees {scene : Scene} {object : SceneObject} {tree : NodeTree}
    (h : tree ∈ scene.slotTrees object) : ∃ key, scene.tree? key = some tree := by
  obtain ⟨slot, -, hslot⟩ := List.mem_filterMap.mp h
  obtain ⟨material, -, hm⟩ := Option.bind_eq_some_iff.mp hslot
  exact exists_of_materialTree? hm

/-- What is called for a call of a tree of the scene is of one, too. -/
theorem Pass.Calls.stored (h : pass.Calls c v) (hc : ∀ w ∈ c, w.call.Stored pass.scene) :
    v.call.Stored pass.scene := by
  cases h with
  | sceneMaterial ht hv => rw [hv]; exact Scene.exists_of_materialTree? ht
  | slot _ _ _ ht hv => rw [hv]; exact Scene.exists_of_slotTrees ht
  | source hcall _ hv =>
    have h := hc _ rfl
    rw [hcall] at h
    rw [hv]
    exact h
  | materialEnd hcall _ _ hv =>
    have h := hc _ rfl
    rw [hcall] at h
    rw [hv]
    exact h
  | objectEnd _ _ _ _ ht _ _ hv => rw [hv]; exact ⟨_, ht⟩
  | sceneObject hv | ownMaterial _ _ hv | selected _ hv _ | plain _ _ _ hv => rw [hv]; trivial

theorem Pass.Journey.stored (h : pass.Journey c s vs t) (hc : ∀ w ∈ c, w.call.Stored pass.scene) :
    ∀ v ∈ vs, v.call.Stored pass.scene := by
  induction h with
  | quiet => simp
  | chosen _ _ ih => exact ih hc
  | append _ _ ih ih' =>
    intro v hv
    exact (List.mem_append.mp hv).elim (ih hc v) (ih' hc v)
  | call hcalls _ _ ih =>
    have hv := hcalls.stored hc
    intro w hw
    rcases List.mem_cons.mp hw with rfl | hw
    · exact hv
    · exact ih (by rintro _ ⟨⟩; exact hv) w hw

/-! ### Entries -/

/-- What a ledger can say. -/
inductive Memo
  /-- A node, by the key of its tree and its name, has a value. -/
  | node (key name : String) (value : Resolved)
  /-- An object has a token or has none. -/
  | object (name : String) (token : Option String)
  /-- The materials of an object come to a token. -/
  | material (key token : String)

/-- What the ledger of a state says. -/
def PassState.Holds (s : PassState) : Memo → Prop
  | .node key name value => s.ledger.node? key name = some (.done value)
  | .object name token => s.ledger.object? name = some (.done token)
  | .material key token => s.ledger.synthesized? key = some token

theorem PassState.Alike.holds (h : s.Alike t) (m : Memo) : t.Holds m ↔ s.Holds m := by
  cases m <;> simp only [PassState.Holds, h.node?, h.object?, h.synthesized?]

/-! Entries are not changed but where they are set. -/

namespace Ledger

variable {l : Ledger} {key node k n : String} {value : Resolved}

theorem done_setNode {progress : Progress Resolved}
    (h : (l.setNode key node progress).node? k n = some (.done value)) :
    (key = k ∧ node = n ∧ progress = .done value) ∨ l.node? k n = some (.done value) := by
  rw [node?_setNode] at h
  split at h
  · rename_i heq
    cases heq
    exact Or.inl ⟨rfl, rfl, Option.some.inj h⟩
  · exact Or.inr h

theorem done_abandonNode (h : (l.abandonNode key node).node? k n = some (.done value)) :
    l.node? k n = some (.done value) := by
  rw [node?_abandonNode] at h
  split at h
  · cases h
  · exact h

theorem done_setObject {object name : String} {progress : Progress (Option String)}
    {token : Option String} (h : (l.setObject object progress).object? name = some (.done token)) :
    (object = name ∧ progress = .done token) ∨ l.object? name = some (.done token) := by
  rw [object?_setObject] at h
  split at h
  · exact Or.inl ⟨‹_›, Option.some.inj h⟩
  · exact Or.inr h

theorem done_abandonObject {object name : String} {token : Option String}
    (h : (l.abandonObject object).object? name = some (.done token)) :
    l.object? name = some (.done token) := by
  rw [object?_abandonObject] at h
  split at h
  · cases h
  · exact h

theorem some_setSynthesized {token other : String}
    (h : (l.setSynthesized key token).synthesized? k = some other) :
    (key = k ∧ token = other) ∨ l.synthesized? k = some other := by
  rw [synthesized?_setSynthesized] at h
  split at h
  · exact Or.inl ⟨‹_›, Option.some.inj h⟩
  · exact Or.inr h

end Ledger

namespace PassState.Holds

variable {m : Memo} {key node name token : String} {value : Resolved} {result : Option String}
  {object : SceneObject} {scope : Option ObjectScope}

theorem of_mark (h : (s.mark key node).Holds m) : s.Holds m := by
  cases m with
  | node => exact (Ledger.done_setNode h).resolve_left nofun
  | object | material => exact h

theorem of_finish (h : (s.finish key node value).Holds m) :
    m = .node key node value ∨ s.Holds m := by
  cases m with
  | node =>
    rcases Ledger.done_setNode h with ⟨rfl, rfl, hvalue⟩ | hold
    · cases hvalue
      exact Or.inl rfl
    · exact Or.inr hold
  | object | material => exact Or.inr h

theorem of_abandon (h : (s.abandon key node).Holds m) : s.Holds m := by
  cases m with
  | node => exact Ledger.done_abandonNode h
  | object | material => exact h

theorem of_enter (h : (s.enter name object).Holds m) : s.Holds m := by
  cases m with
  | object => exact (Ledger.done_setObject h).resolve_left nofun
  | node | material => exact h

theorem of_leave (h : (s.leave scope name result).Holds m) :
    m = .object name result ∨ s.Holds m := by
  cases m with
  | object =>
    rcases Ledger.done_setObject h with ⟨rfl, hresult⟩ | hold
    · cases hresult
      exact Or.inl rfl
    · exact Or.inr hold
  | node | material => exact Or.inr h

theorem of_hide (h : (s.hide name).Holds m) : m = .object name none ∨ s.Holds m := by
  have hleave : (s.leave s.scope name none).Holds m := h
  exact hleave.of_leave

theorem of_quit (h : (s.quit scope name).Holds m) : s.Holds m := by
  cases m with
  | object => exact Ledger.done_abandonObject h
  | node | material => exact h

theorem of_synthesize (h : (s.synthesize key token).Holds m) :
    m = .material key token ∨ s.Holds m := by
  cases m with
  | material =>
    rcases Ledger.some_setSynthesized h with ⟨rfl, rfl⟩ | hold
    · exact Or.inl rfl
    · exact Or.inr hold
  | node | object => exact Or.inr h

end PassState.Holds

/-- A visit makes an entry. -/
inductive Pass.Enters (pass : Pass) (visits : List Visit) (v : Visit) : Memo → Prop
  /-- It compiles a node that is not in the ledger, and writes a record. -/
  | node {tree node useLiterals r} : v.call = .node tree node useLiterals →
    v.state.ledger.node? (v.state.treeKey tree.name) node.name = none →
    (v.run pass).1 = .ok (some (.reference r.name)) → (v.run pass).2.sent.getLast? = some r →
    Enters pass visits v (.node (v.state.treeKey tree.name) node.name (.reference r.name))
  /-- It passes over an object. -/
  | hidden {name} : v.call = .object name → Enters pass visits v (.object name none)
  /-- It compiles an object that is not in the ledger. -/
  | object {name object token u} : v.call = .object name →
    v.state.ledger.object? name = none → pass.scene.object? name = some object →
    (pass.buildObject (pass.walk v.depth) name object).runOn (v.state.enter name object) =
      (.ok token, u) → u.Precedes (v.run pass).2 → Enters pass visits v (.object name token)
  /-- It gathers the materials of the object in scope. -/
  | material {scope object materials token u w} : v.call = .ownMaterial →
    v.state.scope = some scope → pass.scene.object? scope.name = some object →
    pass.SlotsGive visits scope object materials →
    (pass.combineMaterials (multiMaterialName scope.name) materials).runOn u = (.ok token, w) →
    w.Precedes (v.run pass).2 →
    Enters pass visits v (.material (multiMaterialName scope.name) token)

/-- A visit that entered the value of a node is one of a node of that name, under that key. -/
theorem Pass.Enters.of_node {key name : String} {value : Resolved}
    (h : pass.Enters vs v (.node key name value)) :
    ∃ tree node useLiterals r, v.call = .node tree node useLiterals ∧
      v.state.treeKey tree.name = key ∧ node.name = name ∧ value = .reference r.name ∧
      (v.run pass).1 = .ok (some value) ∧ (v.run pass).2.sent.getLast? = some r := by
  cases h with
  | node hcall _ hrun hlast => exact ⟨_, _, _, _, hcall, rfl, rfl, rfl, hrun, hlast⟩

/-- A visit that entered a token of an object compiled that object. -/
theorem Pass.Enters.of_object {name token : String}
    (h : pass.Enters vs v (.object name (some token))) :
    ∃ object u, v.state.ledger.object? name = none ∧ pass.scene.object? name = some object ∧
      (pass.buildObject (pass.walk v.depth) name object).runOn (v.state.enter name object) =
        (.ok (some token), u) ∧ u.Precedes (v.run pass).2 := by
  cases h with
  | object _ hnone ho hbuild hp => exact ⟨_, _, hnone, ho, hbuild, hp⟩

/-- A visit that entered a token for a multi-material name gathered the materials of an
object that asks for the name. -/
theorem Pass.Enters.of_material {key token : String}
    (h : pass.Enters vs v (.material key token)) :
    ∃ scope object materials u w, v.state.scope = some scope ∧
      pass.scene.object? scope.name = some object ∧ multiMaterialName scope.name = key ∧
      pass.SlotsGive vs scope object materials ∧
      (pass.combineMaterials (multiMaterialName scope.name) materials).runOn u = (.ok token, w) ∧
      w.Precedes (v.run pass).2 := by
  cases h with
  | material _ hs ho hg hcombine hp => exact ⟨_, _, _, _, _, hs, ho, rfl, hg, hcombine, hp⟩

theorem Pass.SlotsGive.mono {scope : ObjectScope} {object : SceneObject} {tokens : List String}
    (h : pass.SlotsGive vs scope object tokens) (hsub : vs ⊆ ws) :
    pass.SlotsGive ws scope object tokens :=
  List.Forall₂.imp (fun _ _ hg => hg.mono hsub) h

theorem Pass.Enters.mono {m : Memo} (h : pass.Enters vs v m) (hsub : vs ⊆ ws) :
    pass.Enters ws v m := by
  cases h with
  | node hcall hnone hrun hlast => exact .node hcall hnone hrun hlast
  | hidden hcall => exact .hidden hcall
  | object hcall hnone ho hbuild hp => exact .object hcall hnone ho hbuild hp
  | material hcall hs ho hg hcombine hp => exact .material hcall hs ho (hg.mono hsub) hcombine hp

/-- What the ledger of a later state says was said before, or was entered by a visit. -/
def Pass.Explained (pass : Pass) (s : PassState) (visits : List Visit) (x : PassState) : Prop :=
  ∀ m, x.Holds m → s.Holds m ∨ ∃ v ∈ visits, pass.Enters visits v m ∧ (v.run pass).2.Precedes x

namespace Pass.Explained

variable {x : PassState}

theorem mono (h : pass.Explained s vs x) (hs : ∀ m, s.Holds m → t.Holds m) (hsub : vs ⊆ ws) :
    pass.Explained t ws x := by
  intro m hm
  rcases h m hm with hold | ⟨v, hv, henters, hp⟩
  · exact Or.inl (hs m hold)
  · exact Or.inr ⟨v, hsub hv, henters.mono hsub, hp⟩

theorem trans (h : pass.Explained s vs t) (k : pass.Explained t ws x) (hp : t.Precedes x) :
    pass.Explained s (vs ++ ws) x := by
  intro m hm
  rcases k m hm with hmid | ⟨v, hv, henters, hvp⟩
  · rcases h m hmid with hold | ⟨v, hv, henters, hvp⟩
    · exact Or.inl hold
    · exact Or.inr ⟨v, List.mem_append_left _ hv, henters.mono (List.subset_append_left _ _),
        hvp.trans hp⟩
  · exact Or.inr ⟨v, List.mem_append_right _ hv, henters.mono (List.subset_append_right _ _), hvp⟩

end Pass.Explained

/-- Nothing is entered where a bracket opens. -/
theorem Pass.Brackets.holds_inner (hb : pass.Brackets v inner vs u) (m : Memo)
    (h : inner.Holds m) : v.state.Holds m := by
  cases hb with
  | passed | gathered | hidden => exact h
  | built | dropped => exact h.of_mark
  | left | quit => exact h.of_enter

/-- Where a bracket closes, what is entered is what came of the call. -/
theorem Pass.Brackets.holds_run (hb : pass.Brackets v inner vs u) {m : Memo}
    (h : (v.run pass).2.Holds m) : u.Holds m ∨ pass.Enters vs v m := by
  cases hb with
  | passed => exact Or.inl h
  | @built tree node useLiterals _ _ w r hcall hnone hw hrun =>
    rw [hrun] at h
    rcases h.of_finish with rfl | hold
    · have hlast : (v.run pass).2.sent.getLast? = some r := by
        rw [hrun]
        show w.sent.getLast? = some r
        rw [hw.sent, List.getLast?_concat]
      exact Or.inr (.node hcall hnone (by rw [hrun]) hlast)
    · exact Or.inl ((hw.alike.holds m).mp hold)
  | dropped _ _ hrun =>
    rw [hrun] at h
    exact Or.inl h.of_abandon
  | gathered hcall hscope ho _ _ _ hgive hcombine hrun =>
    rw [hrun] at h
    rcases h.of_synthesize with rfl | hold
    · refine Or.inr (.material hcall hscope ho hgive hcombine ?_)
      rw [hrun]
      exact ⟨fun _ _ _ hd => hd, List.prefix_refl _⟩
    · exact Or.inl (((alike_combineMaterials hcombine).1.holds m).mp hold)
  | hidden hcall _ hrun =>
    rw [hrun] at h
    rcases h.of_hide with rfl | hold
    · exact Or.inr (.hidden hcall)
    · exact Or.inl hold
  | left hcall hnone ho hbuild hrun =>
    rw [hrun] at h
    rcases h.of_leave with rfl | hold
    · refine Or.inr (.object hcall hnone ho hbuild ?_)
      rw [hrun]
      exact ⟨fun _ _ _ hd => hd, List.prefix_refl _⟩
    · exact Or.inl hold
  | quit _ _ _ hrun =>
    rw [hrun] at h
    exact Or.inl h.of_quit

/-- Whatever the ledger says in the end of a journey, or where one of its visits begins,
was said before the journey or was entered by one of its visits. -/
theorem Pass.Journey.explained (h : pass.Journey c s vs t) :
    pass.Explained s vs t ∧ ∀ v ∈ vs, pass.Explained s vs v.state := by
  induction h with
  | quiet halike => exact ⟨fun m hm => Or.inl ((halike.holds m).mp hm), by simp⟩
  | chosen _ _ ih =>
    refine ⟨fun m hm => ?_, ih.2⟩
    rcases ih.1 m (by cases m <;> exact hm) with hold | ⟨v, hv, henters, hp⟩
    · exact Or.inl hold
    · exact Or.inr ⟨v, hv, henters, hp.nodes, hp.sent⟩
  | append hj hj' ih ih' =>
    refine ⟨ih.1.trans ih'.1 hj'.precedes.1, fun v hv => ?_⟩
    rcases List.mem_append.mp hv with hv | hv
    · exact (ih.2 v hv).mono (fun _ hm => hm) (List.subset_append_left _ _)
    · exact ih.1.trans (ih'.2 v hv) (hj'.precedes.2 v hv).1
  | @call c v inner vs u hcalls hb hj ih =>
    have hsub : vs ⊆ v :: vs := List.subset_cons_self v vs
    refine ⟨fun m hm => ?_, fun w hw => ?_⟩
    · rcases hb.holds_run hm with hu | henters
      · rcases ih.1 m hu with hinner | ⟨w, hw, henters, hp⟩
        · exact Or.inl (hb.holds_inner m hinner)
        · exact Or.inr ⟨w, hsub hw, henters.mono hsub, hp.trans (hb.precedes_run hj)⟩
      · exact Or.inr ⟨v, List.mem_cons_self, henters.mono hsub, .refl _⟩
    · rcases List.mem_cons.mp hw with rfl | hw
      · exact fun m hm => Or.inl hm
      · exact (ih.2 w hw).mono hb.holds_inner hsub

/-! ### Tokens of nodes -/

/-- The value of a compiled node is the name of a record, and no other node has it. -/
structure PassState.Tokened (s : PassState) : Prop where
  token : ∀ key node value, s.ledger.node? key node = some (.done value) →
    ∃ token, value = .reference token ∧ token ∈ s.ledger.names
  unique : ∀ key node key' node' value, s.ledger.node? key node = some (.done value) →
    s.ledger.node? key' node' = some (.done value) → key = key' ∧ node = node'

theorem PassState.Tokened.of_nodes (h : s.Tokened) (hnames : s.ledger.names ⊆ t.ledger.names)
    (hnodes : ∀ key node value, t.ledger.node? key node = some (.done value) →
      s.ledger.node? key node = some (.done value)) : t.Tokened where
  token key node value hd := by
    obtain ⟨token, hvalue, htoken⟩ := h.token key node value (hnodes key node value hd)
    exact ⟨token, hvalue, hnames htoken⟩
  unique key node key' node' value hd hd' :=
    h.unique key node key' node' value (hnodes _ _ _ hd) (hnodes _ _ _ hd')

/-- A node that is entered with a name that was free has it alone. -/
theorem PassState.Tokened.finish {r : Record} (h : s.Tokened) (hw : s.Writes r t)
    (key node : String) : (t.finish key node (.reference r.name)).Tokened := by
  have ht : t.Tokened := h.of_nodes hw.names fun k n value hd =>
    (hw.alike.holds (.node k n value)).mp hd
  have hentry : ∀ k n value,
      (t.finish key node (.reference r.name)).ledger.node? k n = some (.done value) →
      (key = k ∧ node = n ∧ value = .reference r.name) ∨
        s.ledger.node? k n = some (.done value) := by
    intro k n value hd
    rcases PassState.Holds.of_finish (m := .node k n value) hd with heq | hold
    · cases heq
      exact Or.inl ⟨rfl, rfl, rfl⟩
    · exact Or.inr ((hw.alike.holds (.node k n value)).mp hold)
  -- a node that was there before has a name that was taken
  have hfresh : ∀ k n, s.ledger.node? k n ≠ some (.done (.reference r.name)) := by
    intro k n hd
    obtain ⟨token, hvalue, htoken⟩ := h.token k n _ hd
    cases hvalue
    exact hw.fresh htoken
  refine ⟨fun k n value hd => ?_, fun k n k' n' value hd hd' => ?_⟩
  · rcases hentry k n value hd with ⟨-, -, rfl⟩ | hold
    · exact ⟨r.name, rfl, hw.taken⟩
    · obtain ⟨token, hvalue, htoken⟩ := h.token k n value hold
      exact ⟨token, hvalue, hw.names htoken⟩
  · rcases hentry k n value hd with ⟨rfl, rfl, rfl⟩ | hold <;>
      rcases hentry k' n' _ hd' with ⟨rfl, rfl, hvalue⟩ | hold'
    · exact ⟨rfl, rfl⟩
    · exact absurd hold' (hfresh k' n')
    · exact absurd (hvalue ▸ hold) (hfresh k n)
    · exact h.unique k n k' n' value hold hold'

theorem Pass.Journey.tokened (h : pass.Journey c s vs t) (hs : s.Tokened) : t.Tokened := by
  refine (h.invariant PassState.Tokened (fun s t halike hnames hs => ?_)
    (fun _ _ _ _ _ _ ht => ⟨ht.token, ht.unique⟩) (fun v inner vs u hb hv => ?_)
    (fun v inner vs u hb _ _ hu => ?_) hs).1
  · exact hs.of_nodes hnames fun k n value hd => (halike.holds (.node k n value)).mp hd
  · have hnames : v.state.ledger.names ⊆ inner.ledger.names := by
      cases hb <;> exact List.Subset.refl _
    exact hv.of_nodes hnames fun k n value hd => hb.holds_inner (.node k n value) hd
  · cases hb with
    | built _ _ hw hrun => rw [hrun]; exact hu.finish hw _ _
    | @gathered _ _ _ _ w _ _ _ _ _ _ _ _ _ hcombine hrun =>
      obtain ⟨halike, hnames⟩ := alike_combineMaterials hcombine
      rw [hrun]
      exact hu.of_nodes hnames fun k n value hd => (halike.holds (.node k n value)).mp hd
    | passed => exact hu
    | dropped _ _ hrun =>
      rw [hrun]
      exact hu.of_nodes (List.Subset.refl _) fun _ _ _ hd => Ledger.done_abandonNode hd
    | hidden _ _ hrun | left _ _ _ _ hrun | quit _ _ _ hrun =>
      rw [hrun]
      exact hu.of_nodes (List.Subset.refl _) fun _ _ _ hd => hd

/-! ### Passes -/

section Passes

variable (pass)

theorem not_holds_headed (s : PassState) (m : Memo) : ¬ (pass.headed s).Holds m := by
  cases m <;> exact nofun

theorem placed_headed (s : PassState) : (pass.headed s).Placed pass.scene := fun _ => nofun

theorem tokened_headed (s : PassState) : (pass.headed s).Tokened := ⟨nofun, nofun⟩

/-- Whatever the ledger says in the end of a pass was entered by one of its visits. -/
theorem holds_run {s : PassState} {m : Memo} (h : (pass.run.runOn s).2.Holds m) :
    ∃ v ∈ pass.visits s, pass.Enters (pass.visits s) v m ∧
      (v.run pass).2.Precedes (pass.run.runOn s).2 :=
  ((journey_pass pass s).explained.1 m h).resolve_left (not_holds_headed pass s m)

/-- Whatever the ledger says where a visit begins was entered by an earlier one. -/
theorem holds_visit {s : PassState} {v : Visit} (hv : v ∈ pass.visits s) {m : Memo}
    (h : v.state.Holds m) :
    ∃ w ∈ pass.visits s, pass.Enters (pass.visits s) w m ∧ (w.run pass).2.Precedes v.state :=
  ((journey_pass pass s).explained.2 v hv m h).resolve_left (not_holds_headed pass s m)

theorem placed_visit {s : PassState} {v : Visit} (hv : v ∈ pass.visits s) :
    v.state.Placed pass.scene := (journey_pass pass s).placed (placed_headed pass s) v hv

theorem stored_visit {s : PassState} {v : Visit} (hv : v ∈ pass.visits s) :
    v.call.Stored pass.scene := (journey_pass pass s).stored (by simp) v hv

end Passes

end ShadeNet
