/-
# Every call settles its accounts

What is sent while a call is under way is what the call itself accounts for and what the calls
that it makes account for, and the meshes that are handed out: at every depth, from every state,
and however the call ends. A failure that is no cycle may break off a mesh or leave one record
refused. So a builder writes the weights of its layers on the way, and when all of its calls have
returned its record, or nothing.

Key definitions: `Pass.Accounted`, `Pass.Raises`.
Key theorems: `accounts_brdfLayer`, `accounts_object`, `accounted`, `settles`, `raises_node`,
`survives_visit`.
-/
import ShadeNet.Proofs.Account
import ShadeNet.Proofs.Conduct

namespace ShadeNet

open Compile

variable {α β : Type}

/-! ### The walk -/

section Walk

variable {pass : Pass} {depth : Nat} {tree : NodeTree} {node : Node}

variable (pass) in
/-- Nodes are accounted for by their visits. -/
def Pass.Accounted (depth : Nat) : Prop := ∀ tree node useLiterals,
  pass.Accounts (pass.nodeTrace depth tree node useLiterals) .none
    (pass.walk depth tree node useLiterals)

variable (hd : pass.Accounted depth)

include hd

theorem accounts_resolveSocket (socket : Socket) (useLiterals : Bool) :
    pass.Accounts (socketTrace (pass.nodeTrace depth) tree node socket useLiterals) .none
      (resolveSocket (pass.walk depth) tree node socket useLiterals) := by
  unfold socketTrace resolveSocket NodeTree.source?
  cases tree.linkTo? ⟨node.name, socket.name⟩ with
  | none => exact accounts_pure _
  | some link =>
    simp only [Option.bind_some]
    cases tree.node? link.source.node with
    | none => exact accounts_report_pure _ _
    | some source => exact (hd tree source useLiterals).before fun _ => accounts_pure _

theorem accounts_resolveInput (name : String) (useLiterals : Bool) :
    pass.Accounts (inputTrace (pass.nodeTrace depth) tree node name useLiterals) .none
      (resolveInput (pass.walk depth) tree node name useLiterals) := by
  unfold inputTrace resolveInput
  cases node.input? name with
  | none => exact accounts_report_pure _ _
  | some socket => exact accounts_resolveSocket hd socket useLiterals

theorem accounts_supply (useLiterals : Bool) (socket : Socket) :
    pass.Accounts (supplyTrace (pass.nodeTrace depth) tree node useLiterals socket) .none
      (supply (pass.walk depth) tree node useLiterals socket) := by
  unfold supplyTrace supply
  cases socket.attr with
  | none => exact accounts_pure _
  | some attr =>
    exact (accounts_resolveSocket hd socket useLiterals).before fun _ => accounts_pure _

theorem accounts_textureLayer (socket : Socket) :
    pass.Accounts (textureLayerTrace (pass.nodeTrace depth) tree node socket) .none
      (textureLayer (pass.walk depth) tree node socket) := by
  unfold textureLayerTrace textureLayer
  split
  · refine (accounts_resolveSocket hd socket true).before fun value => ?_
    split
    · exact accounts_pure _
    · exact accounts_report_pure _ _
  · exact accounts_pure _

theorem accounts_linkedWeight (socket : String) :
    pass.Accounts (weightTrace (pass.nodeTrace depth) tree node socket) .none
      (Pass.linkedWeight (pass.walk depth) tree node socket) := by
  unfold weightTrace Pass.linkedWeight
  cases tree.linkedSource? ⟨node.name, socket⟩ with
  | none => exact accounts_pure _
  | some found => exact (hd tree found.1 false).before fun _ => accounts_pure _

/-- A layer of a shading model writes its weight, and nothing else. -/
theorem accounts_brdfLayer (layer : Nat) :
    pass.Accounts (pass.brdfLayerTrace depth (pass.nodeTrace depth) tree node layer)
      (pass.writtenWeight (pass.walk depth) tree node layer)
      (pass.brdfLayer (pass.walk depth) tree node layer) := by
  unfold Pass.brdfLayerTrace Pass.writtenWeight Pass.brdfLayer
  simp only
  cases node.input? ("BRDF " ++ toString layer) with
  | none => exact accounts_pure _
  | some socket =>
    simp only
    split
    · refine (accounts_resolveSocket hd socket true).bind fun value => ?_
      cases value.bind (·.token?) with
      | none => exact accounts_report_pure _ _
      | some brdf =>
        refine (accounts_linkedWeight hd _).followed fun weight => ?_
        cases weight with
        | some weight => exact accounts_pure _
        | none => exact (accounts_writeWeight _ _ _ _).before fun _ => accounts_pure _
    · exact accounts_pure _

/-! ### Builds -/

theorem builds_writePluginNode (plugin : String) (useLiterals : Bool) :
    pass.Builds (pass.pluginTrace depth (pass.nodeTrace depth) tree node plugin useLiterals) .none
      (pass.writePluginNode (pass.walk depth) tree node plugin useLiterals) := by
  unfold Pass.pluginTrace Pass.writePluginNode
  cases pass.catalog.get? plugin with
  | none => exact (accounts_pure ()).builds fun _ => closes_report _
  | some desc =>
    refine (Pass.Accounts.collect_plain fun socket _ =>
      accounts_supply hd useLiterals socket).builds fun supplied => ?_
    simp only [← bind_assoc, Contract.claimAndEmit_plugin]
    exact closes_claimAndEmit fun _ => rfl

theorem builds_writeLayeredTexture :
    pass.Builds (.collect (textureLayer (pass.walk depth) tree node)
        (textureLayerTrace (pass.nodeTrace depth) tree node) node.inputs) .none
      (pass.writeLayeredTexture (pass.walk depth) tree node) := by
  unfold Pass.writeLayeredTexture
  refine (Pass.Accounts.collect_plain fun socket _ =>
    accounts_textureLayer hd socket).builds fun layers => ?_
  split
  · exact closes_report _
  · simp only [← bind_assoc, Contract.claimAndEmit_plain]
    exact closes_claimAndEmit fun _ => rfl

/-- The build of a layered shading model writes the weights of its layers on the way. -/
theorem builds_writeLayeredBrdf (additive : Bool) :
    pass.Builds (.collect (pass.brdfLayer (pass.walk depth) tree node)
        (pass.brdfLayerTrace depth (pass.nodeTrace depth) tree node)
        (List.range' 1 (node.inputs.length / 2)))
      (.collect (pass.brdfLayer (pass.walk depth) tree node)
        (pass.writtenWeight (pass.walk depth) tree node)
        (List.range' 1 (node.inputs.length / 2)))
      (pass.writeLayeredBrdf (pass.walk depth) tree node additive) := by
  unfold Pass.writeLayeredBrdf
  refine (Pass.Accounts.collect fun layer _ =>
    accounts_brdfLayer hd layer).builds fun layers => ?_
  split
  · exact closes_report _
  · simp only [← bind_assoc, Contract.claimAndEmit_plain]
    exact closes_claimAndEmit fun _ => rfl

/-- A node with a record of its own is built once, and has its weights written on the way. -/
theorem builds_node (hkind : node.kind.isBuilt = true) (useLiterals : Bool) :
    ∃ build trace, pass.walk (depth + 1) tree node useLiterals = once tree node build ∧
      pass.kindTrace depth (pass.nodeTrace depth) tree node useLiterals =
        onceTrace tree node trace ∧
      pass.Builds trace (pass.nodeWeights (pass.walk depth) tree node) build := by
  have hwalk : pass.walk (depth + 1) tree node useLiterals =
      pass.compileNode (pass.walk depth) tree node useLiterals := rfl
  unfold Pass.compileNode at hwalk
  unfold Pass.kindTrace Pass.nodeWeights
  cases hk : node.kind with
  | plugin category plugin =>
    rw [hk] at hwalk
    exact ⟨_, _, hwalk, rfl, builds_writePluginNode hd plugin useLiterals⟩
  | layeredTexture =>
    rw [hk] at hwalk
    exact ⟨_, _, hwalk, rfl, builds_writeLayeredTexture hd⟩
  | layeredBrdf additive =>
    rw [hk] at hwalk
    exact ⟨_, _, hwalk, rfl, builds_writeLayeredBrdf hd additive⟩
  | unset | selectObject | selectGroup | objectGeometry | objectMaterial | materialOutput
  | objectOutput =>
    rw [hk] at hkind
    cases hkind

omit hd in
/-- Behind the build of a node its value is entered, or the node is forgotten. -/
theorem balances_onceEnd {key name : String} {o : Except Failure (Option Resolved) × PassState}
    {s : PassState} {records : List Record} (h : pass.Balances (Survives o.1) s records o.2) :
    pass.Balances (Survives (onceEnd key name o).1) s records (onceEnd key name o).2 := by
  rcases o with ⟨e | _ | value, t⟩ <;> exact h.before rfl rfl rfl rfl

omit hd in
/-- A node that is built once accounts for what its build writes. -/
theorem accounts_once {build : Compile (Option Resolved)} {trace : Trace} {x : Writing}
    (h : pass.Accounts trace x build) :
    pass.Accounts (onceTrace tree node trace) (.once tree node x) (once tree node build) := by
  intro s
  rw [once_runOn]
  unfold onceTrace Writing.once
  cases hnode : s.ledger.node? (s.treeKey tree.name) node.name with
  | some progress =>
    cases progress <;> exact .refl s
  | none =>
    have hopen : pass.Balances True s [] (s.mark (s.treeKey tree.name) node.name) :=
      .of_same rfl rfl rfl rfl
    exact balances_onceEnd ((h (s.mark (s.treeKey tree.name) node.name)).behind hopen)

/-! ### Materials -/

theorem accounts_writeMaterialTree :
    pass.Accounts (materialTrace (pass.nodeTrace depth) tree) .none
      (writeMaterialTree (pass.walk depth) tree) := by
  unfold materialTrace writeMaterialTree
  cases tree.materialOutput? with
  | none => exact accounts_report_pure _ _
  | some output =>
    intro s
    rw [runOn_bind_ok (runOn_get s)]
    simp only
    cases (if output.kind = .materialOutput true then none else s.overrideToken) with
    | some token => exact .refl s
    | none =>
      simp only
      split
      · refine (accounts_resolveInput hd "Material" true).attempt (accounts_materialToken tree)
          (fun f hf => ?_) s
        cases f with
        | cycle => cases hf
        | io | depthExceeded => rfl
      · exact .of_same rfl rfl rfl rfl

/-- The tree of a material writes nothing but by the calls that it makes. -/
theorem accounts_material :
    pass.Accounts (.call (.material tree) depth (materialTrace (pass.nodeTrace depth) tree)) .none
      (writeMaterialTree (pass.walk depth) tree) :=
  (accounts_writeMaterialTree hd).call fun s => ownRecords_material tree depth s

theorem accounts_slotMaterial (slot : Option String) :
    pass.Accounts (pass.slotTrace depth (pass.nodeTrace depth) slot) .none
      (pass.slotMaterial (pass.walk depth) slot) := by
  unfold Pass.slotTrace Pass.slotMaterial
  cases slot.bind pass.scene.materialTree? with
  | none => exact accounts_pure _
  | some tree => exact (accounts_material hd).before fun _ => accounts_pure _

omit hd in
/-- Several materials are one record. -/
theorem accounts_combineMaterials {key : String} {materials : List String} :
    pass.Accounts .none (.bind (pass.combineMaterials key materials) .none fun token _ =>
        if 2 ≤ materials.length then [Pass.multiMaterialRecord token materials] else [])
      (pass.combineMaterials key materials) := by
  match materials with
  | [] => exact fun s => .refl s
  | [material] => exact fun s => .refl s
  | a :: b :: rest =>
    unfold Pass.combineMaterials
    simp only [Contract.claimAndEmit_plain]
    exact accounts_claimAndEmit fun _ => rfl

/-- The record of several materials is written by the call for the material of the object. -/
theorem accounts_writeObjectMaterial :
    pass.Accounts (pass.slotsTrace depth (pass.nodeTrace depth))
      (fun s => (pass.combined? ⟨.ownMaterial, depth, s⟩).toList)
      (pass.writeObjectMaterial (pass.walk depth)) := by
  intro s
  beta_reduce
  -- a call that finds its answer, or has none to give, writes nothing
  have hplain : pass.slotsTrace depth (pass.nodeTrace depth) s = [] →
      pass.combined? ⟨.ownMaterial, depth, s⟩ = none → ∀ o : Except Failure String × PassState,
      pass.Balances (Survives o.1) s [] o.2 →
      pass.Balances (Survives o.1) s
        ((pass.slotsTrace depth (pass.nodeTrace depth) s).flatMap pass.ownRecords ++
          (pass.combined? ⟨.ownMaterial, depth, s⟩).toList) o.2 := by
    intro htrace hnone o ho
    rw [htrace, hnone]
    exact ho
  unfold Pass.writeObjectMaterial
  rw [runOn_bind_ok (runOn_get s)]
  cases hscope : s.scope with
  | none =>
    exact hplain (by simp [Pass.slotsTrace, hscope]) (by simp [Pass.combined?, hscope]) _
      (.of_same rfl rfl rfl rfl)
  | some scope =>
    cases ho : pass.scene.object? scope.name with
    | none =>
      simp only [ho]
      exact hplain (by simp [Pass.slotsTrace, hscope, ho])
        (by simp [Pass.combined?, Pass.gathered?, hscope, ho]) _ (.refl s)
    | some object =>
      cases hmemo : s.ledger.synthesized? (multiMaterialName scope.name) with
      | some token =>
        simp only [ho, hmemo]
        exact hplain (by simp [Pass.slotsTrace, hscope, ho, hmemo])
          (by simp [Pass.combined?, Pass.gathered?, hscope, ho, hmemo]) _ (.refl s)
      | none =>
        simp only [ho, hmemo]
        rw [combined?_gathered pass depth hscope ho hmemo,
          slotsTrace_eq pass depth _ hscope ho hmemo]
        exact ((Pass.Accounts.collect_plain fun slot _ => accounts_slotMaterial hd slot).followed
          fun materials => accounts_combineMaterials.before fun token _ =>
            .of_same rfl rfl rfl rfl) s

/-- The call for the material of the object in scope. -/
theorem accounts_ownMaterial :
    pass.Accounts (pass.ownMaterialTrace depth (pass.nodeTrace depth)) .none
      (pass.writeObjectMaterial (pass.walk depth)) :=
  (accounts_writeObjectMaterial hd).call fun s => ownRecords_ownMaterial depth s

/-! ### Objects -/

/-- An object with a tree writes nothing but by its calls. -/
theorem accounts_buildObject_tree {name : String} {object : SceneObject}
    (htree : object.tree ≠ none) :
    pass.Accounts (pass.buildTrace depth (pass.nodeTrace depth) object) .none
      (pass.buildObject (pass.walk depth) name object) := by
  unfold Pass.buildTrace Pass.buildObject
  cases hkey : object.tree with
  | none => exact absurd hkey htree
  | some key =>
    simp only
    cases pass.scene.tree? key with
    | none => exact accounts_report_pure _ _
    | some tree =>
      unfold writeObjectTree
      simp only
      cases tree.objectOutput? with
      | none => exact accounts_report_pure _ _
      | some output =>
        refine (accounts_resolveInput hd "Object" true).attempt accounts_objectToken fun f hf => ?_
        cases f with
        | cycle => cases hf
        | io | depthExceeded => rfl

/-- An object without a tree writes its record last. -/
theorem accounts_buildObject_plain {name : String} {object : SceneObject}
    (htree : object.tree = none) :
    pass.Accounts (pass.buildTrace depth (pass.nodeTrace depth) object)
      (.last (pass.buildObject (pass.walk depth) name object))
      (pass.buildObject (pass.walk depth) name object) := by
  unfold Pass.buildTrace Pass.buildObject
  simp only [htree]
  unfold Pass.writePlainObject
  cases pass.catalog.get? "Node" with
  | none => exact accounts_report_none rfl
  | some desc =>
    simp only
    rw [Writing.last_bind]
    refine accounts_writeGeometry.bind fun geometry => ?_
    cases geometry with
    | none => exact fun s => .refl s
    | some geometry =>
      refine (accounts_ownMaterial hd).behind fun material => ?_
      simp only [← bind_assoc, Contract.claimAndEmit_plugin]
      exact accounts_claimAndEmit_last (fun _ => rfl) id

omit hd in
/-- Behind the build of an object its token is entered, or the object is forgotten. -/
theorem balances_objectEnd {scope : Option ObjectScope} {name : String}
    {o : Except Failure (Option String) × PassState} {s : PassState} {records : List Record}
    (h : pass.Balances (Survives o.1) s records o.2) :
    pass.Balances (Survives (objectEnd scope name o).1) s records (objectEnd scope name o).2 := by
  rcases o with ⟨e | token, t⟩
  · exact (h.imp fun hs => survives_error.mpr (survives_error.mp hs)).before rfl rfl rfl rfl
  · exact (h.imp fun _ => survives_ok _).before rfl rfl rfl rfl

/-- An object, which is called for another call or for the pass. -/
theorem accounts_object (name : String) :
    pass.Accounts (pass.objectTrace depth (pass.nodeTrace depth) name) .none
      (pass.writeObject (pass.walk depth) name) := by
  unfold Pass.objectTrace
  refine Pass.Accounts.call (fun s => ?_) fun s => ownRecords_object name depth s
  have hrun := congrArg Prod.fst (Visit.run_object pass name depth s)
  rw [writeObject_runOn] at hrun ⊢
  cases hl : s.ledger.object? name with
  | some progress =>
    rw [plain?_of_reached pass depth (by simp [hl])]
    cases progress with
    | resolving => exact .of_same rfl rfl rfl rfl
    | done token => exact .refl s
  | none =>
    simp only [hl] at hrun ⊢
    cases ho : pass.scene.object? name with
    | none =>
      rw [plain?_of_tree pass depth fun object h => by rw [ho] at h; cases h]
      exact .refl s
    | some object =>
      simp only [ho] at hrun ⊢
      by_cases hvisible : object.visible = true
      · rw [if_pos hvisible, if_pos hvisible]
        have hopen : pass.Balances True s [] (s.enter name object) := .of_same rfl rfl rfl rfl
        refine balances_objectEnd (.behind ?_ hopen)
        by_cases htree : object.tree = none
        · rw [plain?_opened pass depth hl ho hvisible htree]
          exact accounts_buildObject_plain hd htree _
        · rw [plain?_of_tree pass depth fun own h => by cases ho.symm.trans h; exact htree]
          exact accounts_buildObject_tree hd htree _
      · rw [if_neg hvisible] at hrun ⊢
        rw [if_neg hvisible, plain?_of_run (by rw [hrun]; rfl)]
        exact .of_same rfl rfl rfl rfl

theorem accounts_select (names : List String) :
    pass.Accounts (pass.selectTrace depth (pass.nodeTrace depth) tree node names) .none
      (pass.select (pass.walk depth) tree node names) := by
  unfold Pass.selectTrace Pass.select
  refine (Pass.Accounts.collect_plain fun name _ s => ?_).before fun _ => accounts_pure _
  unfold Pass.selectMember
  rw [runOn_bind_ok (runOn_get s)]
  split
  · exact .refl s
  · exact accounts_object hd name s

/-! ### Nodes -/

/-- A node without a record of its own leaves its accounts to its calls. -/
theorem accounts_unbuilt (hkind : node.kind.isBuilt = false) (useLiterals : Bool) :
    pass.Accounts (pass.kindTrace depth (pass.nodeTrace depth) tree node useLiterals) .none
      (pass.compileNode (pass.walk depth) tree node useLiterals) := by
  unfold Pass.compileNode Pass.kindTrace
  cases hk : node.kind with
  | plugin | layeredTexture | layeredBrdf =>
    rw [hk] at hkind
    cases hkind
  | unset => exact accounts_pure _
  | selectObject | selectGroup => exact (accounts_select hd _).before fun _ => accounts_pure _
  | objectGeometry => exact accounts_writeGeometry
  | objectMaterial => exact (accounts_ownMaterial hd).before fun _ => accounts_pure _
  | materialOutput | objectOutput => exact accounts_resolveInput hd _ _

/-- One step of the walk has its accounts if the nodes below have theirs. -/
theorem accounted_succ : pass.Accounted (depth + 1) := by
  intro tree node useLiterals
  show pass.Accounts (.call (.node tree node useLiterals) (depth + 1)
    (pass.kindTrace depth (pass.nodeTrace depth) tree node useLiterals)) .none
    (pass.walk (depth + 1) tree node useLiterals)
  by_cases hkind : node.kind.isBuilt = true
  · obtain ⟨build, trace, hwalk, htrace, hbuild⟩ := builds_node hd hkind useLiterals
    rw [htrace, hwalk]
    exact (accounts_once hbuild.accounts).call fun _ => ownRecords_once hwalk hkind rfl
  · rw [Bool.not_eq_true] at hkind
    exact (accounts_unbuilt hd hkind useLiterals).call fun _ => ownRecords_unbuilt hkind

end Walk

/-- Every node has its accounts. -/
theorem accounted (pass : Pass) : ∀ depth, pass.Accounted depth
  | 0 => fun _ _ _ => Pass.Accounts.call (accounts_throw _) fun _ => ownRecords_zero
  | depth + 1 => accounted_succ (accounted pass depth)

/-! ### Calls -/

section Calls

variable (pass : Pass)

/-- Every call has its accounts. -/
theorem accounts_call (depth : Nat) (call : Call) :
    pass.Accounts (call.trace pass depth) .none (call.compile pass (pass.walk depth)) := by
  have hd := accounted pass depth
  cases call with
  | node tree node useLiterals => exact hd tree node useLiterals
  | material tree => exact (accounts_material hd).before fun _ => accounts_pure _
  | ownMaterial => exact (accounts_ownMaterial hd).before fun _ => accounts_pure _
  | object name => exact (accounts_object hd name).before fun _ => accounts_pure _

/-- **Every call settles its accounts.** From where a call is made to where it returns, what it
writes itself is written, what its calls write, and the meshes that are handed out. -/
theorem settles (v : Visit) :
    pass.Balances (Survives (v.run pass).1) v.state
      (pass.ownRecords v ++ (v.calls pass).flatMap pass.ownRecords) (v.run pass).2 := by
  have h : pass.Balances (Survives (v.run pass).1) v.state
      ((v.call.trace pass v.depth v.state).flatMap pass.ownRecords ++ []) (v.run pass).2 :=
    accounts_call pass v.depth v.call v.state
  rwa [List.append_nil, v.trace_eq, List.flatMap_cons] at h

variable {pass} {v : Visit}

/-- How a call ends that builds a node. -/
inductive Pass.Completes (pass : Pass) (v : Visit) (key node : String) : Option Record → Prop
  /-- When its calls have returned and the weights of the layers are written, the record is
  written, and its name is entered for the node. -/
  | written {u r w} : pass.Balances True v.state
      (pass.weights v ++ (v.calls pass).flatMap pass.ownRecords) u → u.Writes r w →
    v.run pass = (.ok (some (.reference r.name)), w.finish key node (.reference r.name)) →
    Completes pass v key node (some r)
  /-- The weights and what the calls wrote are all that is written, and the node is forgotten. -/
  | dropped : (∀ value, (v.run pass).1 ≠ .ok (some value)) →
    pass.Balances (Survives (v.run pass).1) v.state
      (pass.weights v ++ (v.calls pass).flatMap pass.ownRecords) (v.run pass).2 →
    (v.run pass).2.ledger.node? key node = none → Completes pass v key node none

/-- A node that nothing comes of is forgotten. -/
theorem onceEnd_of_none (key node : String) {o : Except Failure (Option Resolved) × PassState}
    (h : ∀ value, o.1 ≠ .ok (some value)) :
    (∀ value, (onceEnd key node o).1 ≠ .ok (some value)) ∧
      (onceEnd key node o).2.ledger.node? key node = none := by
  have habandon : ∀ t : PassState, (t.abandon key node).ledger.node? key node = none := fun t =>
    (Ledger.node?_abandonNode _ _ _ _ _).trans (if_pos rfl)
  rcases o with ⟨e | _ | value, t⟩
  · exact ⟨nofun, habandon t⟩
  · exact ⟨nofun, habandon t⟩
  · exact absurd rfl (h value)

/-- A call that builds a node writes one record of its own behind all that is written for it, or
none. -/
theorem completes_of_node {tree : NodeTree} {node : Node} {useLiterals : Bool}
    (hcall : v.call = .node tree node useLiterals) (hkind : node.kind.isBuilt = true)
    (hnone : v.state.ledger.node? (v.state.treeKey tree.name) node.name = none) :
    pass.Completes v (v.state.treeKey tree.name) node.name (pass.built? v) := by
  obtain ⟨call, depth, s⟩ := v
  obtain rfl : call = .node tree node useLiterals := hcall
  have hnone : s.ledger.node? (s.treeKey tree.name) node.name = none := hnone
  cases depth with
  | zero =>
    have hbuilt : pass.built? ⟨.node tree node useLiterals, 0, s⟩ = none := built?_of_run nofun
    rw [hbuilt]
    exact .dropped nofun (.refl s) hnone
  | succ depth =>
    obtain ⟨build, trace, hwalk, htrace, hbuild⟩ :=
      builds_node (accounted pass depth) hkind useLiterals
    set v : Visit := ⟨.node tree node useLiterals, depth + 1, s⟩ with hv
    set m := s.mark (s.treeKey tree.name) node.name with hm
    have hrun : v.run pass = onceEnd (s.treeKey tree.name) node.name (build.runOn m) := by
      rw [hv, Visit.run_node, hwalk, once_runOn, hnone]
    -- the calls and the weights are those of the build
    have hcalls : v.calls pass = trace m := by
      show pass.kindTrace depth (pass.nodeTrace depth) tree node useLiterals s = _
      rw [htrace, onceTrace, hnone]
    have hweights : pass.weights v = pass.nodeWeights (pass.walk depth) tree node m := by
      show Writing.once tree node _ s = _
      rw [Writing.once, hnone]
    have hopen : pass.Balances True s [] m := .of_same rfl rfl rfl rfl
    have hperm := @List.perm_append_comm _ ((v.calls pass).flatMap pass.ownRecords) (pass.weights v)
    have hends := hbuild.ends m
    rw [← hcalls, ← hweights] at hends
    rcases hends with ⟨u, r, w, hb, hw, hend⟩ | ⟨hvalue, hb⟩
    · rw [hend] at hrun
      have hsome : pass.built? v = some r := built?_of_writes rfl hkind hnone hw hrun
      rw [hsome]
      exact .written ((hb.behind hopen).perm hperm) hw hrun
    · have hend : pass.Balances (Survives (v.run pass).1) v.state _ (v.run pass).2 :=
        hrun ▸ balances_onceEnd ((hb.behind hopen).perm hperm)
      obtain ⟨hnothing, hgone⟩ := onceEnd_of_none (s.treeKey tree.name) node.name hvalue
      rw [← hrun] at hnothing hgone
      rw [built?_of_run hnothing]
      exact .dropped hnothing hend hgone

end Calls

/-! ### Failures that end a pass -/

section Passes

variable (pass : Pass)

theorem accounts_writeMaterial (material : String) :
    pass.Accounts (pass.sceneMaterialTrace material) .none (pass.writeMaterial material) := by
  unfold Pass.sceneMaterialTrace Pass.slotTrace Pass.writeMaterial Pass.compiler
  simp only [Option.bind_some]
  cases pass.scene.materialTree? material with
  | none => exact accounts_pure _
  | some tree => exact (accounts_material (accounted pass _)).before fun _ => accounts_pure _

theorem accounts_writeSceneObject (name : String) :
    pass.Accounts (pass.sceneObjectTrace name) .none (pass.writeSceneObject name) :=
  (accounts_object (accounted pass _) name).before fun _ => accounts_pure _

theorem accounts_writeOverride : pass.Accounts pass.overrideTrace .none pass.writeOverride := by
  unfold Pass.overrideTrace Pass.writeOverride
  cases pass.settings.overrideMaterial with
  | none => exact accounts_pure _
  | some material =>
    unfold Pass.sceneMaterialTrace Pass.slotTrace Pass.compiler
    simp only [Option.bind_some]
    cases pass.scene.materialTree? material with
    | none => exact fun _ => .of_same rfl rfl rfl rfl
    | some tree =>
      exact (accounts_material (accounted pass _)).before fun _ _ => .of_same rfl rfl rfl rfl

/-- The records of the default material, unless its name is taken. -/
def Pass.defaultRecords : Writing := fun s =>
  if s.ledger.isTaken defaultMaterial then []
  else Writing.bind (pass.emit defaultBrdfRecord)
    (.named (pass.emit defaultBrdfRecord) fun _ => defaultBrdfRecord)
    (fun _ => .named (pass.emit defaultMaterialRecord) fun _ => defaultMaterialRecord) s

theorem accounts_writeDefaults : pass.Accounts .none pass.defaultRecords pass.writeDefaults := by
  intro s
  unfold Pass.writeDefaults Pass.defaultRecords
  rw [runOn_bind_ok (runOn_get s)]
  by_cases htaken : s.ledger.isTaken defaultMaterial = true
  · rw [if_pos htaken, if_pos htaken]
    exact .refl s
  · rw [if_neg htaken, if_neg htaken]
    exact ((accounts_emit defaultBrdfRecord).followed fun _ =>
      (accounts_emit defaultMaterialRecord).before fun _ => accounts_pure ()) s

/-- The default material has two records where it is written. -/
theorem defaultRecords_of_ok {s t : PassState} (hfree : s.ledger.isTaken defaultMaterial = false)
    (h : pass.writeDefaults.runOn s = (.ok (), t)) :
    pass.defaultRecords s = [defaultBrdfRecord, defaultMaterialRecord] := by
  unfold Pass.writeDefaults at h
  rw [runOn_bind_ok (runOn_get s), hfree] at h
  obtain ⟨_, u, hbrdf, h⟩ := of_runOn_bind_ok h
  obtain ⟨_, w, hmaterial, -⟩ := of_runOn_bind_ok h
  simp [Pass.defaultRecords, hfree, Writing.named, Writing.bind, Writing.none, hbrdf, hmaterial]

theorem accounts_body :
    pass.Accounts pass.bodyTrace pass.defaultRecords (pass.body pass.items.length) := by
  rw [Pass.body_all]
  unfold Pass.bodyTrace Pass.opening
  refine ((accounts_writeDefaults pass).next fun _ => accounts_writeOverride pass).next fun _ => ?_
  refine (Pass.Accounts.forM fun material _ =>
    accounts_writeMaterial pass material).next fun _ => ?_
  exact Pass.Accounts.forM fun name _ => accounts_writeSceneObject pass name

/-- The books of a pass that ends well. -/
theorem balances_run {s t : PassState} {summary : Summary}
    (h : pass.run.runOn s = (.ok summary, t)) :
    (s.sink.write pass.header).2 = true ∧ summary.records = t.ledger.records ∧
      summary.nodes = t.ledger.compiledNodes ∧
      pass.Balances True (pass.headed s) ((pass.visits s).flatMap pass.ownRecords ++
        [defaultBrdfRecord, defaultMaterialRecord]) t := by
  by_cases hhead : (s.sink.write pass.header).2 = true
  · rw [Pass.run_of_head pass hhead] at h
    rcases hbody : (pass.body pass.items.length).runOn (pass.headed s) with ⟨e | _, u⟩ <;>
      rw [hbody] at h <;> cases h
    have hbalance := (accounts_body pass).of_ok hbody
    rw [Pass.body_all, Pass.opening, bind_assoc] at hbody
    obtain ⟨_, v, hdefaults, -⟩ := of_runOn_bind_ok hbody
    rw [defaultRecords_of_ok pass rfl hdefaults] at hbalance
    refine ⟨hhead, rfl, rfl, ?_⟩
    unfold Pass.visits
    rw [if_pos hhead]
    exact hbalance.before rfl rfl rfl rfl
  · rw [Pass.run_runOn, Pass.afterHead, if_neg hhead] at h
    cases h

end Passes

end ShadeNet
