/-
# What the key of a tree tells apart

The ledger knows a tree by its name, and the own tree of the object in scope by its name
and the object's. An object knows its tree by the key that the scene has for it. So a tree
is kept apart from the others if no other one comes to its key in the ledger, whatever
object is in scope, and the objects that share a tree are kept apart if the tree has its
name for a key.

Neither need be so. A tree may be named like another one in the scope of an object, and
then a node of the one gets the value of a node of the other. A tree may be stored under a
key that is not its name, and then the objects that share it share its records.

Key definitions: `Scene.scopes`, `Scene.Owns`, `Pass.CompiledIn`,
`Pass.BehindToken`.
Key theorems: `Scene.owns_of_plain`, `recalled_from_own_tree`, `recalled_from_namesake`,
`sharers_kept_apart`, `sharers_mixed_up`.
-/
import ShadeNet.Proofs.Override
import ShadeNet.Proofs.Provenance

namespace ShadeNet

open Compile

variable {pass : Pass} {s t : PassState}

/-! ### Keys -/

/-- The scopes in which the trees of a scene are compiled. -/
def Scene.scopes (scene : Scene) : List (Option ObjectScope) :=
  none :: scene.objects.entries.map fun e => some (e.2.scope e.1)

/-- The key of a tree in a scope. -/
def scopedKey (scope : Option ObjectScope) (tree : String) : String :=
  PassState.treeKey { scope := scope } tree

theorem treeKey_eq (s : PassState) (tree : String) : s.treeKey tree = scopedKey s.scope tree := rfl

/-- Of the trees of a scene, only the one under the given key has this key in the ledger,
whatever object is in scope. -/
def Scene.Owns (scene : Scene) (key ledgerKey : String) : Prop :=
  ∀ e ∈ scene.trees.entries, ∀ scope ∈ scene.scopes, scopedKey scope e.2.name = ledgerKey →
    e.1 = key

instance (scene : Scene) (key ledgerKey : String) : Decidable (scene.Owns key ledgerKey) := by
  unfold Scene.Owns
  infer_instance

theorem mem_scopes_of_placed (hs : s.Placed pass.scene) : s.scope ∈ pass.scene.scopes := by
  cases hscope : s.scope with
  | none => exact List.mem_cons_self
  | some scope =>
    obtain ⟨-, object, ho, hobject⟩ := hs scope hscope
    have hmem := OrderedMap.mem_of_lookupEntry ho
    exact List.mem_cons_of_mem _ (List.mem_map.mpr ⟨(scope.name, object), hmem, by rw [hobject]; rfl⟩)

theorem Scene.Owns.eq_key {scene : Scene} {key key' ledgerKey : String} {tree : NodeTree}
    {scope : Option ObjectScope} (h : scene.Owns key ledgerKey) (ht : scene.tree? key' = some tree)
    (hs : scope ∈ scene.scopes) (heq : scopedKey scope tree.name = ledgerKey) : key' = key :=
  h _ (OrderedMap.mem_of_lookupEntry ht) scope hs heq

/-- A text without an `@` stands before the first one of what begins with it. -/
theorem takeWhile_plain {name : List Char} (h : '@' ∉ name) (rest : List Char) :
    (name ++ rest).takeWhile (· ≠ '@') = name ++ rest.takeWhile (· ≠ '@') := by
  refine List.takeWhile_append_of_pos fun c hc => decide_eq_true fun heq => h ?_
  rwa [← heq]

/-- In a scene whose trees have different names, without an `@`, each owns its keys. -/
theorem Scene.owns_of_plain {scene : Scene} {key : String} {tree : NodeTree}
    (hnames : ∀ e ∈ scene.trees.entries, ∀ e' ∈ scene.trees.entries, e.2.name = e'.2.name →
      e.1 = e'.1)
    (hplain : ∀ e ∈ scene.trees.entries, '@' ∉ e.2.name.toList)
    (ht : scene.tree? key = some tree) (scope : Option ObjectScope) :
    scene.Owns key (scopedKey scope tree.name) := by
  -- the name is what stands before the `@` of the key, if there is one
  have hbefore : ∀ e ∈ scene.trees.entries, ∀ scope,
      (scopedKey scope e.2.name).toList.takeWhile (· ≠ '@') = e.2.name.toList := by
    intro e he scope
    have hplain := takeWhile_plain (hplain e he)
    have hkey := hasKey_treeKey { scope := scope } e.2
    unfold scopedKey
    rcases hkey with hkey | ⟨object, hkey⟩ <;> rw [hkey]
    · simpa using hplain []
    · simpa using hplain ('@' :: object.toList)
  intro e he scope' _ heq
  have hmem : (key, tree) ∈ scene.trees.entries := OrderedMap.mem_of_lookupEntry ht
  refine hnames e he (key, tree) hmem (String.toList_inj.mp ?_)
  rw [← hbefore e he scope', ← hbefore (key, tree) hmem scope, heq]

/-! ### Nodes whose value is there -/

/-- A node with a record of its own is built once. -/
theorem exists_once (pass : Pass) {node : Node} (hkind : node.kind.isBuilt = true) (depth : Nat)
    (tree : NodeTree) (useLiterals : Bool) :
    ∃ build, pass.walk (depth + 1) tree node useLiterals = once tree node build := by
  simp only [Pass.walk, Pass.compileNode]
  cases h : node.kind <;> simp only [h, NodeKind.isBuilt, Bool.false_eq_true] at hkind
  all_goals exact ⟨_, rfl⟩

theorem once_of_done {tree : NodeTree} {node : Node} {build : Compile (Option Resolved)}
    {value : Resolved} (h : s.ledger.node? (s.treeKey tree.name) node.name = some (.done value)) :
    (once tree node build).runOn s = (.ok (some value), s) := by
  rw [once_runOn, h]

/-- The value of a node that is built once is in the ledger behind it. -/
theorem done_of_once {tree : NodeTree} {node : Node} {build : Compile (Option Resolved)}
    {value : Resolved} (h : (once tree node build).runOn s = (.ok (some value), t)) :
    t.ledger.node? (s.treeKey tree.name) node.name = some (.done value) := by
  rw [once_runOn] at h
  rcases hl : s.ledger.node? (s.treeKey tree.name) node.name with _ | _ | old
  · simp only [hl] at h
    generalize build.runOn _ = o at h
    rcases o with ⟨e | _ | value', u⟩ <;> cases h
    exact (Ledger.node?_setNode _ _ _ _ _ _).trans (if_pos rfl)
  · simp only [hl] at h
    cases h
  · simp only [hl] at h
    cases h
    exact hl

/-- **A node gets no value of another tree, if its tree owns its key.** If a visit finds the
value of its node in the ledger, it gives that value. An earlier visit of a node of that
name entered it, and whichever did was one of the same tree, which the scene has under no
other key. -/
theorem recalled_from_own_tree (pass : Pass) (s : PassState) (v : Visit)
    (hv : v ∈ pass.visits s) (tree : NodeTree) (node : Node) (useLiterals : Bool)
    (hcall : v.call = .node tree node useLiterals) (key : String)
    (hstored : pass.scene.tree? key = some tree)
    (howns : pass.scene.Owns key (v.state.treeKey tree.name)) (value : Resolved)
    (hdone : v.state.ledger.node? (v.state.treeKey tree.name) node.name = some (.done value)) :
    let memo := Memo.node (v.state.treeKey tree.name) node.name value
    (node.kind.isBuilt = true → v.depth ≠ 0 → v.run pass = (.ok (some value), v.state)) ∧
      (∃ w ∈ pass.visits s, pass.Enters (pass.visits s) w memo ∧
        (w.run pass).2.Precedes v.state) ∧
      (∀ w ∈ pass.visits s, pass.Enters (pass.visits s) w memo →
        ∃ node' useLiterals', w.call = .node tree node' useLiterals' ∧ node'.name = node.name ∧
          (w.run pass).1 = .ok (some value)) ∧
      ∀ other, pass.scene.tree? other = some tree → other = key := by
  intro memo
  have hscope : v.state.scope ∈ pass.scene.scopes := mem_scopes_of_placed (placed_visit pass hv)
  refine ⟨fun hkind hdepth => ?_, holds_visit pass hv (m := memo) hdone, fun w hw henters => ?_,
    fun other hother => howns.eq_key hother hscope rfl⟩
  · obtain ⟨depth, hd⟩ := Nat.exists_eq_succ_of_ne_zero hdepth
    obtain ⟨build, hbuild⟩ := exists_once pass hkind depth tree useLiterals
    unfold Visit.run
    rw [hcall, hd]
    show (pass.walk (depth + 1) tree node useLiterals).runOn v.state = _
    rw [hbuild]
    exact once_of_done hdone
  · obtain ⟨tree', node', useLiterals', r, hcall', hkeys, hname, -, hrun, -⟩ := henters.of_node
    have hstored' := stored_visit pass hw
    rw [hcall'] at hstored'
    obtain ⟨key', hkey'⟩ := hstored'
    have hsame : key' = key :=
      howns.eq_key hkey' (mem_scopes_of_placed (placed_visit pass hw)) hkeys
    subst hsame
    have htree : tree = tree' := Option.some.inj (hstored.symm.trans hkey')
    subst htree
    exact ⟨node', useLiterals', hcall', hname, hrun⟩

/-- The tree of a material with one shading model. -/
def skinTree (name : String) : NodeTree :=
  .ofParts name
    [{ name := "End", kind := .materialOutput false,
        inputs := [⟨"Material", .input, .material, none, none⟩] },
      { name := "Body", kind := .plugin .brdf "BRDFDiffuse" }]
    [⟨⟨1⟩, ⟨"Body", "Out"⟩, ⟨"End", "Material"⟩⟩]

/-- The end of the tree of an object. -/
def rigEnd : Node where
  name := "End"
  kind := .objectOutput
  inputs := [⟨"Object", .input, .plugin, none, none⟩]

/-- The record of an object, which has the object's geometry. -/
def rigBody : Node where
  name := "Body"
  kind := .plugin .object "Node"
  inputs := [⟨"Mesh", .input, .geometry, some "geometry", none⟩]

/-- The tree of an object that shows the object's geometry. -/
def rigTree (name : String) : NodeTree :=
  .ofParts name [rigEnd, rigBody, { name := "Shape", kind := .objectGeometry }]
    [⟨⟨1⟩, ⟨"Body", "Out"⟩, ⟨"End", "Object"⟩⟩, ⟨⟨2⟩, ⟨"Shape", "Out"⟩, ⟨"Body", "Mesh"⟩⟩]

/-- Two red objects, one of which a clay picks, without an override. -/
def redPass : Pass := ⟨⟨clayScene, Catalog.builtin, {}⟩, { geometry := .external }, 1⟩

/-- The red that is compiled for the object that the clay picks is there when the material
is compiled for itself. -/
theorem recalled_from_own_tree_red :
    redPass.scene.tree? "Red" = some (paintTree "Red" none) ∧ redPass.scene.Owns "Red" "Red" ∧
    ∃ v ∈ redPass.visits {}, ∃ node,
      v.call = .node (paintTree "Red" none) node true ∧ v.state.treeKey "Red" = "Red" ∧
      (v.run redPass).1 = .ok (some (.reference "NTRedNPaint")) ∧
      ∃ w ∈ redPass.visits {}, ∃ node' useLiterals',
        w.call = .node (paintTree "Red" none) node' useLiterals' ∧ node'.name = node.name ∧
        (w.run redPass).2.Precedes v.state := by
  have hred : redPass.scene.tree? "Red" = some (paintTree "Red" none) := by decide +kernel
  have howns : redPass.scene.Owns "Red" "Red" := by decide +kernel
  have hfound : ∃ v ∈ redPass.visits {}, v.depth ≠ 0 ∧ v.state.treeKey "Red" = "Red" ∧
      v.call = .node (paintTree "Red" none) (paintTree "Red" none).nodes.values[1] true ∧
      v.state.ledger.node? (v.state.treeKey "Red") "Paint" =
        some (.done (.reference "NTRedNPaint")) := by decide +kernel
  obtain ⟨v, hv, hdepth, hkey, hcall, hdone⟩ := hfound
  have hown : redPass.scene.Owns "Red" (v.state.treeKey (paintTree "Red" none).name) := by
    rw [show (paintTree "Red" none).name = "Red" from rfl, hkey]
    exact howns
  obtain ⟨hrun, ⟨w, hw, henters, hearlier⟩, hall, -⟩ := recalled_from_own_tree redPass {} v hv
    (paintTree "Red" none) _ true hcall "Red" hred hown _ hdone
  obtain ⟨node', useLiterals', hcall', hname, -⟩ := hall w hw henters
  exact ⟨hred, howns, v, hv, _, hcall, hkey, by rw [hrun rfl hdepth], w, hw, node', useLiterals',
    hcall', hname, hearlier⟩

/-- A material whose tree has the name of the tree of an object in the object's scope. -/
def namesakeScene : Scene :=
  (((({} : Scene).addTree (skinTree "Rig@Cube")).addTree (rigTree "Rig")).addMaterial "Skin"
    ⟨some "Rig@Cube"⟩).addObject "Cube" { mesh := some "Cube", tree := some "Rig" }

/-- The pass in which the object is compiled behind the material. -/
def namesakePass : Pass :=
  ⟨⟨namesakeScene, Catalog.builtin, {}⟩, { geometry := .external }, 1⟩

/-- The object's node gets the shading model that a node of the material's tree entered, and
the object has no record. -/
theorem recalled_from_namesake :
    let memo := Memo.node "Rig@Cube" "Body" (.reference "NTRig_CubeNBody")
    namesakePass.scene.tree? "Rig" = some (rigTree "Rig") ∧
    namesakePass.scene.tree? "Rig@Cube" = some (skinTree "Rig@Cube") ∧
    (∃ v ∈ namesakePass.visits {}, v.call = .node (rigTree "Rig") rigBody true ∧
      v.state.treeKey "Rig" = "Rig@Cube" ∧ v.state.Holds memo ∧
      (v.run namesakePass).1 = .ok (some (.reference "NTRig_CubeNBody"))) ∧
    (∃ w ∈ namesakePass.visits {}, w.call = .node (skinTree "Rig@Cube")
        (skinTree "Rig@Cube").nodes.values[1] true ∧
      namesakePass.Enters (namesakePass.visits {}) w memo) ∧
    (namesakePass.run.runOn {}).2.ledger.object? "Cube" =
      some (.done (some "NTRig_CubeNBody")) ∧
    (namesakePass.run.runOn {}).2.sent.map (·.plugin) =
      ["BRDFDiffuse", "MtlSingleBRDF", "BRDFDiffuse"] := by
  intro memo
  refine ⟨by decide +kernel, by decide +kernel, ?_, ?_, by decide +kernel, by decide +kernel⟩
  · show ∃ v ∈ namesakePass.visits {}, v.call = .node (rigTree "Rig") rigBody true ∧
      v.state.treeKey "Rig" = "Rig@Cube" ∧ v.state.ledger.node? "Rig@Cube" "Body" =
        some (.done (.reference "NTRig_CubeNBody")) ∧ _
    decide +kernel
  · have hfound : ∃ w ∈ namesakePass.visits {},
        w.call = .node (skinTree "Rig@Cube") (skinTree "Rig@Cube").nodes.values[1] true ∧
        w.state.scope = none ∧ w.state.ledger.node? "Rig@Cube" "Body" = none ∧
        (w.run namesakePass).1 = .ok (some (.reference "NTRig_CubeNBody")) ∧
        (w.run namesakePass).2.sent.getLast?.map (·.name) = some "NTRig_CubeNBody" := by
      decide +kernel
    obtain ⟨w, hw, hcall, hscope, hnone, hrun, hlast⟩ := hfound
    obtain ⟨r, hr, hname⟩ := Option.map_eq_some_iff.mp hlast
    have hkey : w.state.treeKey (skinTree "Rig@Cube").name = "Rig@Cube" := by
      rw [treeKey_eq, hscope]
      rfl
    have henters : namesakePass.Enters (namesakePass.visits {}) w
        (.node (w.state.treeKey (skinTree "Rig@Cube").name) "Body" (.reference r.name)) :=
      .node hcall (by rw [hkey]; exact hnone) (by rw [hrun, hname]) hr
    rw [hkey, hname] at henters
    exact ⟨w, hw, hcall, henters⟩

/-! ### Objects that share a tree -/

/-- A reference seen through an output is a reference, and its name can be told from it. -/
theorem selectOutput_reference (source : Node) (attr : Option String) :
    ∃ suffix, ∀ name, selectOutput source attr (.reference name) = .reference (name ++ suffix) := by
  cases attr with
  | none => exact ⟨"", fun name => by simp [selectOutput]⟩
  | some attr =>
    by_cases hbare : attr ∈ bareOutputs
    · exact ⟨"", fun name => by simp [selectOutput, hbare]⟩
    · exact ⟨outputSelector source.kind attr, fun name => by simp [selectOutput, hbare]⟩

/-- The output socket through which the node that feeds the end of a tree is seen. -/
def NodeTree.endAttr? (tree : NodeTree) (output : Node) : Option String := do
  let socket ← output.input? "Object"
  let link ← tree.linkTo? ⟨output.name, socket.name⟩
  let source ← tree.node? link.source.node
  let found ← source.output? link.source.socket
  found.attr

/-- The token of an object is the value of the node at the end of its tree, as seen through
the output that is linked. -/
theorem writeObjectTree_ok {depth : Nat} {tree : NodeTree} {output node : Node} {token : String}
    (hout : tree.objectOutput? = some output) (hfeeds : tree.feeder? output "Object" = some node)
    (h : (writeObjectTree (pass.walk depth) tree).runOn s = (.ok (some token), t)) :
    ∃ value, (pass.walk depth tree node true).runOn s = (.ok (some value), t) ∧
      selectOutput node (tree.endAttr? output) value = .reference token := by
  unfold NodeTree.feeder? at hfeeds
  obtain ⟨socket, hsocket, hfeeds⟩ := Option.bind_eq_some_iff.mp hfeeds
  obtain ⟨link, hlink, hnode⟩ := Option.bind_eq_some_iff.mp hfeeds
  have hattr : tree.endAttr? output = (node.output? link.source.socket).bind (·.attr) := by
    simp [NodeTree.endAttr?, hsocket, hlink, hnode]
  unfold writeObjectTree at h
  simp only [hout] at h
  rw [runOn_bind_ok (runOn_attempt _ s)] at h
  unfold resolveInput resolveSocket at h
  simp only [hsocket, hlink, hnode] at h
  rw [runOn_bind_pure] at h
  generalize (pass.walk depth tree node true).runOn s = o at h
  rcases o with ⟨e | _ | value, u⟩
  · cases e <;> cases h
  · cases h
  · obtain ⟨htoken, rfl⟩ := Prod.mk.inj h
    have hseen : (selectOutput node (tree.endAttr? output) value).token? = some token := by
      rw [hattr]
      exact Except.ok.inj htoken
    exact ⟨value, rfl, Option.some.inj (bind_token?_eq_some.mp hseen)⟩

/-- A record is that of a node of the given name in a tree, which a visit in the given scope
compiled. -/
def Pass.CompiledIn (pass : Pass) (visits : List Visit) (scope : Option ObjectScope)
    (tree : NodeTree) (name : String) (r : Record) : Prop :=
  ∃ v ∈ visits, ∃ node useLiterals, v.call = .node tree node useLiterals ∧ node.name = name ∧
    v.state.scope = scope ∧ (v.run pass).1 = .ok (some (.reference r.name)) ∧
    (v.run pass).2.sent.getLast? = some r

/-- An object, its tree, and the plugin node at the end of the tree. -/
structure Pass.EndsIn (pass : Pass) (name : String) (object : SceneObject) (key : String)
    (tree : NodeTree) (output node : Node) : Prop where
  found : pass.scene.object? name = some object
  keyed : object.tree = some key
  stored : pass.scene.tree? key = some tree
  ended : tree.objectOutput? = some output
  fed : tree.feeder? output "Object" = some node
  known : node.kind.isKnown pass.catalog = true

variable {name key : String} {object : SceneObject} {tree : NodeTree} {output node : Node}

/-- The key of a tree that has its name for a key, in the scope of an object that has it. -/
theorem scopedKey_own (hkey : object.tree = some key) (hname : tree.name = key) :
    scopedKey (some (object.scope name)) tree.name = key ++ "@" ++ name := by
  simp [scopedKey, PassState.treeKey, SceneObject.scope, hkey, hname]

/-- A tree has such a key in no other scope. -/
theorem scope_of_scopedKey {scope : Option ObjectScope}
    (h : scopedKey scope key = key ++ "@" ++ name) : ∃ own, scope = some own ∧ own.name = name := by
  have hplain : key ≠ key ++ "@" ++ name := by
    intro heq
    have hlength := congrArg String.length heq
    rw [String.length_append, String.length_append] at hlength
    have hat : ("@" : String).length = 1 := rfl
    omega
  unfold scopedKey PassState.treeKey at h
  cases scope with
  | none => exact absurd h hplain
  | some own =>
    simp only at h
    by_cases htree : own.tree = some key
    · rw [if_pos htree] at h
      exact ⟨own, rfl, by simpa using h⟩
    · rw [if_neg htree] at h
      exact absurd h hplain

/-- An object with a token has the value of the node at the end of its tree, which is in the
ledger in the end of the pass. -/
theorem token_of_end (hends : pass.EndsIn name object key tree output node) {token : String}
    (htoken : (pass.run.runOn s).2.ledger.object? name = some (.done (some token))) :
    ∃ base, selectOutput node (tree.endAttr? output) (.reference base) = .reference token ∧
      (pass.run.runOn s).2.ledger.node? (scopedKey (some (object.scope name)) tree.name)
        node.name = some (.done (.reference base)) := by
  obtain ⟨v, hv, henters, hlater⟩ := holds_run pass (m := .object name (some token)) htoken
  obtain ⟨object', u, hnone, ho, hbuild, hu⟩ := henters.of_object
  have hobject : object' = object := Option.some.inj (ho.symm.trans hends.found)
  subst hobject
  unfold Pass.buildObject at hbuild
  simp only [hends.keyed, hends.stored] at hbuild
  obtain ⟨value, hwalk, hselect⟩ := writeObjectTree_ok hends.ended hends.fed hbuild
  obtain ⟨category, id, desc, hkind, -⟩ := NodeKind.exists_of_isKnown hends.known
  have hdone : u.ledger.node? (scopedKey (some (object'.scope name)) tree.name) node.name =
      some (.done value) := by
    cases hdepth : v.depth with
    | zero =>
      rw [hdepth] at hwalk
      cases hwalk
    | succ depth =>
      obtain ⟨build, hb⟩ := exists_once pass (show node.kind.isBuilt = true by rw [hkind]; rfl)
        depth tree true
      rw [hdepth, hb] at hwalk
      have hown : (v.state.enter name object').treeKey tree.name =
          scopedKey (some (object'.scope name)) tree.name := rfl
      rw [← hown]
      exact done_of_once hwalk
  have hfinal := hlater.nodes _ _ _ (hu.nodes _ _ _ hdone)
  obtain ⟨base, rfl, -⟩ := ((journey_pass pass s).tokened (tokened_headed pass s)).token _ _ _ hfinal
  exact ⟨base, hselect, hfinal⟩

/-- Where the tree owns the key, the record behind the token was compiled in the scope of the
object. -/
theorem compiledIn_own (hends : pass.EndsIn name object key tree output node)
    (hname : tree.name = key)
    (howns : pass.scene.Owns key (scopedKey (some (object.scope name)) tree.name)) {base : String}
    (hdone : (pass.run.runOn s).2.ledger.node? (scopedKey (some (object.scope name)) tree.name)
      node.name = some (.done (.reference base))) :
    ∃ r ∈ (pass.run.runOn s).2.sent, r.name = base ∧
      pass.CompiledIn (pass.visits s) (some (object.scope name)) tree node.name r := by
  obtain ⟨v, hv, henters, hlater⟩ := holds_run pass (m := .node _ node.name (.reference base)) hdone
  obtain ⟨tree', node', useLiterals, r, hcall, hkeys, hnode, hvalue, hrun, hlast⟩ :=
    henters.of_node
  cases hvalue
  have hstored := stored_visit pass hv
  rw [hcall] at hstored
  obtain ⟨key', hkey'⟩ := hstored
  have hplaced := placed_visit pass hv
  have hsame : key' = key := howns.eq_key hkey' (mem_scopes_of_placed hplaced) hkeys
  subst hsame
  have htree : tree' = tree := Option.some.inj (hkey'.symm.trans hends.stored)
  subst htree
  -- the key of the tree in the scope of the object is not its key anywhere else
  have hscope : v.state.scope = some (object.scope name) := by
    rw [treeKey_eq, scopedKey_own hends.keyed hname, hname] at hkeys
    obtain ⟨own, hscope, hown⟩ := scope_of_scopedKey hkeys
    obtain ⟨-, object', ho, hobject⟩ := hplaced own hscope
    rw [hown, hends.found] at ho
    cases ho
    rw [hscope, hobject, hown]
  refine ⟨r, hlater.sent.subset (List.mem_of_getLast? hlast), rfl, v, hv, node', useLiterals,
    hcall, hnode, hscope, hrun, hlast⟩

/-- The record behind a token that an output of the last node of a tree gives, compiled in
the given scope, is one of the records. -/
def Pass.BehindToken (pass : Pass) (s : PassState) (scope : ObjectScope) (tree : NodeTree)
    (output node : Node) (token : String) : Prop :=
  ∃ r ∈ (pass.run.runOn s).2.sent,
    selectOutput node (tree.endAttr? output) (.reference r.name) = .reference token ∧
      pass.CompiledIn (pass.visits s) (some scope) tree node.name r

/-- **Objects that share a tree are kept apart by its name.** Let two objects have one tree,
stored under its own name, with a node of a known plugin at its end. If both have a token in
the end of a pass, then the tokens differ; and where the tree owns its key in the scope of
one of the objects, the record behind that object's token was compiled in that scope. -/
theorem sharers_kept_apart (pass : Pass) (s : PassState) {a b key : String}
    {first second : SceneObject} {tree : NodeTree} {output node : Node} (hab : a ≠ b)
    (ha : pass.EndsIn a first key tree output node)
    (hb : pass.EndsIn b second key tree output node) (hname : tree.name = key)
    {tokenA tokenB : String}
    (htokenA : (pass.run.runOn s).2.ledger.object? a = some (.done (some tokenA)))
    (htokenB : (pass.run.runOn s).2.ledger.object? b = some (.done (some tokenB))) :
    tokenA ≠ tokenB ∧
      (pass.scene.Owns key (scopedKey (some (first.scope a)) tree.name) →
        pass.BehindToken s (first.scope a) tree output node tokenA) ∧
      (pass.scene.Owns key (scopedKey (some (second.scope b)) tree.name) →
        pass.BehindToken s (second.scope b) tree output node tokenB) := by
  obtain ⟨baseA, hseenA, hdoneA⟩ := token_of_end ha htokenA
  obtain ⟨baseB, hseenB, hdoneB⟩ := token_of_end hb htokenB
  refine ⟨fun heq => hab ?_, fun howns => ?_, fun howns => ?_⟩
  · obtain ⟨suffix, hsuffix⟩ := selectOutput_reference node (tree.endAttr? output)
    rw [hsuffix] at hseenA hseenB
    have hbase : baseA = baseB := by
      have hsame : baseA ++ suffix = baseB ++ suffix := by
        rw [Resolved.reference.inj hseenA, Resolved.reference.inj hseenB, heq]
      simpa using hsame
    subst hbase
    have htokened := (journey_pass pass s).tokened (tokened_headed pass s)
    have hkeys := (htokened.unique _ _ _ _ _ hdoneA hdoneB).1
    rw [scopedKey_own ha.keyed hname, scopedKey_own hb.keyed hname] at hkeys
    simpa using hkeys
  · obtain ⟨r, hr, rfl, hin⟩ := compiledIn_own ha hname howns hdoneA
    exact ⟨r, hr, hseenA, hin⟩
  · obtain ⟨r, hr, rfl, hin⟩ := compiledIn_own hb hname howns hdoneB
    exact ⟨r, hr, hseenB, hin⟩

/-- Two objects with one tree, stored under the given key. -/
def rigScene (key : String) (tree : NodeTree) : Scene where
  trees := .ofList [(key, tree)]
  objects := .ofList
    [("Left", { mesh := some "Left", tree := some key }),
      ("Right", { mesh := some "Right", tree := some key })]

/-- The pass over such a scene. -/
def rigPass (key : String) (tree : NodeTree) : Pass :=
  ⟨⟨rigScene key tree, Catalog.builtin, {}⟩, { geometry := .external }, 1⟩

/-- Under its own name the tree is compiled for each of them. -/
theorem sharers_kept_apart_rig :
    let pass := rigPass "Rig" (rigTree "Rig")
    let left : SceneObject := { mesh := some "Left", tree := some "Rig" }
    let right : SceneObject := { mesh := some "Right", tree := some "Rig" }
    pass.EndsIn "Left" left "Rig" (rigTree "Rig") rigEnd rigBody ∧
    pass.EndsIn "Right" right "Rig" (rigTree "Rig") rigEnd rigBody ∧
    (pass.run.runOn {}).2.ledger.object? "Left" = some (.done (some "NTRigNBody")) ∧
    (pass.run.runOn {}).2.ledger.object? "Right" = some (.done (some "NTRigNBody_1")) ∧
    "NTRigNBody" ≠ "NTRigNBody_1" ∧
    pass.BehindToken {} (left.scope "Left") (rigTree "Rig") rigEnd rigBody "NTRigNBody" ∧
    pass.BehindToken {} (right.scope "Right") (rigTree "Rig") rigEnd rigBody "NTRigNBody_1" := by
  intro pass left right
  have hleft : pass.EndsIn "Left" left "Rig" (rigTree "Rig") rigEnd rigBody :=
    ⟨by decide +kernel, rfl, by decide +kernel, by decide +kernel, by decide +kernel,
      by decide +kernel⟩
  have hright : pass.EndsIn "Right" right "Rig" (rigTree "Rig") rigEnd rigBody :=
    ⟨by decide +kernel, rfl, by decide +kernel, by decide +kernel, by decide +kernel,
      by decide +kernel⟩
  have htokenA : (pass.run.runOn {}).2.ledger.object? "Left" =
      some (.done (some "NTRigNBody")) := by decide +kernel
  have htokenB : (pass.run.runOn {}).2.ledger.object? "Right" =
      some (.done (some "NTRigNBody_1")) := by decide +kernel
  obtain ⟨hdiffer, hbehindA, hbehindB⟩ :=
    sharers_kept_apart pass {} (by decide) hleft hright rfl htokenA htokenB
  exact ⟨hleft, hright, htokenA, htokenB, hdiffer, hbehindA (by decide +kernel),
    hbehindB (by decide +kernel)⟩

/-- Under another name it is compiled for the first of them, and the second has the first
one's record, though no other tree has the key of this one. -/
theorem sharers_mixed_up :
    let pass := rigPass "Rig" (rigTree "Frame")
    let left : SceneObject := { mesh := some "Left", tree := some "Rig" }
    let right : SceneObject := { mesh := some "Right", tree := some "Rig" }
    pass.EndsIn "Left" left "Rig" (rigTree "Frame") rigEnd rigBody ∧
    pass.EndsIn "Right" right "Rig" (rigTree "Frame") rigEnd rigBody ∧
    pass.scene.Owns "Rig" "Frame" ∧
    (pass.run.runOn {}).2.ledger.object? "Left" = some (.done (some "NTFrameNBody")) ∧
    (pass.run.runOn {}).2.ledger.object? "Right" = some (.done (some "NTFrameNBody")) ∧
    ((pass.run.runOn {}).2.sent.filter (·.name = "NTFrameNBody")).map (·.attr? "geometry") =
      [some "MELeft"] := by
  intro pass left right
  refine ⟨⟨by decide +kernel, rfl, by decide +kernel, by decide +kernel, by decide +kernel,
    by decide +kernel⟩, ⟨by decide +kernel, rfl, by decide +kernel, by decide +kernel,
    by decide +kernel, by decide +kernel⟩, by decide +kernel, by decide +kernel, by decide +kernel,
    by decide +kernel⟩

end ShadeNet
