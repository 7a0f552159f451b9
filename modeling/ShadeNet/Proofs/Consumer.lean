/-
# The first consumer of a node decides on its literals

A consumer asks for what it is linked from with the literals of sockets that are not
linked, or without them, and so on upstream. The ledger does not tell the two apart: a
node that is compiled is not compiled again, so that its attributes are those that its
first consumer asked for. Two consumers can come in either order if and only if what they
have in common has the same attributes with literals and without.

Key definitions: `Request`, `Pass.attrsOf`, `Pass.inTurn`, `PassState.recordsOf`.
Key theorems: `Searched.turn`, `searched_inTurn`, `first_consumer_decides`,
`consumers_agree_iff`.
-/
import ShadeNet.Proofs.Search

namespace ShadeNet

open Relation

/-- A node that is asked for, with literals or without. -/
structure Request where
  /-- The node. -/
  node : Node
  /-- Whether sockets that are not linked give their literals. -/
  useLiterals : Bool

/-- A request that the walk can answer: its node is of the tree, is not upstream from
itself, and is compiled from nodes of known plugins. -/
structure Pass.Answers (pass : Pass) (tree : NodeTree) (request : Request) : Prop where
  mem : request.node ∈ tree.nodes.values
  generic : tree.GenericBehind pass.catalog request.node
  acyclic : ¬ tree.CycleBehind request.node

/-- The attributes of a plugin node in a tree in which every node has the name that it
asks for. -/
def Pass.attrsOf (pass : Pass) (tree : NodeTree) (useLiterals : Bool) (node : Node) :
    List (String × String) :=
  match node.kind with
  | .plugin _ id =>
    ((pass.catalog.get? id).map fun desc =>
      (pass.pluginRecord desc (nodeName tree.name node.name) node.params
        (OrderedMap.ofList (tree.supplies useLiterals
          (fun m => some (.reference (nodeName tree.name m.name))) node))).attrs).getD []
  | _ => []

/-- The state after two requests, one after the other. -/
def Pass.inTurn (pass : Pass) (depth : Nat) (tree : NodeTree) (first second : Request)
    (s : PassState) : PassState :=
  let t := ((pass.walk depth tree first.node first.useLiterals).runOn s).2
  ((pass.walk depth tree second.node second.useLiterals).runOn t).2

/-- The records under the name that a node asks for. -/
def PassState.recordsOf (s : PassState) (tree : NodeTree) (node : Node) : List Record :=
  s.sent.filter fun r => r.name = nodeName tree.name node.name

/-- Of records with names of their own, one has its name. -/
theorem filter_name_of_nodup {l : List Record} (h : (l.map Record.name).Nodup) {r : Record}
    (hr : r ∈ l) : l.filter (fun q => q.name = r.name) = [r] := by
  obtain ⟨before, after, rfl⟩ := List.append_of_mem hr
  rw [List.map_append, List.map_cons, List.nodup_append] at h
  obtain ⟨-, hafter, hcross⟩ := h
  have hbefore : before.filter (fun q => q.name = r.name) = [] :=
    List.filter_eq_nil_iff.mpr fun q hq heq =>
      hcross q.name (List.mem_map_of_mem hq) r.name List.mem_cons_self (of_decide_eq_true heq)
  have hrest : after.filter (fun q => q.name = r.name) = [] := by
    refine List.filter_eq_nil_iff.mpr fun q hq heq => (List.nodup_cons.mp hafter).1 ?_
    rw [← of_decide_eq_true heq]
    exact List.mem_map_of_mem hq
  rw [List.filter_append, hbefore, List.nil_append, List.filter_cons_of_pos (by simp), hrest]

section

variable {pass : Pass} {tree : NodeTree} {useLiterals : Bool} {policy : Node → Bool}
  {key : String} {start s t : PassState} {written : List (Node × Record)} {node : Node}

namespace Searched

variable (h : Searched pass tree useLiterals policy key start written [] s)

include h

/-- A search that has ended can be followed by one that asks differently. -/
theorem turn (useLiterals' : Bool) :
    Searched pass tree useLiterals'
      (fun m => if m ∈ written.map Prod.fst then policy m else useLiterals') key start written
      [] s :=
  { h with
    compiled := fun w hw => by
      rw [if_pos (List.mem_map_of_mem hw)]
      exact h.compiled w hw
    policy := fun _ hm => if_neg hm }

/-- The attributes of a finished node, where every node has the name that it asks for. -/
theorem attrs (hapart : tree.Apart) {w : Node × Record} (hw : w ∈ written) :
    w.2.attrs = pass.attrsOf tree (policy w.1) w.1 := by
  obtain ⟨category, id, desc, hkind, hdesc, -, hr⟩ := h.compiled w hw
  have hvalue : ∀ b, tree.Follows w.1 b →
      some (.reference (nodeName tree.name b.name)) = s.ledger.value? key b := by
    intro b hb
    obtain ⟨v, hv, rfl⟩ := List.mem_map.mp (h.behind.mem (List.mem_map_of_mem hw) hb)
    rw [Ledger.value?_eq_some.mpr (h.entered hv), h.own hapart v hv]
  unfold Pass.attrsOf
  rw [hkind]
  simp only [hdesc, Option.map_some, Option.getD_some]
  rw [NodeTree.supplies_congr hvalue, ← h.own hapart w hw, ← hr]

/-- A finished node has one record. -/
theorem recordsOf (hapart : tree.Apart) (hsent : start.sent = []) {w : Node × Record}
    (hw : w ∈ written) : s.recordsOf tree w.1 = [w.2] := by
  have hnodup : ((written.map Prod.snd).map Record.name).Nodup := by
    rw [List.map_map]
    exact h.distinct
  unfold PassState.recordsOf
  rw [h.sent, hsent, List.nil_append, ← h.own hapart w hw]
  exact filter_name_of_nodup hnodup (List.mem_map_of_mem hw)

end Searched

/-- What two requests leave: the nodes upstream from either are finished, and those
upstream from the first one as it asked. -/
theorem searched_inTurn (ha : pass.Accepts) (hfresh : s.ledger = {})
    (hs : s.sink.unlimited = true) {depth : Nat} (hdepth : tree.nodes.size < depth)
    {first second : Request} (hfirst : pass.Answers tree first)
    (hsecond : pass.Answers tree second) :
    ∃ policy written, Searched pass tree second.useLiterals policy (s.treeKey tree.name) s
        written [] (pass.inTurn depth tree first second s) ∧
      (∀ m, ReflTransGen tree.Follows first.node m → m ∈ written.map Prod.fst ∧
        policy m = first.useLiterals) ∧
      (∀ m, ReflTransGen tree.Follows second.node m → m ∈ written.map Prod.fst) ∧
      ∀ m, ¬ ReflTransGen tree.Follows first.node m → policy m = second.useLiterals := by
  have hone := found_walk ha depth first.node [] [] s hfirst.mem hfirst.generic List.nodup_nil
    (by simp) (by simpa using hdepth) (searched_start pass tree first.useLiterals hfresh hs)
  obtain ⟨_, t, one, ho, -, ht, hup, r, hr, -, -⟩ | ⟨-, hcycle⟩ := hone
  · rw [List.nil_append] at ht hr
    have hreach : ∀ m, m ∈ one.map Prod.fst ↔ ReflTransGen tree.Follows first.node m := by
      refine fun m => ⟨fun hm => ?_, ht.behind.mem_of_reach (List.mem_map_of_mem hr)⟩
      obtain ⟨w, hw, rfl⟩ := List.mem_map.mp hm
      exact hup w hw
    have htwo := found_walk ha depth second.node one [] t hsecond.mem hsecond.generic
      List.nodup_nil (by simp) (by simpa using hdepth) (ht.turn second.useLiterals)
    obtain ⟨_, u, two, ho', -, hu, -, r', hr', -, -⟩ | ⟨-, hcycle⟩ := htwo
    · have hrun : pass.inTurn depth tree first second s = u := by
        unfold Pass.inTurn
        rw [ho]
        exact congrArg Prod.snd ho'
      refine ⟨_, one ++ two, hrun ▸ hu, fun m hm => ?_, fun m hm => ?_, fun m hm => ?_⟩
      · have hmem : m ∈ one.map Prod.fst := (hreach m).mpr hm
        refine ⟨?_, if_pos hmem⟩
        rw [List.map_append]
        exact List.mem_append_left _ hmem
      · exact hu.behind.mem_of_reach (List.mem_map_of_mem hr') hm
      · exact if_neg fun hmem => hm ((hreach m).mp hmem)
    · exact absurd hcycle hsecond.acyclic
  · exact absurd hcycle hfirst.acyclic

/-- **The first consumer of a node decides on its literals.** After two requests, one after
the other, each node upstream from the first one has one record, with the attributes that
the first one asked for. Each other node upstream from the second one has one record, with
the attributes that the second one asked for. -/
theorem first_consumer_decides (ha : pass.Accepts) (hapart : tree.Apart) (hfresh : s.ledger = {})
    (hsent : s.sent = []) (hs : s.sink.unlimited = true) {depth : Nat}
    (hdepth : tree.nodes.size < depth) {first second : Request}
    (hfirst : pass.Answers tree first) (hsecond : pass.Answers tree second) :
    let t := pass.inTurn depth tree first second s
    (∀ m, ReflTransGen tree.Follows first.node m → ∃ r, t.recordsOf tree m = [r] ∧
      r.attrs = pass.attrsOf tree first.useLiterals m) ∧
    ∀ m, ReflTransGen tree.Follows second.node m → ¬ ReflTransGen tree.Follows first.node m →
      ∃ r, t.recordsOf tree m = [r] ∧ r.attrs = pass.attrsOf tree second.useLiterals m := by
  intro t
  obtain ⟨policy, written, ht, hone, htwo, hrest⟩ :=
    searched_inTurn ha hfresh hs hdepth hfirst hsecond
  have hrecord : ∀ m ∈ written.map Prod.fst, ∃ r, t.recordsOf tree m = [r] ∧
      r.attrs = pass.attrsOf tree (policy m) m := by
    intro m hm
    obtain ⟨w, hw, rfl⟩ := List.mem_map.mp hm
    exact ⟨w.2, ht.recordsOf hapart hsent hw, ht.attrs hapart hw⟩
  constructor
  · intro m hm
    obtain ⟨hmem, hpolicy⟩ := hone m hm
    exact hpolicy ▸ hrecord m hmem
  · intro m hm hnot
    exact hrest m hnot ▸ hrecord m (htwo m hm)

end

/-- **Two consumers can come in either order if and only if they ask for one thing.** In a
tree in which no two nodes ask for one name, let two requests that the walk can answer come
in either order, under an empty ledger and before a destination that takes everything. A
node upstream from both has one record in each order, and the two records have the same
attributes if and only if those that the requests ask for are the same: with literals or
without, the second request gets what the first one has left. -/
theorem consumers_agree_iff (pass : Pass) (ha : pass.Accepts) (tree : NodeTree)
    (hapart : tree.Apart) (s : PassState) (hfresh : s.ledger = {}) (hsent : s.sent = [])
    (hs : s.sink.unlimited = true)
    (depth : Nat) (hdepth : tree.nodes.size < depth) (one other : Request)
    (hone : pass.Answers tree one) (hother : pass.Answers tree other) (node : Node)
    (hnode : ReflTransGen tree.Follows one.node node)
    (hnode' : ReflTransGen tree.Follows other.node node) :
    ∃ r r', (pass.inTurn depth tree one other s).recordsOf tree node = [r] ∧
      (pass.inTurn depth tree other one s).recordsOf tree node = [r'] ∧
      (r.attrs = r'.attrs ↔
        pass.attrsOf tree one.useLiterals node = pass.attrsOf tree other.useLiterals node) := by
  obtain ⟨r, hr, hattrs⟩ :=
    (first_consumer_decides ha hapart hfresh hsent hs hdepth hone hother).1 node hnode
  obtain ⟨r', hr', hattrs'⟩ :=
    (first_consumer_decides ha hapart hfresh hsent hs hdepth hother hone).1 node hnode'
  refine ⟨r, r', hr, hr', ?_⟩
  rw [hattrs, hattrs']

/-- A texture with a literal on a socket that is not linked. -/
def dustNode : Node where
  name := "Dust"
  kind := .plugin .texture "TexDistance"
  inputs := [⟨"Inside", .input, .bool, some "inside_separate", some (.bool true)⟩]
  outputs := [⟨"Out", .output, .floatTexture, none, none⟩]

/-- A layered shading model with one layer. -/
def mixNode : Node where
  name := "Mix"
  kind := .layeredBrdf false
  inputs := [⟨"BRDF 1", .input, .brdf, none, none⟩, ⟨"Weight 1", .input, .floatTexture, none, none⟩]

/-- A shading model with a texture for its colour. -/
def paintNode : Node where
  name := "Paint"
  kind := .plugin .brdf "BRDFDiffuse"
  inputs := [⟨"Colour", .input, .texture, some "color_tex", none⟩]

/-- A texture that is the weight of a layer and the colour of a shading model. -/
def coatTree : NodeTree :=
  .ofParts "Coat"
    [dustNode, { name := "Base", kind := .plugin .brdf "BRDFDiffuse" }, mixNode, paintNode]
    [⟨⟨1⟩, ⟨"Base", "Out"⟩, ⟨"Mix", "BRDF 1"⟩⟩, ⟨⟨2⟩, ⟨"Dust", "Out"⟩, ⟨"Mix", "Weight 1"⟩⟩,
      ⟨⟨3⟩, ⟨"Dust", "Out"⟩, ⟨"Paint", "Colour"⟩⟩]

/-- The pass that compiles this tree under the built-in catalog. -/
def coatPass : Pass :=
  ⟨⟨({} : Scene).addTree coatTree, Catalog.builtin, {}⟩, { geometry := .external }, 1⟩

/-- The texture is written differently as a weight and as a colour, so that the two
requests do not agree on it. -/
theorem consumers_agree_iff_coat :
    let weight : Request := ⟨dustNode, false⟩
    let colour : Request := ⟨paintNode, true⟩
    coatPass.Accepts ∧ coatTree.Apart ∧ coatPass.Answers coatTree weight ∧
    coatPass.Answers coatTree colour ∧
    ∃ r r', (coatPass.inTurn 9 coatTree weight colour {}).recordsOf coatTree dustNode = [r] ∧
      (coatPass.inTurn 9 coatTree colour weight {}).recordsOf coatTree dustNode = [r'] ∧
      r.attrs ≠ r'.attrs := by
  intro weight colour
  have haccepts : coatPass.Accepts := fun _ => rfl
  have hapart : coatTree.Apart := by
    unfold NodeTree.Apart
    decide +kernel
  have hbehind : BehindAll coatTree.Follows [dustNode, paintNode] :=
    ((BehindAll.nil _).concat (NodeTree.Follows.mem_of_sources (by decide +kernel))).concat
      (NodeTree.Follows.mem_of_sources (by decide +kernel))
  have hanswers : ∀ root ∈ [dustNode, paintNode], ∀ useLiterals,
      coatPass.Answers coatTree ⟨root, useLiterals⟩ := fun root hroot _ =>
    { mem := (by decide +kernel : ∀ n ∈ [dustNode, paintNode], n ∈ coatTree.nodes.values) root hroot
      generic := .of_behind (NodeTree.keyed_ofParts _ _ _) hbehind (by decide +kernel)
        (by decide +kernel) hroot
      acyclic := NodeTree.not_cycleBehind hbehind (by decide +kernel) hroot }
  have hweight := hanswers dustNode (by simp) false
  have hcolour := hanswers paintNode (by simp) true
  have hfollows : coatTree.Follows paintNode dustNode :=
    ⟨⟨"Colour", .input, .texture, some "color_tex", none⟩, by decide, rfl, by decide +kernel⟩
  obtain ⟨r, r', hr, hr', hiff⟩ := consumers_agree_iff coatPass haccepts coatTree hapart {} rfl rfl
    rfl 9 (by decide +kernel) weight colour hweight hcolour dustNode .refl (.single hfollows)
  refine ⟨haccepts, hapart, hweight, hcolour, r, r', hr, hr', fun heq => ?_⟩
  have hdiffer : coatPass.attrsOf coatTree false dustNode ≠
      coatPass.attrsOf coatTree true dustNode := by decide +kernel
  exact hdiffer (hiff.mp heq)

/-- The layered shading model and the other one do not agree on the texture that both
depend on: it is written without its literal if the layers come first. -/
theorem consumers_disagree_coat :
    let layers : Request := ⟨mixNode, true⟩
    let colour : Request := ⟨paintNode, true⟩
    coatTree.Apart ∧ coatTree.dependencyOrder = .ok ["Dust", "Base", "Mix", "Paint"] ∧
    "Dust" ∈ coatTree.feeders "Mix" ∧ "Dust" ∈ coatTree.feeders "Paint" ∧
    ((coatPass.inTurn coatPass.scene.walkDepth coatTree layers colour {}).recordsOf coatTree
      dustNode).map (·.attr? "inside_separate") = [some "0"] ∧
    ((coatPass.inTurn coatPass.scene.walkDepth coatTree colour layers {}).recordsOf coatTree
      dustNode).map (·.attr? "inside_separate") = [some "1"] := by
  unfold NodeTree.Apart
  decide +kernel

end ShadeNet
