/-
# The compilation of plugin nodes is an exact search

On a tree of plugin nodes the walk is a depth-first search that marks what it is on the
way from and remembers what it has finished. It fails where it meets a mark, which is
where a node is compiled from itself. Where none is, it writes the nodes upstream, each
once and behind everything it is compiled from.

The search is followed by a list of the nodes it has finished, with their records, and
by the path of the nodes that are marked.

Key definitions: `Searched`, `Found`.
Key theorems: `Searched.mark`, `Searched.finish`, `Found.bind`, `found_supplies`,
`found_walk`, `search_exact`.
-/
import Mathlib.Data.List.Nodup
import ShadeNet.Proofs.Upstream
import ShadeNet.Schema.Builtin

namespace ShadeNet

open Relation

variable {α β : Type}

/-- What a search that began in `start` with an empty ledger has come to: the nodes that
are finished, with their records, and the nodes on the path are all that the ledger
knows of the tree. -/
structure Searched (pass : Pass) (tree : NodeTree) (useLiterals : Bool) (policy : Node → Bool)
    (key : String) (start : PassState) (written : List (Node × Record)) (path : List Node)
    (s : PassState) : Prop where
  treeKey : s.treeKey tree.name = key
  unlimited : s.sink.unlimited = true
  sent : s.sent = start.sent ++ written.map Prod.snd
  sink : s.sink = start.sink.writeAll (written.map fun w => .record w.2)
  marked : ∀ m ∈ path, s.ledger.node? key m.name = some .resolving
  unmet : ∀ m ∈ tree.nodes.values, m ∉ path → m ∉ written.map Prod.fst →
    s.ledger.node? key m.name = none
  compiled : ∀ w ∈ written, pass.Compiled tree (policy w.1) (s.ledger.value? key) w.1 w.2
  policy : ∀ m, m ∉ written.map Prod.fst → policy m = useLiterals
  known : ∀ w ∈ written, w.1 ∈ tree.nodes.values
  walked : ∀ m ∈ path, m ∈ tree.nodes.values
  nodup : (written.map Prod.fst).Nodup
  behind : BehindAll tree.Follows (written.map Prod.fst)
  names : ∀ name, name ∈ s.ledger.names ↔ ∃ w ∈ written, w.2.name = name
  distinct : (written.map fun w => w.2.name).Nodup
  own : tree.Apart → ∀ w ∈ written, w.2.name = nodeName tree.name w.1.name

/-- How a search for `root` goes on from a state: it gives a result and has written more
nodes upstream, or it meets a node that is compiled from itself. -/
def Found (pass : Pass) (tree : NodeTree) (useLiterals : Bool) (policy : Node → Bool)
    (key : String) (start : PassState) (root : Node) (written : List (Node × Record))
    (path : List Node) (s : PassState) (Q : α → List (Node × Record) → PassState → Prop)
    (o : Except Failure α × PassState) : Prop :=
  (∃ a t more, o = (.ok a, t) ∧ s.Frame t ∧
    Searched pass tree useLiterals policy key start (written ++ more) path t ∧
    (∀ w ∈ more, ReflTransGen tree.Follows root w.1) ∧ Q a more t) ∨
  ((∃ name node t, o = (.error (.cycle name node), t)) ∧ tree.CycleBehind root)

section

variable {pass : Pass} {tree : NodeTree} {useLiterals : Bool} {policy : Node → Bool} {key : String}
  {start s t : PassState} {written : List (Node × Record)} {path : List Node} {node root : Node}

/-! ### What the ledger of a search says -/

/-- A mark is no value, and where it is set there was none. -/
theorem Ledger.value?_mark {l : Ledger} (hnone : l.node? key node.name = none) (m : Node) :
    (l.setNode key node.name .resolving).value? key m = l.value? key m := by
  unfold Ledger.value?
  rw [Ledger.node?_setNode]
  by_cases heq : (key, node.name) = (key, m.name)
  · have hname : node.name = m.name := (Prod.mk.inj heq).2
    rw [if_pos heq, ← hname, hnone]
  · rw [if_neg heq]

namespace Searched

variable (h : Searched pass tree useLiterals policy key start written path s)

include h

/-- The ledger has the token of every node that is finished. -/
theorem entered {w : Node × Record} (hw : w ∈ written) :
    s.ledger.node? key w.1.name = some (.done (.reference w.2.name)) := by
  obtain ⟨-, -, -, -, -, hvalue, -⟩ := h.compiled w hw
  exact Ledger.value?_eq_some.mp hvalue

theorem not_finished (hm : node ∈ path) : node ∉ written.map Prod.fst := by
  intro hf
  obtain ⟨w, hw, rfl⟩ := List.mem_map.mp hf
  have hentered := h.entered hw
  rw [h.marked _ hm] at hentered
  cases hentered

/-- The values of finished nodes last. -/
theorem value_frame (hframe : s.Frame t) (hn : node ∈ written.map Prod.fst) :
    t.ledger.value? key node = s.ledger.value? key node := by
  obtain ⟨w, hw, rfl⟩ := List.mem_map.mp hn
  have hentered := h.entered hw
  rw [Ledger.value?_eq_some.mpr hentered]
  exact Ledger.value?_eq_some.mpr (hframe.ledger.nodes.done _ _ hentered)

/-- A node that was not met is marked. -/
theorem mark (hkeyed : tree.Keyed) (hn : node ∈ tree.nodes.values)
    (hnone : s.ledger.node? key node.name = none) :
    Searched pass tree useLiterals policy key start written (node :: path)
      (s.mark key node.name) := by
  have hvalue : (s.mark key node.name).ledger.value? key = s.ledger.value? key :=
    funext (Ledger.value?_mark hnone)
  refine { h with
    marked := fun m hm => ?_, unmet := fun m hm hpath hf => ?_, compiled := ?_
    walked := fun m hm => (List.mem_cons.mp hm).elim (fun heq => heq ▸ hn) (h.walked m) }
  · unfold PassState.mark
    rw [Ledger.node?_setNode]
    rcases List.mem_cons.mp hm with rfl | hm
    · exact if_pos rfl
    · split
      · rfl
      · exact h.marked m hm
  · rw [List.mem_cons, not_or] at hpath
    have hname : node.name ≠ m.name := fun heq => hpath.1 (hkeyed.eq_of_name hm hn heq.symm)
    unfold PassState.mark
    rw [Ledger.node?_setNode, if_neg (by simp [hname])]
    exact h.unmet m hm hpath.2 hf
  · rw [hvalue]
    exact h.compiled

end Searched

/-- The state in which the record of a node is written and its value entered. -/
def PassState.deliver (s : PassState) (key base : String) (node : Node) (reports : List LogLine)
    (r : Record) : PassState :=
  (((s.claim base reports).receive r).count r.name).finish key node.name (.reference r.name)

/-- The record of a marked node is written once everything it follows is finished. -/
theorem Searched.finish (hkeyed : tree.Keyed)
    (h : Searched pass tree useLiterals policy key start written (node :: path) s)
    (hn : node ∈ tree.nodes.values) (hnp : node ∉ path)
    (hf : ∀ b, tree.Follows node b → b ∈ written.map Prod.fst) (reports : List LogLine)
    {r : Record} {category : Category} {id : String} {desc : PluginDesc}
    (hkind : node.kind = .plugin category id) (hdesc : pass.catalog.get? id = some desc)
    (hname : r.name = freeName s.ledger.names (nodeName tree.name node.name))
    (hr : r = pass.pluginRecord desc r.name node.params
      (OrderedMap.ofList (tree.supplies (policy node) (s.ledger.value? key) node))) :
    Searched pass tree useLiterals policy key start (written ++ [(node, r)]) path
      (s.deliver key (nodeName tree.name node.name) node reports r) := by
  let base := nodeName tree.name node.name
  let next := s.deliver key base node reports r
  have hnew : node ∉ written.map Prod.fst := h.not_finished List.mem_cons_self
  have hfree : r.name ∉ s.ledger.names := hname ▸ freeName_not_mem _ _
  have hne : ∀ m ∈ tree.nodes.values, m ≠ node → node.name ≠ m.name := fun m hm hmn heq =>
    hmn (hkeyed.eq_of_name hm hn heq.symm)
  have hnode : ∀ k, next.ledger.node? key k =
      if (key, node.name) = (key, k) then some (.done (.reference r.name))
      else s.ledger.node? key k := fun k => Ledger.node?_setNode _ key node.name _ key k
  have hvalue : ∀ m ∈ tree.nodes.values, m ≠ node →
      next.ledger.value? key m = s.ledger.value? key m := by
    intro m hm hmn
    unfold Ledger.value?
    rw [hnode, if_neg (by simp [hne m hm hmn])]
  have hfinished : ∀ m ∈ written.map Prod.fst,
      next.ledger.value? key m = s.ledger.value? key m := by
    intro m hm
    obtain ⟨w, hw, rfl⟩ := List.mem_map.mp hm
    exact hvalue w.1 (h.known w hw) fun heq => hnew (heq ▸ hm)
  have hself : next.ledger.value? key node =
      some (.reference r.name) := Ledger.value?_eq_some.mpr (by rw [hnode, if_pos rfl])
  have hmap : (written ++ [(node, r)]).map Prod.fst = written.map Prod.fst ++ [node] := by simp
  have hnames : ∀ name, name ∈ next.ledger.names ↔
      name ∈ s.ledger.names ∨ name = r.name := by
    intro name
    show name ∈ addMember (addMember s.ledger.names (freeName s.ledger.names base)) r.name ↔ _
    rw [mem_addMember, mem_addMember, ← hname, or_assoc, or_self]
  exact
    { treeKey := h.treeKey
      unlimited := (Sink.write_of_unlimited h.unlimited _).2
      sent := by
        show s.sent ++ [r] = _
        rw [h.sent, List.map_append, List.append_assoc]
        rfl
      sink := by
        show (s.sink.write (.record r)).1 = _
        rw [h.sink, List.map_append, Sink.writeAll_append]
        rfl
      marked := fun m hm => by
        have hmn : m ≠ node := fun heq => hnp (heq ▸ hm)
        have hmem := List.mem_cons_of_mem node hm
        rw [hnode, if_neg (by simp [hne m (h.walked m hmem) hmn])]
        exact h.marked m hmem
      unmet := fun m hm hpath hfin => by
        rw [hmap, List.mem_append, List.mem_singleton, not_or] at hfin
        rw [hnode, if_neg (by simp [hne m hm hfin.2])]
        exact h.unmet m hm (by simp [hfin.2, hpath]) hfin.1
      compiled := fun w hw => by
        rcases List.mem_append.mp hw with hw | hw
        · have hmem : w.1 ∈ written.map Prod.fst := List.mem_map_of_mem hw
          exact (h.compiled w hw).congr (hfinished w.1 hmem) fun b hb =>
            hfinished b (h.behind.mem hmem hb)
        · rw [List.mem_singleton.mp hw]
          refine ⟨category, id, desc, hkind, hdesc, hself, ?_⟩
          rw [NodeTree.supplies_congr fun b hb => hfinished b (hf b hb)]
          exact hr
      policy := fun m hm => by
        rw [hmap, List.mem_append, not_or] at hm
        exact h.policy m hm.1
      known := fun w hw => by
        rcases List.mem_append.mp hw with hw | hw
        · exact h.known w hw
        · rw [List.mem_singleton.mp hw]
          exact hn
      walked := fun m hm => h.walked m (List.mem_cons_of_mem node hm)
      nodup := by
        rw [hmap, ← List.concat_eq_append]
        exact List.Nodup.concat hnew h.nodup
      behind := by
        rw [hmap]
        exact h.behind.concat hf
      names := fun name => by
        rw [hnames, h.names]
        simp [or_and_right, exists_or, eq_comm]
      distinct := by
        have hold : r.name ∉ written.map fun w => w.2.name := by
          intro hm
          obtain ⟨w, hw, heq⟩ := List.mem_map.mp hm
          exact hfree ((h.names _).mpr ⟨w, hw, heq⟩)
        rw [List.map_append, List.map_singleton, ← List.concat_eq_append]
        exact List.Nodup.concat hold h.distinct
      own := fun hapart w hw => by
        rcases List.mem_append.mp hw with hw | hw
        · exact h.own hapart w hw
        · -- the name is free, since only finished nodes have names
          have hbase : base ∉ s.ledger.names := by
            intro hb
            obtain ⟨w', hw', heq⟩ := (h.names base).mp hb
            rw [h.own hapart w' hw'] at heq
            have hsame : w'.1 = node := hapart w'.1 (h.known w' hw') node hn heq
            exact hnew (hsame ▸ List.mem_map_of_mem hw')
          rw [List.mem_singleton.mp hw, hname]
          exact if_neg hbase }

/-! ### Going on with a search -/

/-- A step that gives what is at hand. -/
theorem found_pure {a : α} {Q : α → List (Node × Record) → PassState → Prop}
    (h : Searched pass tree useLiterals policy key start written path s) (hq : Q a [] s) :
    Found pass tree useLiterals policy key start root written path s Q
      ((pure a : Compile α).runOn s) :=
  Or.inl ⟨a, s, [], rfl, .refl s, by rwa [List.append_nil], by simp, hq⟩

/-- A search goes on from what another one has come to. -/
theorem Found.bind {c : Compile α} {f : α → Compile β}
    {Q : α → List (Node × Record) → PassState → Prop}
    {R : β → List (Node × Record) → PassState → Prop}
    (hc : Found pass tree useLiterals policy key start root written path s Q (c.runOn s))
    (hf : ∀ a more t, s.Frame t →
      Searched pass tree useLiterals policy key start (written ++ more) path t → Q a more t →
      Found pass tree useLiterals policy key start root (written ++ more) path t
        (fun b further => R b (more ++ further)) ((f a).runOn t)) :
    Found pass tree useLiterals policy key start root written path s R ((c >>= f).runOn s) := by
  rcases hc with ⟨a, t, more, ho, hframe, hs, hup, hq⟩ | ⟨⟨name, met, t, ho⟩, hcycle⟩
  · rw [Compile.runOn_bind_ok ho]
    rcases hf a more t hframe hs hq with
      ⟨b, u, further, ho', hframe', hs', hup', hr⟩ | hcycle
    · refine Or.inl ⟨b, u, more ++ further, ho', hframe.trans hframe', ?_, fun w hw => ?_, hr⟩
      · rwa [← List.append_assoc]
      · exact (List.mem_append.mp hw).elim (hup w) (hup' w)
    · exact Or.inr hcycle
  · exact Or.inr ⟨⟨name, met, t, Compile.runOn_bind_error ho f⟩, hcycle⟩

/-- What a search for a node upstream finds. -/
theorem Found.upstream {b : Node} {o : Except Failure α × PassState}
    {Q : α → List (Node × Record) → PassState → Prop}
    (h : Found pass tree useLiterals policy key start b written path s Q o)
    (hb : tree.Follows root b) :
    Found pass tree useLiterals policy key start root written path s Q o := by
  rcases h with ⟨a, t, more, ho, hframe, hs, hup, hq⟩ | ⟨hfail, hcycle⟩
  · exact Or.inl ⟨a, t, more, ho, hframe, hs, fun w hw => (hup w hw).head hb, hq⟩
  · exact Or.inr ⟨hfail, hcycle.head hb⟩

/-! ### Sockets -/

/-- A node was searched for: it is finished, and last if it was not finished before. -/
def IsDone (node : Node) (written : List (Node × Record)) (r : Option Resolved)
    (more : List (Node × Record)) : Prop :=
  ∃ record, (node, record) ∈ written ++ more ∧ r = some (.reference record.name) ∧
    (node ∉ written.map Prod.fst → more.getLast? = some (node, record))

variable {compile : NodeCompiler}

/-- A compiler searches for the nodes that a node follows. -/
def SearchesFrom (pass : Pass) (tree : NodeTree) (useLiterals : Bool) (policy : Node → Bool)
    (key : String) (start : PassState) (compile : NodeCompiler) (node : Node)
    (path : List Node) : Prop :=
  ∀ b, tree.Follows node b → ∀ written s,
    Searched pass tree useLiterals policy key start written path s →
      Found pass tree useLiterals policy key start b written path s
        (fun r more _ => IsDone b written r more) ((compile tree b useLiterals).runOn s)

/-- The node that feeds a socket is finished, if there is one. -/
def FeederDone (tree : NodeTree) (node : Node) (written : List (Node × Record))
    (socket : Socket) : Prop :=
  ∀ b, socket.attr.isSome = true → tree.source? node socket = some b →
    b ∈ written.map Prod.fst

/-- A socket supplies what the node that feeds it stands for, which is finished then. -/
theorem found_supply (hg : tree.GenericBehind pass.catalog node)
    (hc : SearchesFrom pass tree useLiterals policy key start compile node path) {socket : Socket}
    (hsocket : socket ∈ node.inputs)
    (h : Searched pass tree useLiterals policy key start written path s) :
    Found pass tree useLiterals policy key start node written path s
      (fun r more t => r = tree.supplied useLiterals (t.ledger.value? key) node socket ∧
        FeederDone tree node (written ++ more) socket)
      ((supply compile tree node useLiterals socket).runOn s) := by
  cases hattr : socket.attr with
  | none =>
    unfold supply NodeTree.supplied FeederDone
    rw [hattr]
    exact found_pure h ⟨rfl, by simp⟩
  | some attr =>
    cases hlink : tree.linkTo? ⟨node.name, socket.name⟩ with
    | none =>
      have hrun : (supply compile tree node useLiterals socket).runOn s =
          (.ok (tree.supplied useLiterals (s.ledger.value? key) node socket), s) := by
        unfold supply resolveSocket NodeTree.supplied NodeTree.socketValue
        rw [hattr, hlink]
        rfl
      rw [hrun]
      exact found_pure h ⟨rfl, fun b _ hb => by simp [NodeTree.source?, hlink] at hb⟩
    | some link =>
      have htarget : link.target = ⟨node.name, socket.name⟩ := by
        simpa using List.find?_some hlink
      obtain ⟨b, hb⟩ := hg.source node .refl link (List.mem_of_find?_eq_some hlink)
        (congrArg Endpoint.node htarget)
      have hsource : tree.source? node socket = some b := by simp [NodeTree.source?, hlink, hb]
      have hstep : supply compile tree node useLiterals socket =
          compile tree b useLiterals >>= fun r => pure ((r.map (selectOutput b
            ((b.output? link.source.socket).bind (·.attr)))).map fun v => (attr, v)) := by
        unfold supply resolveSocket
        rw [hattr]
        simp only [hlink, hb, bind_assoc, pure_bind]
      have hfollows : tree.Follows node b := ⟨socket, hsocket, by simp [hattr], hsource⟩
      rw [hstep]
      refine ((hc b hfollows written s h).upstream hfollows).bind fun r more t _ ht hr => ?_
      obtain ⟨record, hmem, rfl, -⟩ := hr
      have hvalue : t.ledger.value? key b = some (.reference record.name) :=
        Ledger.value?_eq_some.mpr (ht.entered hmem)
      refine found_pure ht ⟨?_, fun b' _ hb' => ?_⟩
      · unfold NodeTree.supplied NodeTree.socketValue
        rw [hattr, hlink]
        simp [hb, hvalue]
      · rw [hsource] at hb'
        cases hb'
        rw [List.append_nil]
        exact List.mem_map_of_mem hmem

/-- The sockets of a node supply what the nodes that feed them stand for. -/
theorem found_supplies (hg : tree.GenericBehind pass.catalog node)
    (hc : SearchesFrom pass tree useLiterals policy key start compile node path)
    {sockets : List Socket} (hsockets : sockets ⊆ node.inputs)
    (h : Searched pass tree useLiterals policy key start written path s) :
    Found pass tree useLiterals policy key start node written path s
      (fun l more t =>
        l = sockets.filterMap (tree.supplied useLiterals (t.ledger.value? key) node) ∧
        ∀ socket ∈ sockets, FeederDone tree node (written ++ more) socket)
      ((collect (supply compile tree node useLiterals) sockets).runOn s) := by
  induction sockets generalizing written s with
  | nil => exact found_pure h ⟨rfl, by simp⟩
  | cons socket rest ih =>
    obtain ⟨hsocket, hrest⟩ := List.cons_subset.mp hsockets
    unfold collect
    refine (found_supply hg hc hsocket h).bind fun r more t _ ht hr => ?_
    obtain ⟨rfl, hdone⟩ := hr
    refine (ih hrest ht).bind fun others further u htu hu hl => ?_
    obtain ⟨rfl, hothers⟩ := hl
    -- what the first socket supplied is what it would supply now
    have hsame : tree.supplied useLiterals (u.ledger.value? key) node socket =
        tree.supplied useLiterals (t.ledger.value? key) node socket :=
      NodeTree.supplied_congr fun b ha hb => ht.value_frame htu (hdone b ha hb)
    refine found_pure hu ⟨?_, fun other ho b ha hb => ?_⟩
    · rw [List.filterMap_cons, hsame]
      cases tree.supplied useLiterals (t.ledger.value? key) node socket <;> rfl
    · rw [List.append_nil, ← List.append_assoc]
      rcases List.mem_cons.mp ho with rfl | ho
      · rw [List.map_append]
        exact List.mem_append_left _ (hdone b ha hb)
      · exact hothers other ho b ha hb

/-! ### The walk -/

/-- The record of a plugin node whose sockets have supplied what they can. -/
theorem writePluginNode_runOn (ha : pass.Accepts) {id : String} {desc : PluginDesc}
    (hdesc : pass.catalog.get? id = some desc) {supplied : List (String × Resolved)}
    (ht : t.sink.unlimited = true)
    (h : (collect (supply compile tree node useLiterals) node.inputs).runOn s = (.ok supplied, t)) :
    ∃ r, r.name = freeName t.ledger.names (nodeName tree.name node.name) ∧
      r = pass.pluginRecord desc r.name node.params (OrderedMap.ofList supplied) ∧
      (pass.writePluginNode compile tree node id useLiterals).runOn s =
        (.ok (some (.reference r.name)), ((t.claim (nodeName tree.name node.name)
          (pass.pluginReports desc node.params (OrderedMap.ofList supplied))).receive r).count
            r.name) := by
  refine ⟨pass.pluginRecord desc (freeName t.ledger.names (nodeName tree.name node.name))
    node.params (OrderedMap.ofList supplied), rfl, rfl, ?_⟩
  unfold Pass.writePluginNode
  rw [hdesc]
  rw [Compile.runOn_bind_ok h, ← bind_assoc, Contract.claimAndEmit_plugin,
    Compile.runOn_bind_ok (ha.claimAndEmit_runOn _ _ _ ht)]
  rfl

/-- The walk searches, if it may go as deep as there are nodes off the path. -/
theorem found_walk (ha : pass.Accepts) :
    ∀ (depth : Nat) (node : Node) (written : List (Node × Record)) (path : List Node)
      (s : PassState), node ∈ tree.nodes.values → tree.GenericBehind pass.catalog node →
      path.Nodup →
      (∀ m ∈ path, TransGen tree.Follows m node) → tree.nodes.size < depth + path.length →
      Searched pass tree useLiterals policy key start written path s →
      Found pass tree useLiterals policy key start node written path s
        (fun r more _ => IsDone node written r more)
        ((pass.walk depth tree node useLiterals).runOn s) := by
  intro depth
  induction depth with
  | zero =>
    intro node written path s _ _ hnodup _ hdepth h
    have hlen : path.length ≤ tree.nodes.values.length := hnodup.length_le_of_subset h.walked
    have hsize : tree.nodes.values.length = tree.nodes.size := List.length_map _
    omega
  | succ depth ih =>
    intro node written path s hn hg hnodup hpath hdepth h
    obtain ⟨category, id, desc, hkind, hdesc⟩ := hg.plugin node .refl
    have hwalk : pass.walk (depth + 1) tree node useLiterals =
        once tree node (pass.writePluginNode (pass.walk depth) tree node id useLiterals) := by
      show pass.compileNode (pass.walk depth) tree node useLiterals = _
      unfold Pass.compileNode
      rw [hkind]
    have hframe := frame_of_keeps
      ((frameComparison pass).compiles_walk (depth + 1) tree node useLiterals trivial) s
    rw [hwalk, once_runOn, h.treeKey] at hframe ⊢
    by_cases hon : node ∈ path
    · -- a node on the path is compiled from itself
      rw [h.marked node hon]
      exact Or.inr ⟨⟨_, _, s, rfl⟩, node, .refl, hpath node hon⟩
    by_cases hin : node ∈ written.map Prod.fst
    · obtain ⟨w, hw, rfl⟩ := List.mem_map.mp hin
      rw [h.entered hw]
      exact found_pure h ⟨w.2, by simpa using hw, rfl, fun hnot => absurd hin hnot⟩
    have hnone := h.unmet node hn hon hin
    rw [hnone] at hframe ⊢
    -- the node is marked, and what it follows is searched for one node deeper
    have hsearches : SearchesFrom pass tree useLiterals policy key start (pass.walk depth) node
        (node :: path) := by
      intro b hb written' s' h'
      refine ih b written' (node :: path) s' hb.mem (hg.tail hb)
        (List.nodup_cons.mpr ⟨hon, hnodup⟩) ?_ ?_ h'
      · intro m hm
        rcases List.mem_cons.mp hm with rfl | hm
        · exact .single hb
        · exact (hpath m hm).tail hb
      · rw [List.length_cons]
        omega
    rcases found_supplies hg hsearches (List.Subset.refl node.inputs)
        (h.mark hg.keyed hn hnone) with
      ⟨supplied, u, more, ho, -, hu, hup, rfl, hdone⟩ | ⟨⟨name, met, u, ho⟩, hcycle⟩
    · have hfollowed : ∀ b, tree.Follows node b → b ∈ (written ++ more).map Prod.fst := by
        rintro b ⟨socket, hs, hattr, hb⟩
        exact hdone socket hs b hattr hb
      obtain ⟨r, hname, hr, hrun⟩ := writePluginNode_runOn ha hdesc hu.unlimited ho
      rw [hrun] at hframe ⊢
      refine Or.inl ⟨_, _, more ++ [(node, r)], rfl, hframe, ?_, fun w hw => ?_, r, ?_, rfl,
        fun _ => List.getLast?_concat⟩
      · rw [← hu.policy node (hu.not_finished List.mem_cons_self)] at hr
        rw [← List.append_assoc]
        exact hu.finish hg.keyed hn hon hfollowed _ hkind hdesc hname hr
      · rcases List.mem_append.mp hw with hw | hw
        · exact hup w hw
        · rw [List.mem_singleton.mp hw]
      · exact List.mem_append_right _ (List.mem_append_right _ List.mem_cons_self)
    · have hrun : (pass.writePluginNode (pass.walk depth) tree node id useLiterals).runOn
          (s.mark key node.name) = (.error (.cycle name met), u) := by
        unfold Pass.writePluginNode
        rw [hdesc]
        exact Compile.runOn_bind_error ho _
      rw [hrun]
      exact Or.inr ⟨⟨name, met, _, rfl⟩, hcycle⟩

/-- Nothing is searched where the ledger is empty. -/
theorem searched_start (pass : Pass) (tree : NodeTree) (useLiterals : Bool)
    (hfresh : s.ledger = {}) (hs : s.sink.unlimited = true) :
    Searched pass tree useLiterals (fun _ => useLiterals) (s.treeKey tree.name) s [] [] s where
  policy _ _ := rfl
  treeKey := rfl
  unlimited := hs
  sent := by simp
  sink := by simp
  marked := by simp
  unmet m _ _ _ := by rw [hfresh]; rfl
  compiled := by simp
  known := by simp
  walked := by simp
  nodup := by simp
  behind := BehindAll.nil _
  names := by simp [hfresh]
  distinct := by simp
  own := by simp

end

/-- The bound of a walk of a scene is above the size of each of its trees. -/
theorem Scene.size_lt_walkDepth {scene : Scene} {tree : NodeTree}
    (ht : tree ∈ scene.trees.values) : tree.nodes.size < scene.walkDepth := by
  have hsize : tree.nodes.values.length ≤ scene.nodeCount := by
    unfold Scene.nodeCount
    rw [List.flatMap_def]
    have hmem : tree.nodes.values ∈ scene.trees.values.map fun t => t.nodes.values :=
      List.mem_map_of_mem ht
    exact (List.sublist_flatten_of_mem hmem).length_le
  have hlen : tree.nodes.values.length = tree.nodes.size := List.length_map _
  have hpos : 0 < scene.nodeCount * (scene.objects.size + 2) + scene.objects.size + 1 :=
    Nat.succ_pos _
  have hone := Nat.le_mul_of_pos_left (scene.nodeCount + 1) hpos
  unfold Scene.walkDepth
  omega

/-- **The compilation of plugin nodes is exact.** In a tree of nodes of known plugins
whose links start at nodes, under an empty ledger and before a destination that takes
everything, a node fails with a cycle if and only if upstream there is a node that is
compiled from itself. If there is none, it gives a reference, and what is written is one
record for each node upstream and nothing else: each behind the records of the nodes it
is compiled from, with attributes made from their tokens, and the node's own last. Any
bound above the size of the tree will do, such as that of a scene it belongs to. -/
theorem search_exact (pass : Pass) (ha : pass.Accepts) (tree : NodeTree)
    (hg : tree.Generic pass.catalog) (node : Node) (hn : node ∈ tree.nodes.values)
    (useLiterals : Bool) (s : PassState) (hfresh : s.ledger = {}) (hs : s.sink.unlimited = true)
    (depth : Nat) (hdepth : tree.nodes.size < depth) :
    let o := (pass.walk depth tree node useLiterals).runOn s
    ((∃ name met, o.1 = .error (.cycle name met)) ↔ tree.CycleBehind node) ∧
    (¬ tree.CycleBehind node → ∃ (written : List (Node × Record)) (r : Record),
      o.1 = .ok (some (.reference r.name)) ∧
      o.2.sent = s.sent ++ written.map Prod.snd ∧
      o.2.sink = s.sink.writeAll (written.map fun w => .record w.2) ∧
      written.getLast? = some (node, r) ∧
      (∀ m, m ∈ written.map Prod.fst ↔ ReflTransGen tree.Follows node m) ∧
      (written.map Prod.fst).Nodup ∧ (written.map fun w => w.2.name).Nodup ∧
      BehindAll tree.Follows (written.map Prod.fst) ∧
      ∀ w ∈ written, pass.Compiled tree useLiterals
        (o.2.ledger.value? (s.treeKey tree.name)) w.1 w.2) := by
  intro o
  have hfound := found_walk ha depth node [] [] s hn (hg.behind hn) List.nodup_nil
    (by simp) (by simpa using hdepth)
    (searched_start pass tree useLiterals hfresh hs)
  rcases hfound with
    ⟨result, t, written, ho, -, ht, hup, r, hr, rfl, hlast⟩ | ⟨⟨name, met, t, ho⟩, hcycle⟩
  · have ho : o = (.ok (some (.reference r.name)), t) := ho
    rw [List.nil_append] at ht hr
    have hnode : node ∈ written.map Prod.fst := List.mem_map_of_mem hr
    have hacyclic : ¬ tree.CycleBehind node :=
      NodeTree.not_cycleBehind ht.behind ht.nodup hnode
    rw [ho]
    refine ⟨⟨nofun, fun hcycle => absurd hcycle hacyclic⟩, fun _ => ⟨written, r, rfl, ht.sent,
      ht.sink, hlast List.not_mem_nil, fun m => ⟨fun hm => ?_, ht.behind.mem_of_reach hnode⟩,
      ht.nodup, ht.distinct, ht.behind, ht.compiled⟩⟩
    obtain ⟨w, hw, rfl⟩ := List.mem_map.mp hm
    exact hup w hw
  · have ho : o = (.error (.cycle name met), t) := ho
    rw [ho]
    exact ⟨⟨fun _ => hcycle, fun _ => ⟨name, met, rfl⟩⟩, fun hacyclic => absurd hcycle hacyclic⟩

/-- A shading model with a texture for its colour and one for its transparency. -/
def skinNode : Node where
  name := "Skin"
  kind := .plugin .brdf "BRDFDiffuse"
  inputs := [⟨"Colour", .input, .texture, some "color_tex", none⟩,
    ⟨"Gaps", .input, .texture, some "transparency_tex", none⟩]

/-- A texture with a place for coordinates and one for a texture. -/
def checkerNode (name : String) : Node where
  name := name
  kind := .plugin .texture "TexChecker"
  inputs := [⟨"Coords", .input, .uvwgen, some "uvwgen", none⟩,
    ⟨"White", .input, .texture, some "white_color", none⟩]

/-- A shading model over two textures that share their coordinates, beside a texture that
is linked to itself. A second link into a socket is not followed. -/
def clothTree : NodeTree :=
  .ofParts "Cloth"
    [{ name := "Coords", kind := .plugin .uvwgen "UVWGenChannel" }, checkerNode "Fine",
      checkerNode "Rough", skinNode, checkerNode "Knot"]
    [⟨⟨1⟩, ⟨"Coords", "Out"⟩, ⟨"Fine", "Coords"⟩⟩, ⟨⟨2⟩, ⟨"Coords", "Out"⟩, ⟨"Rough", "Coords"⟩⟩,
      ⟨⟨3⟩, ⟨"Fine", "Out"⟩, ⟨"Skin", "Colour"⟩⟩, ⟨⟨4⟩, ⟨"Rough", "Out"⟩, ⟨"Skin", "Gaps"⟩⟩,
      ⟨⟨5⟩, ⟨"Knot", "Out"⟩, ⟨"Knot", "White"⟩⟩, ⟨⟨6⟩, ⟨"Knot", "Out"⟩, ⟨"Skin", "Colour"⟩⟩]

/-- The pass that compiles this tree under the built-in catalog. -/
def clothPass : Pass :=
  ⟨⟨({} : Scene).addTree clothTree, Catalog.builtin, {}⟩, { geometry := .external }, 1⟩

theorem generic_cloth : clothTree.Generic clothPass.catalog :=
  .of_check (NodeTree.keyed_ofParts _ _ _) (by decide +kernel) (by decide +kernel)

/-- The shading model is written behind its textures, and the texture that is linked to
itself fails. -/
theorem search_exact_cloth :
    let skin := (clothPass.compiler clothTree skinNode true).runOn {}
    let knot := (clothPass.compiler clothTree (checkerNode "Knot") true).runOn {}
    clothPass.Accepts ∧ clothTree.Generic clothPass.catalog ∧
    (∃ name met, knot.1 = .error (.cycle name met)) ∧
    ∃ (written : List (Node × Record)) (r : Record), skin.1 = .ok (some (.reference r.name)) ∧
      skin.2.sink = (Sink.records {}).writeAll (written.map fun w => .record w.2) ∧
      written.length = 4 ∧ written.getLast? = some (skinNode, r) ∧
      ∀ m, m ∈ written.map Prod.fst ↔ ReflTransGen clothTree.Follows skinNode m := by
  intro skin knot
  have haccepts : clothPass.Accepts := fun _ => rfl
  have hdepth : clothTree.nodes.size < clothPass.scene.walkDepth :=
    Scene.size_lt_walkDepth (by decide +kernel)
  obtain ⟨hknot, -⟩ := search_exact clothPass haccepts clothTree generic_cloth (checkerNode "Knot")
    (by decide +kernel) true {} rfl rfl clothPass.scene.walkDepth hdepth
  obtain ⟨hskin, hwritten⟩ := search_exact clothPass haccepts clothTree generic_cloth skinNode
    (by decide +kernel) true {} rfl rfl clothPass.scene.walkDepth hdepth
  have hring : clothTree.CycleBehind (checkerNode "Knot") := by
    refine ⟨checkerNode "Knot", .refl, .single ?_⟩
    refine ⟨⟨"White", .input, .texture, some "white_color", none⟩, by decide, rfl, ?_⟩
    decide +kernel
  have hcompiled : skin =
      (clothPass.walk clothPass.scene.walkDepth clothTree skinNode true).runOn {} := rfl
  have hends : skin.1.toBool = true := by decide +kernel
  have hacyclic : ¬ clothTree.CycleBehind skinNode := by
    intro hcycle
    obtain ⟨name, met, herror⟩ := hskin.mpr hcycle
    rw [hcompiled, herror] at hends
    cases hends
  obtain ⟨written, r, hok, hsent, hsink, hlast, hmem, -⟩ := hwritten hacyclic
  refine ⟨haccepts, generic_cloth, hknot.mpr hring, written, r, hok, hsink, ?_, hlast, hmem⟩
  have hcount : skin.2.sent.length = 4 := by decide +kernel
  have hlength : skin.2.sent.length = written.length := by
    rw [hcompiled, hsent]
    simp
  exact hlength.symm.trans hcount

end ShadeNet
