/-
# What a node is compiled from

A node of a plugin is compiled from the first link into each of its input sockets that
stands for an attribute. These links make a tree a graph. Its record is a function of
the values of the nodes that it follows, of its literals and of the switch for literals
on sockets that are not linked.

Key definitions: `BehindAll`, `NodeTree.Keyed`, `NodeTree.Generic`, `NodeTree.Apart`,
`NodeTree.Follows`, `NodeTree.CycleBehind`, `NodeTree.GenericBehind`, `NodeTree.supplies`,
`Pass.Compiled`.
Key theorems: `BehindAll.mem_before`, `BehindAll.not_cycle`, `Pass.Compiled.congr`.
-/
import Mathlib.Logic.Relation
import ShadeNet.Proofs.PostOrder

namespace ShadeNet

open Relation

/-! ### Lists in which everything stands behind what it needs -/

variable {α : Type}

/-- Every member of a list stands behind all members that it is related to. -/
def BehindAll (R : α → α → Prop) (l : List α) : Prop :=
  ∀ before a after, l = before ++ a :: after → ∀ b, R a b → b ∈ before

namespace BehindAll

variable {R : α → α → Prop} {l : List α} {a b : α}

theorem nil (R : α → α → Prop) : BehindAll R [] := fun before a after h => by simp at h

theorem concat (h : BehindAll R l) (ha : ∀ b, R a b → b ∈ l) : BehindAll R (l ++ [a]) :=
  forall_split_concat (P := fun before a => ∀ b, R a b → b ∈ before) h ha

theorem mem (h : BehindAll R l) (ha : a ∈ l) (hab : R a b) : b ∈ l := by
  obtain ⟨before, after, rfl⟩ := List.append_of_mem ha
  exact List.mem_append_left _ (h before a after rfl b hab)

theorem mem_of_reach (h : BehindAll R l) (ha : a ∈ l) (hab : ReflTransGen R a b) : b ∈ l := by
  induction hab with
  | refl => exact ha
  | tail _ hbc ih => exact h.mem ih hbc

/-- What a member leads to stands before it. -/
theorem mem_before (h : BehindAll R l) {before after : List α} (hl : l = before ++ a :: after)
    (hab : TransGen R a b) : b ∈ before := by
  have hprefix : BehindAll R before := fun first c rest he =>
    h first c (rest ++ a :: after) (by rw [hl, he]; simp)
  induction hab with
  | single hab => exact h before a after hl _ hab
  | tail _ hbc ih => exact hprefix.mem ih hbc

/-- In a list without repetition nothing leads back to itself. -/
theorem not_cycle (h : BehindAll R l) (hnodup : l.Nodup) (ha : a ∈ l) : ¬ TransGen R a a := by
  intro hring
  obtain ⟨before, after, rfl⟩ := List.append_of_mem ha
  have hmem : a ∈ before := h.mem_before rfl hring
  rw [List.nodup_append] at hnodup
  exact hnodup.2.2 a hmem a List.mem_cons_self rfl

end BehindAll

/-! ### Trees of plugin nodes -/

/-- Whether a node of this kind is one of a plugin from the catalog. -/
def NodeKind.isKnown (kind : NodeKind) (catalog : Catalog) : Bool :=
  match kind with
  | .plugin _ id => (catalog.get? id).isSome
  | _ => false

theorem NodeKind.exists_of_isKnown {kind : NodeKind} {catalog : Catalog}
    (h : kind.isKnown catalog = true) :
    ∃ category id desc, kind = .plugin category id ∧ catalog.get? id = some desc := by
  cases kind
  case plugin category id =>
    obtain ⟨desc, hdesc⟩ := Option.isSome_iff_exists.mp h
    exact ⟨category, id, desc, rfl, hdesc⟩
  all_goals cases h

namespace NodeTree

/-- Every node is stored under its own name, as reading and editing a tree leave it. -/
def Keyed (tree : NodeTree) : Prop := ∀ e ∈ tree.nodes.entries, e.2.name = e.1

theorem keyed_ofParts (name : String) (nodes : List Node) (links : List Link) :
    (ofParts name nodes links).Keyed := by
  intro e he
  obtain ⟨node, -, rfl⟩ := List.mem_map.mp (OrderedMap.mem_entries_ofList he)
  rfl

theorem Keyed.addNode {tree : NodeTree} (h : tree.Keyed) (node : Node) :
    (tree.addNode node).Keyed := by
  intro e he
  rcases OrderedMap.mem_setEntry he with rfl | he
  · rfl
  · exact h e he

theorem Keyed.removeNode {tree : NodeTree} (h : tree.Keyed) (name : String) :
    (tree.removeNode name).Keyed := fun e he => h e (List.mem_of_mem_filter he)

theorem Keyed.node?_name {tree : NodeTree} (h : tree.Keyed) {node : Node}
    (hn : node ∈ tree.nodes.values) : tree.node? node.name = some node := by
  obtain ⟨e, he, rfl⟩ := List.mem_map.mp hn
  have hget := OrderedMap.get?_of_mem_entries (m := tree.nodes) he
  rwa [← h e he] at hget

/-- Two nodes of a tree with one name are one node. -/
theorem Keyed.eq_of_name {tree : NodeTree} (h : tree.Keyed) {a b : Node}
    (ha : a ∈ tree.nodes.values) (hb : b ∈ tree.nodes.values) (hab : a.name = b.name) : a = b := by
  have hget := h.node?_name ha
  rw [hab, h.node?_name hb] at hget
  exact (Option.some.inj hget).symm

/-- A tree of nodes of known plugins whose links start at nodes. It may have cycles, and
several links may end at one socket. -/
structure Generic (tree : NodeTree) (catalog : Catalog) : Prop where
  keyed : tree.Keyed
  plugin : ∀ node ∈ tree.nodes.values, ∃ category id desc,
    node.kind = .plugin category id ∧ catalog.get? id = some desc
  source : ∀ link ∈ tree.links, ∃ source, tree.node? link.source.node = some source

theorem Generic.of_check {tree : NodeTree} {catalog : Catalog} (hkeyed : tree.Keyed)
    (hplugin : ∀ node ∈ tree.nodes.values, node.kind.isKnown catalog = true)
    (hsource : ∀ link ∈ tree.links, (tree.node? link.source.node).isSome = true) :
    tree.Generic catalog where
  keyed := hkeyed
  plugin node hn := NodeKind.exists_of_isKnown (hplugin node hn)
  source link hl := Option.isSome_iff_exists.mp (hsource link hl)

/-- No two nodes ask for one instance name. -/
def Apart (tree : NodeTree) : Prop :=
  ∀ a ∈ tree.nodes.values, ∀ b ∈ tree.nodes.values,
    nodeName tree.name a.name = nodeName tree.name b.name → a = b

/-- The node at the start of the first link into an input socket. -/
def source? (tree : NodeTree) (node : Node) (socket : Socket) : Option Node :=
  (tree.linkTo? ⟨node.name, socket.name⟩).bind fun link => tree.node? link.source.node

/-- A node is compiled from another one: the first link into one of its input sockets
that stand for attributes starts there. -/
def Follows (tree : NodeTree) (a b : Node) : Prop :=
  ∃ socket ∈ a.inputs, socket.attr.isSome = true ∧ tree.source? a socket = some b

theorem Follows.mem {tree : NodeTree} {a b : Node} (h : tree.Follows a b) :
    b ∈ tree.nodes.values := by
  obtain ⟨socket, -, -, hs⟩ := h
  obtain ⟨link, -, hn⟩ := Option.bind_eq_some_iff.mp hs
  exact OrderedMap.mem_values_of_get? hn

/-- Upstream from a node there is one that is compiled from itself. -/
def CycleBehind (tree : NodeTree) (node : Node) : Prop :=
  ∃ m, ReflTransGen tree.Follows node m ∧ TransGen tree.Follows m m

theorem CycleBehind.head {tree : NodeTree} {a b : Node} (hab : tree.Follows a b)
    (h : tree.CycleBehind b) : tree.CycleBehind a := by
  obtain ⟨m, hbm, hm⟩ := h
  exact ⟨m, hbm.head hab, hm⟩

/-- Upstream from a member of a list without repetition in which every node stands behind
those it is compiled from, none is compiled from itself. -/
theorem not_cycleBehind {tree : NodeTree} {l : List Node} (h : BehindAll tree.Follows l)
    (hnodup : l.Nodup) {node : Node} (hn : node ∈ l) : ¬ tree.CycleBehind node := by
  rintro ⟨m, hm, hring⟩
  exact h.not_cycle hnodup (h.mem_of_reach hn hm) hring

/-- What a node is compiled from is in a list that has the sources of all its sockets. -/
theorem Follows.mem_of_sources {tree : NodeTree} {l : List Node} {a : Node}
    (h : ∀ socket ∈ a.inputs, (tree.source? a socket).all (· ∈ l) = true) :
    ∀ b, tree.Follows a b → b ∈ l := by
  rintro b ⟨socket, hs, -, hb⟩
  simpa [hb] using h socket hs

/-- A node and all nodes upstream from it are nodes of known plugins, and the links into
them start at nodes. The rest of the tree may be anything. -/
structure GenericBehind (tree : NodeTree) (catalog : Catalog) (root : Node) : Prop where
  keyed : tree.Keyed
  plugin : ∀ node, ReflTransGen tree.Follows root node → ∃ category id desc,
    node.kind = .plugin category id ∧ catalog.get? id = some desc
  source : ∀ node, ReflTransGen tree.Follows root node → ∀ link ∈ tree.links,
    link.target.node = node.name → ∃ source, tree.node? link.source.node = some source

theorem Generic.behind {tree : NodeTree} {catalog : Catalog} (h : tree.Generic catalog)
    {root : Node} (hroot : root ∈ tree.nodes.values) : tree.GenericBehind catalog root where
  keyed := h.keyed
  plugin node hn := by
    rcases hn.cases_tail with rfl | ⟨_, -, hlast⟩
    · exact h.plugin _ hroot
    · exact h.plugin node hlast.mem
  source _ _ link hl _ := h.source link hl

/-- A list that has with every node those it is compiled from may be checked instead of
all that is upstream. -/
theorem GenericBehind.of_behind {tree : NodeTree} {catalog : Catalog} {l : List Node}
    (hkeyed : tree.Keyed) (h : BehindAll tree.Follows l)
    (hplugin : ∀ node ∈ l, node.kind.isKnown catalog = true)
    (hsource : ∀ node ∈ l, ∀ link ∈ tree.links, link.target.node = node.name →
      (tree.node? link.source.node).isSome = true) {root : Node} (hroot : root ∈ l) :
    tree.GenericBehind catalog root where
  keyed := hkeyed
  plugin node hn := NodeKind.exists_of_isKnown (hplugin node (h.mem_of_reach hroot hn))
  source node hn link hl htarget :=
    Option.isSome_iff_exists.mp (hsource node (h.mem_of_reach hroot hn) link hl htarget)

theorem GenericBehind.tail {tree : NodeTree} {catalog : Catalog} {a b : Node}
    (h : tree.GenericBehind catalog a) (hab : tree.Follows a b) :
    tree.GenericBehind catalog b where
  keyed := h.keyed
  plugin node hn := h.plugin node (hn.head hab)
  source node hn := h.source node (hn.head hab)

/-! ### Records of plugin nodes -/

/-- The value of an input socket, from the values of the nodes upstream. -/
def socketValue (tree : NodeTree) (useLiterals : Bool) (value : Node → Option Resolved)
    (node : Node) (socket : Socket) : Option Resolved :=
  match tree.linkTo? ⟨node.name, socket.name⟩ with
  | none => if useLiterals then socket.literal.map .literal else none
  | some link => (tree.node? link.source.node).bind fun source =>
    (value source).map
      (selectOutput source ((source.output? link.source.socket).bind (·.attr)))

/-- What a socket supplies to the attribute it stands for. -/
def supplied (tree : NodeTree) (useLiterals : Bool) (value : Node → Option Resolved)
    (node : Node) (socket : Socket) : Option (String × Resolved) :=
  socket.attr.bind fun attr =>
    (tree.socketValue useLiterals value node socket).map fun v => (attr, v)

/-- What the input sockets of a node supply, in their order. -/
def supplies (tree : NodeTree) (useLiterals : Bool) (value : Node → Option Resolved)
    (node : Node) : List (String × Resolved) :=
  node.inputs.filterMap (tree.supplied useLiterals value node)

variable {tree : NodeTree} {useLiterals : Bool} {value value' : Node → Option Resolved}
  {node : Node}

theorem supplied_congr {socket : Socket} (h : ∀ b, socket.attr.isSome = true →
    tree.source? node socket = some b → value' b = value b) :
    tree.supplied useLiterals value' node socket = tree.supplied useLiterals value node socket := by
  unfold supplied
  cases ha : socket.attr with
  | none => rfl
  | some attr =>
    have hvalue : tree.socketValue useLiterals value' node socket =
        tree.socketValue useLiterals value node socket := by
      unfold socketValue
      cases hl : tree.linkTo? ⟨node.name, socket.name⟩ with
      | none => rfl
      | some link =>
        cases hs : tree.node? link.source.node with
        | none => simp only [hs, Option.bind_none]
        | some source =>
          have hsource : tree.source? node socket = some source := by simp [source?, hl, hs]
          simp only [hs, Option.bind_some, h source (by simp [ha]) hsource]
    rw [Option.bind_some, Option.bind_some, hvalue]

/-- What a node is supplied with depends on the values of the nodes it follows. -/
theorem supplies_congr (h : ∀ b, tree.Follows node b → value' b = value b) :
    tree.supplies useLiterals value' node = tree.supplies useLiterals value node := by
  refine List.filterMap_congr fun socket hs => supplied_congr fun b ha hb => ?_
  exact h b ⟨socket, hs, ha, hb⟩

end NodeTree

/-- The value of a node that is compiled. -/
def Ledger.value? (l : Ledger) (key : String) (node : Node) : Option Resolved :=
  match l.node? key node.name with
  | some (.done value) => some value
  | _ => none

theorem Ledger.value?_eq_some {l : Ledger} {key : String} {node : Node} {v : Resolved} :
    l.value? key node = some v ↔ l.node? key node.name = some (.done v) := by
  unfold value?
  rcases l.node? key node.name with _ | _ | w <;> simp

/-- A record is that of a plugin node whose value and whose upstream nodes' values are
given. -/
def Pass.Compiled (pass : Pass) (tree : NodeTree) (useLiterals : Bool)
    (value : Node → Option Resolved) (node : Node) (r : Record) : Prop :=
  ∃ category id desc, node.kind = .plugin category id ∧ pass.catalog.get? id = some desc ∧
    value node = some (.reference r.name) ∧
    r = pass.pluginRecord desc r.name node.params
      (OrderedMap.ofList (tree.supplies useLiterals value node))

/-- The record of a node is that of the node as long as the values stay. -/
theorem Pass.Compiled.congr {pass : Pass} {tree : NodeTree} {useLiterals : Bool}
    {value value' : Node → Option Resolved} {node : Node} {r : Record}
    (h : pass.Compiled tree useLiterals value node r) (hn : value' node = value node)
    (hf : ∀ b, tree.Follows node b → value' b = value b) :
    pass.Compiled tree useLiterals value' node r := by
  obtain ⟨category, id, desc, hk, hd, hv, hr⟩ := h
  refine ⟨category, id, desc, hk, hd, hn.trans hv, ?_⟩
  rw [NodeTree.supplies_congr hf]
  exact hr

end ShadeNet
