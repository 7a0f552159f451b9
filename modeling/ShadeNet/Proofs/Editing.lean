/-
# What editing keeps of a tree

A tree is edited by adding and removing nodes and by making and removing connections, in any
order and any number of times. What one change keeps, a whole history keeps: nodes stand under
their own names, links join two nodes of the tree, and no two of them end at one input. A link
to a node that was removed is a new one, made after the node was added again; and what a
connection has added is what is removed by its identity, whatever was connected since.

Key definitions: `Edit`, `NodeTree.edit`, `NodeTree.edited`, `NodeTree.Joins`, `NodeTree.Tidy`.
Key theorems: `connectLink_eq_ok_iff`, `mem_links_edit`, `Tidy.edit`, `connected_since`,
`edited_tree_tidy`.
-/
import ShadeNet.Proofs.Upstream

namespace ShadeNet

/-- One change of a tree. -/
inductive Edit
  /-- A node is added, in place of one that has its name. -/
  | addNode (node : Node)
  /-- A node is removed. -/
  | removeNode (name : String)
  /-- The ends of a link are joined, by a link of its identity. -/
  | connect (link : Link)
  /-- The link of an identity is removed. -/
  | disconnect (id : LinkId)

namespace NodeTree

/-- Joins the ends of a link, by a link of its identity. -/
def connectLink (t : NodeTree) (l : Link) : Except ConnectionError NodeTree :=
  t.connect l.id l.source l.target

/-- The tree after a change; there is no change if a connection is refused. -/
def edit (t : NodeTree) : Edit → NodeTree
  | .addNode node => t.addNode node
  | .removeNode name => t.removeNode name
  | .connect link => match t.connectLink link with
    | .ok joined => joined
    | .error _ => t
  | .disconnect id => t.disconnect id

/-- What a history of changes makes of an empty tree. -/
def edited (name : String) (edits : List Edit) : NodeTree := edits.foldl edit { name := name }

theorem edited_concat (name : String) (edits : List Edit) (e : Edit) :
    edited name (edits ++ [e]) = (edited name edits).edit e := by
  simp [edited]

theorem edited_append (name : String) (edits further : List Edit) :
    edited name (edits ++ further) = further.foldl edit (edited name edits) := by
  simp [edited]

/-- A link goes from an output of one node to an input of another, and these may be joined. -/
def Joins (t : NodeTree) (l : Link) : Prop :=
  ∃ output input, t.outputAt? l.source = some output ∧ t.inputAt? l.target = some input ∧
    output.joins input = true

variable {t u : NodeTree} {l : Link} {e : Edit}

/-! ### Sockets -/

theorem outputAt?_congr {endpoint : Endpoint} (h : u.node? endpoint.node = t.node? endpoint.node) :
    u.outputAt? endpoint = t.outputAt? endpoint := by
  rw [outputAt?, outputAt?, h]

theorem inputAt?_congr {endpoint : Endpoint} (h : u.node? endpoint.node = t.node? endpoint.node) :
    u.inputAt? endpoint = t.inputAt? endpoint := by
  rw [inputAt?, inputAt?, h]

/-- Whether a link joins sockets depends on the nodes at its ends only. -/
theorem Joins.congr (h : t.Joins l) (hs : u.node? l.source.node = t.node? l.source.node)
    (ht : u.node? l.target.node = t.node? l.target.node) : u.Joins l := by
  obtain ⟨output, input, ho, hi, hj⟩ := h
  exact ⟨output, input, (outputAt?_congr hs).trans ho, (inputAt?_congr ht).trans hi, hj⟩

theorem Joins.source (h : t.Joins l) : ∃ node, t.node? l.source.node = some node := by
  obtain ⟨output, -, ho, -⟩ := h
  obtain ⟨node, hn, -⟩ := Option.bind_eq_some_iff.mp ho
  exact ⟨node, hn⟩

theorem Joins.target (h : t.Joins l) : ∃ node, t.node? l.target.node = some node := by
  obtain ⟨-, input, -, hi, -⟩ := h
  obtain ⟨node, hn, -⟩ := Option.bind_eq_some_iff.mp hi
  exact ⟨node, hn⟩

/-! ### What one change does -/

/-- A connection is made between sockets that may be joined, of different nodes, if no link
ends at the input; and then a link is added and nothing else changes. -/
theorem connectLink_eq_ok_iff : t.connectLink l = .ok u ↔
    t.Joins l ∧ (∀ m ∈ t.links, m.target ≠ l.target) ∧ l.source.node ≠ l.target.node ∧
      u = { t with links := t.links ++ [l] } := by
  have hfree : t.isLinked l.target = true ↔ ¬ ∀ m ∈ t.links, m.target ≠ l.target := by
    simp [isLinked, linkTo?]
  unfold connectLink connect requireNode Joins outputAt? inputAt?
  cases hs : t.node? l.source.node with
  | none => simp [bind, Except.bind]
  | some source =>
    cases ht : t.node? l.target.node with
    | none => simp [bind, Except.bind]
    | some target =>
      simp only [bind, Except.bind, Option.bind_some]
      cases ho : source.output? l.source.socket with
      | none => simp
      | some output =>
        cases hi : target.input? l.target.socket with
        | none => simp
        | some input =>
          by_cases hjoins : output.joins input = true
          · by_cases hlinked : t.isLinked l.target = true
            · simp [hjoins, hlinked, hfree.mp hlinked]
            · have hnone : ∀ m ∈ t.links, m.target ≠ l.target := by
                by_contra hsome
                exact hlinked (hfree.mpr hsome)
              by_cases hself : l.source.node = l.target.node
              · simp [hjoins, hlinked, hself]
              · simp only [hjoins, hlinked, hself, Bool.not_true, Bool.false_eq_true, if_false,
                  Except.ok.injEq]
                constructor
                · rintro rfl
                  exact ⟨⟨output, input, rfl, rfl, hjoins⟩, hnone, hself, rfl⟩
                · rintro ⟨-, -, -, rfl⟩
                  rfl
          · simp [hjoins]

/-- A connection that is made adds its link, and one that is refused nothing. -/
theorem edit_connect (t : NodeTree) (l : Link) :
    (t.connectLink l = .ok (t.edit (.connect l)) ∧
      t.edit (.connect l) = { t with links := t.links ++ [l] }) ∨
    (∃ error, t.connectLink l = .error error) ∧ t.edit (.connect l) = t := by
  cases h : t.connectLink l with
  | error error => exact Or.inr ⟨⟨error, rfl⟩, by simp [edit, h]⟩
  | ok joined =>
    have hedit : t.edit (.connect l) = joined := by simp [edit, h]
    refine Or.inl ⟨by rw [hedit], ?_⟩
    rw [hedit]
    exact (connectLink_eq_ok_iff.mp h).2.2.2

/-- Connections do not touch nodes. -/
theorem nodes_connect (t : NodeTree) (l : Link) : (t.edit (.connect l)).nodes = t.nodes := by
  rcases edit_connect t l with ⟨-, hadd⟩ | ⟨-, hkeep⟩
  · rw [hadd]
  · rw [hkeep]

/-- A link after a change was there before, or the change has made it. -/
theorem mem_links_edit (h : l ∈ (t.edit e).links) :
    l ∈ t.links ∨ e = .connect l ∧ t.connectLink l = .ok (t.edit e) := by
  cases e with
  | addNode node => exact Or.inl h
  | removeNode name => exact Or.inl (List.mem_of_mem_filter h)
  | disconnect id => exact Or.inl (List.mem_of_mem_eraseP h)
  | connect link =>
    rcases edit_connect t link with ⟨hok, hadd⟩ | ⟨-, hkeep⟩
    · rw [hadd] at h
      rcases List.mem_append.mp h with h | h
      · exact Or.inl h
      · cases List.mem_singleton.mp h
        exact Or.inr ⟨rfl, hok⟩
    · rw [hkeep] at h
      exact Or.inl h

/-- Only the removal of a node and the addition of a node change what stands under a name. -/
theorem node?_edit (name : String) : (t.edit e).node? name = t.node? name ∨
    e = .removeNode name ∧ (t.edit e).node? name = none ∨
    ∃ node, e = .addNode node ∧ node.name = name ∧ (t.edit e).node? name = some node := by
  cases e with
  | disconnect id => exact Or.inl rfl
  | connect link =>
    left
    rw [node?, nodes_connect]
    rfl
  | removeNode gone =>
    have hget : (t.removeNode gone).node? name = if gone = name then none else t.node? name :=
      OrderedMap.get?_erase t.nodes gone name
    by_cases hname : gone = name
    · rw [if_pos hname] at hget
      exact Or.inr (Or.inl ⟨by rw [hname], hget⟩)
    · rw [if_neg hname] at hget
      exact Or.inl hget
  | addNode node =>
    have hget : (t.addNode node).node? name = if node.name = name then some node else t.node? name :=
      OrderedMap.get?_insert t.nodes node.name node name
    by_cases hname : node.name = name
    · rw [if_pos hname] at hget
      exact Or.inr (Or.inr ⟨node, rfl, hname, hget⟩)
    · rw [if_neg hname] at hget
      exact Or.inl hget

/-- A link that the removal of a node leaves does not mention the node. -/
theorem not_involves_of_mem_removeNode {name : String} (h : l ∈ (t.removeNode name).links) :
    l.source.node ≠ name ∧ l.target.node ≠ name := by
  have hkept : l.involves name = false := by simpa using (List.mem_filter.mp h).2
  simpa [Link.involves] using hkept

/-- What stands at an end of a link that a change leaves is what stood there, unless the change
has added it. -/
theorem node?_edit_end (h : l ∈ (t.edit e).links) {name : String}
    (hend : name = l.source.node ∨ name = l.target.node) :
    (t.edit e).node? name = t.node? name ∨
      ∃ node, e = .addNode node ∧ (t.edit e).node? name = some node := by
  rcases node?_edit (t := t) (e := e) name with hsame | ⟨rfl, -⟩ | ⟨node, he, -, hnode⟩
  · exact Or.inl hsame
  · obtain ⟨hs, ht⟩ := not_involves_of_mem_removeNode h
    rcases hend with rfl | rfl
    · exact absurd rfl hs
    · exact absurd rfl ht
  · exact Or.inr ⟨node, he, hnode⟩

/-- A link that a change leaves has a node at each end if it had one there before. -/
theorem exists_node_edit (h : l ∈ (t.edit e).links) {name : String}
    (hend : name = l.source.node ∨ name = l.target.node)
    (hn : ∃ node, t.node? name = some node) : ∃ node, (t.edit e).node? name = some node := by
  rcases node?_edit_end h hend with hsame | ⟨node, -, hnode⟩
  · rw [hsame]
    exact hn
  · exact ⟨node, hnode⟩

/-! ### Tidy trees -/

/-- What editing keeps of a tree: nodes are stored under their own names, links join different
nodes of the tree, and no two of them end at one input. -/
structure Tidy (t : NodeTree) : Prop where
  keyed : t.Keyed
  source : ∀ l ∈ t.links, ∃ node, t.node? l.source.node = some node
  target : ∀ l ∈ t.links, ∃ node, t.node? l.target.node = some node
  apart : ∀ l ∈ t.links, l.source.node ≠ l.target.node
  single : (t.links.map (·.target)).Nodup

theorem tidy_empty (name : String) : Tidy { name := name } where
  keyed := by simp [Keyed, OrderedMap.entries_empty]
  source := by simp
  target := by simp
  apart := by simp
  single := by simp

theorem Keyed.edit (h : t.Keyed) (e : Edit) : (t.edit e).Keyed := by
  cases e with
  | addNode node => exact h.addNode node
  | removeNode name => exact h.removeNode name
  | disconnect id => exact h
  | connect link =>
    rw [Keyed, nodes_connect]
    exact h

theorem single_edit (h : (t.links.map (·.target)).Nodup) (e : Edit) :
    ((t.edit e).links.map (·.target)).Nodup := by
  cases e with
  | addNode node => exact h
  | removeNode name => exact h.sublist (List.filter_sublist.map _)
  | disconnect id => exact h.sublist (List.eraseP_sublist.map _)
  | connect link =>
    rcases edit_connect t link with ⟨hok, hadd⟩ | ⟨-, hkeep⟩
    · obtain ⟨-, hfree, -⟩ := connectLink_eq_ok_iff.mp hok
      rw [hadd]
      simp only [List.map_append, List.map_cons, List.map_nil]
      refine List.nodup_append.mpr ⟨h, by simp, fun a ha b hb => ?_⟩
      obtain ⟨m, hm, rfl⟩ := List.mem_map.mp ha
      rw [List.mem_singleton.mp hb]
      exact hfree m hm
    · rw [hkeep]
      exact h

/-- **What one change keeps.** -/
theorem Tidy.edit (h : t.Tidy) (e : Edit) : (t.edit e).Tidy where
  keyed := h.keyed.edit e
  source l hl := by
    rcases mem_links_edit hl with hold | ⟨rfl, hok⟩
    · exact exists_node_edit hl (Or.inl rfl) (h.source l hold)
    · exact exists_node_edit hl (Or.inl rfl) (connectLink_eq_ok_iff.mp hok).1.source
  target l hl := by
    rcases mem_links_edit hl with hold | ⟨rfl, hok⟩
    · exact exists_node_edit hl (Or.inr rfl) (h.target l hold)
    · exact exists_node_edit hl (Or.inr rfl) (connectLink_eq_ok_iff.mp hok).1.target
  apart l hl := by
    rcases mem_links_edit hl with hold | ⟨rfl, hok⟩
    · exact h.apart l hold
    · exact (connectLink_eq_ok_iff.mp hok).2.2.1
  single := single_edit h.single e

/-- What a history keeps. -/
theorem tidy_edited (name : String) (edits : List Edit) : (edited name edits).Tidy := by
  induction edits using List.reverseRecOn with
  | nil => exact tidy_empty name
  | append_singleton edits e ih =>
    rw [edited_concat]
    exact ih.edit e

/-- In a tree whose nodes are stored under their own names no two nodes have one name. -/
theorem Keyed.names_nodup (h : t.Keyed) : (t.nodes.values.map (·.name)).Nodup := by
  have hkeys : t.nodes.values.map (·.name) = t.nodes.keys := by
    unfold OrderedMap.values OrderedMap.keys
    rw [List.map_map]
    exact List.map_congr_left h
  rw [hkeys]
  exact t.nodes.keys_nodup

/-! ### Histories -/

/-- A link after a history was there before, or it was connected in the course of it. -/
theorem connected_since {edits : List Edit} (h : l ∈ (edits.foldl edit t).links) :
    l ∈ t.links ∨ ∃ before after, edits = before ++ .connect l :: after ∧
      (before.foldl edit t).connectLink l = .ok ((before ++ [Edit.connect l]).foldl edit t) := by
  induction edits using List.reverseRecOn with
  | nil => exact Or.inl h
  | append_singleton edits e ih =>
    simp only [List.foldl_append, List.foldl_cons, List.foldl_nil] at h
    rcases mem_links_edit h with hold | ⟨rfl, hok⟩
    · rcases ih hold with hstart | ⟨before, after, rfl, hok⟩
      · exact Or.inl hstart
      · exact Or.inr ⟨before, after ++ [e], by simp, hok⟩
    · exact Or.inr ⟨edits, [], rfl, by simpa using hok⟩

/-- A node that a history brings into a tree was added in the course of it. -/
theorem added_since {edits : List Edit} {name : String} {node : Node}
    (h : (edits.foldl edit t).node? name = some node) (hnone : t.node? name = none) :
    ∃ added, .addNode added ∈ edits ∧ added.name = name := by
  induction edits using List.reverseRecOn generalizing node with
  | nil =>
    rw [List.foldl_nil, hnone] at h
    cases h
  | append_singleton edits e ih =>
    simp only [List.foldl_append, List.foldl_cons, List.foldl_nil] at h
    rcases node?_edit (t := edits.foldl edit t) (e := e) name with hsame | ⟨-, hgone⟩ |
      ⟨added, rfl, hname, -⟩
    · obtain ⟨added, hmem, hname⟩ := ih (hsame.symm.trans h)
      exact ⟨added, List.mem_append_left _ hmem, hname⟩
    · rw [hgone] at h
      cases h
    · exact ⟨added, by simp, hname⟩

/-- A link that mentions a node that was removed was connected after the node was added again. -/
theorem readded_of_involves {after : List Edit} {gone : String}
    (h : l ∈ (after.foldl edit (t.removeNode gone)).links) (hl : l.involves gone = true) :
    ∃ mid rest, after = mid ++ .connect l :: rest ∧
      (mid.foldl edit (t.removeNode gone)).connectLink l =
        .ok ((mid ++ [Edit.connect l]).foldl edit (t.removeNode gone)) ∧
      ∃ node, .addNode node ∈ mid ∧ node.name = gone := by
  rcases connected_since h with hold | ⟨mid, rest, rfl, hok⟩
  · obtain ⟨hs, ht⟩ := not_involves_of_mem_removeNode hold
    simp [Link.involves, hs, ht] at hl
  · have hnone : (t.removeNode gone).node? gone = none := by
      have hget := OrderedMap.get?_erase t.nodes gone gone
      rwa [if_pos rfl] at hget
    have hjoins := (connectLink_eq_ok_iff.mp hok).1
    refine ⟨mid, rest, rfl, hok, ?_⟩
    rcases (by simpa [Link.involves] using hl : l.source.node = gone ∨ l.target.node = gone) with
      hend | hend
    · obtain ⟨node, hn⟩ := hjoins.source
      exact added_since (hend ▸ hn) hnone
    · obtain ⟨node, hn⟩ := hjoins.target
      exact added_since (hend ▸ hn) hnone

/-! ### Connecting and disconnecting -/

/-- Connections that are all made add their links in order. -/
theorem foldlM_connectLink {further : List Link} (h : further.foldlM connectLink t = .ok u) :
    u = { t with links := t.links ++ further } := by
  induction further generalizing t with
  | nil =>
    cases h
    simp
  | cons l rest ih =>
    rw [List.foldlM_cons] at h
    cases hl : t.connectLink l with
    | error error =>
      rw [hl] at h
      cases h
    | ok joined =>
      rw [hl] at h
      rw [ih h, (connectLink_eq_ok_iff.mp hl).2.2.2]
      simp

/-- What was connected under a new identity is what is removed under it. -/
theorem disconnect_connected {further : List Link} {joined : NodeTree}
    (hnew : ∀ m ∈ t.links, m.id ≠ l.id) (hl : t.connectLink l = .ok joined)
    (h : further.foldlM connectLink joined = .ok u) :
    u.link? l.id = some l ∧ u.disconnect l.id = { t with links := t.links ++ further } := by
  have hu : u = { t with links := t.links ++ l :: further } := by
    rw [foldlM_connectLink h, (connectLink_eq_ok_iff.mp hl).2.2.2]
    simp
  have hnone : t.links.find? (·.id = l.id) = none := by simpa using hnew
  rw [hu]
  constructor
  · simp [link?, List.find?_append, hnone]
  · have herase : (t.links ++ l :: further).eraseP (·.id = l.id) = t.links ++ further := by
      rw [List.eraseP_append_right _ (by simpa using hnew), List.eraseP_cons_of_pos (by simp)]
    simp only [disconnect, herase]

/-- **What holds of a tree that was only edited.** Whatever the history, nodes have different
names and are stored under them, no two links end at one input, and none joins a node to
itself. A link that mentions a node that was removed was connected after it was added again. A
connection that is refused changes nothing. One that is made under a new identity, and then
removed by it after any further connections, is the link that is removed, and the others are
left in their order. -/
theorem edited_tree_tidy (name : String) (edits : List Edit) :
    let t := edited name edits
    ((t.nodes.values.map (·.name)).Nodup ∧
      (∀ key node, t.node? key = some node → node.name = key) ∧
      (t.links.map (·.target)).Nodup ∧ ∀ l ∈ t.links, l.source.node ≠ l.target.node) ∧
    (∀ before gone after, edits = before ++ .removeNode gone :: after →
      ∀ l ∈ t.links, l.involves gone = true →
        ∃ mid rest, after = mid ++ .connect l :: rest ∧
          (edited name (before ++ .removeNode gone :: mid)).connectLink l =
            .ok (edited name (before ++ .removeNode gone :: (mid ++ [.connect l]))) ∧
          ∃ node, .addNode node ∈ mid ∧ node.name = gone) ∧
    (∀ l error, t.connectLink l = .error error → edited name (edits ++ [.connect l]) = t) ∧
    ∀ l joined further last, (∀ m ∈ t.links, m.id ≠ l.id) → t.connectLink l = .ok joined →
      further.foldlM connectLink joined = .ok last →
      last.link? l.id = some l ∧ last.disconnect l.id = { t with links := t.links ++ further } := by
  intro t
  have htidy : t.Tidy := tidy_edited name edits
  refine ⟨⟨htidy.keyed.names_nodup, fun key node hn => ?_, htidy.single, htidy.apart⟩, ?_, ?_, ?_⟩
  · exact htidy.keyed _ (OrderedMap.mem_of_lookupEntry hn)
  · rintro before gone after rfl l hl hgone
    have hsplit : ∀ further, edited name (before ++ .removeNode gone :: further) =
        further.foldl edit ((edited name before).removeNode gone) := by
      intro further
      rw [edited_append]
      rfl
    simp only [t, hsplit] at hl ⊢
    exact readded_of_involves hl hgone
  · intro l error herror
    rw [edited_concat]
    rcases edit_connect t l with ⟨hok, -⟩ | ⟨-, hkeep⟩
    · rw [herror] at hok
      cases hok
    · exact hkeep
  · intro l joined further last hnew hl h
    exact disconnect_connected hnew hl h

/-- A bulb with a socket on either side. -/
def bulb (name : String) : Node :=
  { name := name, kind := .unset, inputs := [⟨"In", .input, .float, none, none⟩],
    outputs := [⟨"Out", .output, .float, none, none⟩] }

/-- The link with which one bulb feeds another. -/
def wire (id : BitVec 128) (source target : String) : Link :=
  ⟨⟨id⟩, ⟨source, "Out"⟩, ⟨target, "In"⟩⟩

/-- A chain of bulbs from which one is taken out and put back. A second link into the last bulb
and a link of a bulb to itself are refused. -/
def rewiring : List Edit :=
  [.addNode (bulb "A"), .addNode (bulb "B"), .addNode (bulb "C"), .connect (wire 1 "A" "B"),
    .connect (wire 2 "B" "C"), .connect (wire 3 "A" "C"), .connect (wire 4 "A" "A"),
    .removeNode "B", .addNode (bulb "B"), .connect (wire 5 "B" "C")]

theorem edited_tree_tidy_rewiring :
    let t := edited "Chain" rewiring
    t.links = [wire 5 "B" "C"] ∧
      (∃ mid rest, rewiring.drop 8 = mid ++ .connect (wire 5 "B" "C") :: rest ∧
        ∃ node, .addNode node ∈ mid ∧ node.name = "B") ∧
      ∃ joined last, t.connectLink (wire 6 "A" "B") = .ok joined ∧
        [wire 7 "C" "A"].foldlM connectLink joined = .ok last ∧
        last.link? ⟨6⟩ = some (wire 6 "A" "B") ∧
        (last.disconnect ⟨6⟩).links = [wire 5 "B" "C", wire 7 "C" "A"] := by
  intro t
  have hlinks : t.links = [wire 5 "B" "C"] := by decide
  obtain ⟨-, hreadded, -, hremoved⟩ := edited_tree_tidy "Chain" rewiring
  refine ⟨hlinks, ?_, ?_⟩
  · obtain ⟨mid, rest, hafter, -, hnode⟩ := hreadded (rewiring.take 7) "B" (rewiring.drop 8) rfl
      (wire 5 "B" "C") (by rw [hlinks]; simp) (by decide)
    exact ⟨mid, rest, hafter, hnode⟩
  · have hjoined : t.connectLink (wire 6 "A" "B") = .ok (t.edit (.connect (wire 6 "A" "B"))) := by
      decide
    have hlast : [wire 7 "C" "A"].foldlM connectLink (t.edit (.connect (wire 6 "A" "B"))) =
        .ok ((t.edit (.connect (wire 6 "A" "B"))).edit (.connect (wire 7 "C" "A"))) := by
      decide
    have hnew : ∀ m ∈ t.links, m.id ≠ (wire 6 "A" "B").id := by decide
    obtain ⟨hlink, hdisconnect⟩ := hremoved _ _ _ _ hnew hjoined hlast
    refine ⟨_, _, hjoined, hlast, hlink, ?_⟩
    calc (disconnect _ (wire 6 "A" "B").id).links = t.links ++ [wire 7 "C" "A"] :=
          congrArg NodeTree.links hdisconnect
      _ = [wire 5 "B" "C", wire 7 "C" "A"] := by rw [hlinks]; rfl

end NodeTree

end ShadeNet
