/-
# When a link of an edited tree dangles

A connection is made between sockets that may be joined, and the removal of a node takes the
links at it along. The addition of a node in place of another leaves the links as they are, so
a link may lose a socket by it, and by nothing else: as long as no node is added that takes a
socket away from a link, all links of an edited tree join existing sockets, and a check against
any catalog finds none that dangles.

Key definitions: `NodeTree.Unseats`.
Key theorems: `Joins.edit`, `mem_check_danglingLink`, `joins_or_unseated`,
`edited_links_join`.
-/
import ShadeNet.Proofs.Editing
import ShadeNet.Schema.Builtin
import ShadeNet.Schema.Check

namespace ShadeNet

/-! ### Checks -/

/-- The check of a node against a catalog finds nothing about links. -/
theorem Catalog.danglingLink_notMem_checkNode (c : Catalog) (node : Node) (tree : String)
    (source target : Endpoint) : .danglingLink tree source target ∉ c.checkNode node := by
  intro hmem
  unfold Catalog.checkNode at hmem
  split at hmem
  · split at hmem
    · simp at hmem
    · rcases List.mem_append.mp hmem with hmem | hmem
      · obtain ⟨e, -, he⟩ := List.mem_filterMap.mp hmem
        unfold Catalog.checkParam at he
        split at he
        · cases he
        · split at he <;> cases he
      · obtain ⟨socket, -, hs⟩ := List.mem_filterMap.mp hmem
        unfold Catalog.checkInput at hs
        split at hs
        · cases hs
        · split at hs <;> cases hs
  · cases hmem

namespace NodeTree

variable {t : NodeTree} {l : Link} {e : Edit}

/-- The check of a tree finds the links of which an end is missing. -/
theorem mem_check_danglingLink {c : Catalog} {tree : String} {source target : Endpoint}
    (h : .danglingLink tree source target ∈ t.check c) :
    ∃ l ∈ t.links, l.source = source ∧ l.target = target ∧ t.dangles l = true := by
  rcases List.mem_append.mp h with h | h
  · obtain ⟨l, hl, he⟩ := List.mem_map.mp h
    obtain ⟨hmem, hdangles⟩ := List.mem_filter.mp hl
    cases he
    exact ⟨l, hmem, rfl, rfl, hdangles⟩
  · obtain ⟨node, -, hn⟩ := List.mem_flatMap.mp h
    rcases List.mem_append.mp hn with hn | hn
    · split at hn <;> simp at hn
    · exact absurd hn (c.danglingLink_notMem_checkNode node tree source target)

theorem Joins.dangles (h : t.Joins l) : t.dangles l = false := by
  obtain ⟨output, input, ho, hi, -⟩ := h
  simp [NodeTree.dangles, ho, hi]

instance (t : NodeTree) (l : Link) : Decidable (t.Joins l) :=
  decidable_of_iff
    (((t.outputAt? l.source).any fun output => (t.inputAt? l.target).any output.joins) = true) <| by
    cases ho : t.outputAt? l.source <;> cases hi : t.inputAt? l.target <;> simp [Joins, ho, hi]

/-! ### Nodes in place of others -/

/-- A node that is added takes a socket away from a link. -/
def Unseats (t : NodeTree) (node : Node) (l : Link) : Prop :=
  l ∈ t.links ∧ t.Joins l ∧ ¬ (t.addNode node).Joins l

instance (t : NodeTree) (node : Node) (l : Link) : Decidable (t.Unseats node l) :=
  inferInstanceAs (Decidable (_ ∧ _ ∧ ¬ _))

/-- A change that leaves a link leaves its sockets too, unless it adds a node without them. -/
theorem Joins.edit (h : t.Joins l) (hold : l ∈ t.links) (hl : l ∈ (t.edit e).links) :
    (t.edit e).Joins l ∨ ∃ node, e = .addNode node ∧ t.Unseats node l := by
  by_cases hj : (t.edit e).Joins l
  · exact Or.inl hj
  rcases node?_edit_end hl (Or.inl rfl) with hs | ⟨node, rfl, -⟩
  · rcases node?_edit_end hl (Or.inr rfl) with ht | ⟨node, rfl, -⟩
    · exact absurd (h.congr hs ht) hj
    · exact Or.inr ⟨node, rfl, hold, h, hj⟩
  · exact Or.inr ⟨node, rfl, hold, h, hj⟩

/-- What a history leaves of a link: it joins sockets, or a node was added that took one away. -/
theorem joins_or_unseated {name : String} {edits : List Edit} (h : l ∈ (edited name edits).links) :
    (edited name edits).Joins l ∨ ∃ before node after, edits = before ++ .addNode node :: after ∧
      (edited name before).Unseats node l := by
  induction edits using List.reverseRecOn with
  | nil => cases h
  | append_singleton edits e ih =>
    rw [edited_concat] at h ⊢
    rcases mem_links_edit h with hold | ⟨rfl, hok⟩
    · rcases ih hold with hj | ⟨before, node, after, rfl, hu⟩
      · rcases hj.edit hold h with hj | ⟨node, rfl, hu⟩
        · exact Or.inl hj
        · exact Or.inr ⟨edits, node, [], rfl, hu⟩
      · exact Or.inr ⟨before, node, after ++ [e], by simp, hu⟩
    · -- the nodes are the ones that the connection was checked against
      have hnodes : ∀ key, ((edited name edits).edit (.connect l)).node? key =
          (edited name edits).node? key := by
        intro key
        rw [node?, node?, nodes_connect]
      have hj : (edited name edits).Joins l := (connectLink_eq_ok_iff.mp hok).1
      exact Or.inl (hj.congr (hnodes _) (hnodes _))

/-- **Links of an edited tree dangle only where a node was added in place of another.** Every
link of an edited tree goes from one node of the tree to another. It goes from an output to an
input that may be joined, unless some node was added that took a socket away from it. If the
history has no such addition, all links join sockets, and no check finds one that dangles. -/
theorem edited_links_join (name : String) (edits : List Edit) :
    let t := edited name edits
    (∀ l ∈ t.links, (∃ node, t.node? l.source.node = some node) ∧
      (∃ node, t.node? l.target.node = some node) ∧
      (t.Joins l ∨ ∃ before node after, edits = before ++ .addNode node :: after ∧
        (edited name before).Unseats node l)) ∧
    ((∀ before node after, edits = before ++ .addNode node :: after →
        ∀ l, ¬ (edited name before).Unseats node l) →
      (∀ l ∈ t.links, t.Joins l) ∧
        ∀ catalog tree source target, .danglingLink tree source target ∉ t.check catalog) := by
  intro t
  have htidy : t.Tidy := tidy_edited name edits
  refine ⟨fun l hl => ⟨htidy.source l hl, htidy.target l hl, joins_or_unseated hl⟩, fun hseated => ?_⟩
  have hjoins : ∀ l ∈ t.links, t.Joins l := by
    intro l hl
    rcases joins_or_unseated hl with hj | ⟨before, node, after, he, hu⟩
    · exact hj
    · exact absurd hu (hseated before node after he l)
  refine ⟨hjoins, fun catalog tree source target hmem => ?_⟩
  obtain ⟨l, hl, -, -, hdangles⟩ := mem_check_danglingLink hmem
  rw [(hjoins l hl).dangles] at hdangles
  cases hdangles

/-- Two bulbs, of which the first is replaced by one with another socket besides. -/
def brightening : List Edit :=
  [.addNode (bulb "A"), .addNode (bulb "B"), .connect (wire 1 "A" "B"),
    .addNode { bulb "A" with outputs := [⟨"Glow", .output, .color, none, none⟩,
      ⟨"Out", .output, .int, none, none⟩] }]

theorem edited_links_join_brightening :
    (∀ before node after, brightening = before ++ .addNode node :: after →
      ∀ l, ¬ (edited "Pair" before).Unseats node l) ∧
    (edited "Pair" brightening).links = [wire 1 "A" "B"] ∧
    (edited "Pair" brightening).Joins (wire 1 "A" "B") ∧
    ∀ tree source target,
      .danglingLink tree source target ∉ (edited "Pair" brightening).check Catalog.builtin := by
  have hlinks : (edited "Pair" brightening).links = [wire 1 "A" "B"] := by decide
  have hseated : ∀ before node after, brightening = before ++ .addNode node :: after →
      ∀ l, ¬ (edited "Pair" before).Unseats node l := by
    intro before node after h l hu
    rcases before with _ | ⟨first, _ | ⟨second, _ | ⟨third, _ | ⟨fourth, before⟩⟩⟩⟩ <;>
      simp only [brightening, List.cons_append, List.nil_append, List.cons.injEq,
        Edit.addNode.injEq, reduceCtorEq, false_and, and_false] at h
    · exact absurd hu.1 List.not_mem_nil
    · obtain ⟨rfl, -⟩ := h
      exact absurd hu.1 List.not_mem_nil
    · -- the node in place of the first has an output of that name, too
      obtain ⟨rfl, rfl, rfl, rfl, -⟩ := h
      have hkeeps : ∀ m ∈ [wire 1 "A" "B"], ¬ (edited "Pair" (brightening.take 3)).Unseats
          { bulb "A" with outputs := [⟨"Glow", .output, .color, none, none⟩,
            ⟨"Out", .output, .int, none, none⟩] } m := by decide
      exact hkeeps l hu.1 hu
    · simp at h
  obtain ⟨-, hjoin⟩ := edited_links_join "Pair" brightening
  obtain ⟨hjoins, hcheck⟩ := hjoin hseated
  exact ⟨hseated, hlinks, hjoins _ (by rw [hlinks]; simp), hcheck Catalog.builtin⟩

/-- The first of two bulbs is replaced by one without an output: the link stays, and dangles. -/
theorem replaced_node_unseats :
    let t := edited "Pair" [.addNode (bulb "A"), .addNode (bulb "B"), .connect (wire 1 "A" "B"),
      .addNode { bulb "A" with outputs := [] }]
    wire 1 "A" "B" ∈ t.links ∧ ¬ t.Joins (wire 1 "A" "B") ∧
      .danglingLink "Pair" ⟨"A", "Out"⟩ ⟨"B", "In"⟩ ∈ t.check Catalog.builtin := by
  decide

end NodeTree

end ShadeNet
