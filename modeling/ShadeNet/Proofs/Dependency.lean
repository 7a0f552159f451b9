/-
# When a tree has a dependency order

The walk that orders a tree goes up the links, by the names of nodes, and remembers the
names it is in and the list it has made. Here it is described as it runs, with no bound on
its depth. It comes to an end in every tree, since the names it is in are different ones and
a tree mentions so many only. What it ends with is a list in which everything stands behind
what it is linked from, or a name that it met while it was in it; such a name is on a ring of
links, and where a ring can be reached there is no list.

Key definitions: `NodeTree.Draws`, `NodeTree.Walks`.
Key theorems: `walks_dependencyOrder`, `Walks.functional`, `Walks.ring`,
`dependency_order_exact`.
-/
import ShadeNet.Proofs.Ordered

namespace ShadeNet

open Relation

/-- In a list in which everything stands behind what it needs, what is needed stands strictly
earlier. -/
theorem BehindAll.idxOf_lt {α : Type} [DecidableEq α] {R : α → α → Prop} {l : List α} {a b : α}
    (h : BehindAll R l) (ha : a ∈ l) (hab : R a b) : l.idxOf b < l.idxOf a := by
  obtain ⟨before, after, rfl, hnew⟩ := List.eq_append_cons_of_mem ha
  have hb : b ∈ before := h before a after rfl b hab
  have hidxa : (before ++ a :: after).idxOf a = before.length := by
    simp [List.idxOf_append, hnew]
  have hidxb : (before ++ a :: after).idxOf b = before.idxOf b := by
    simp [List.idxOf_append, hb]
  rw [hidxa, hidxb]
  exact List.idxOf_lt_length_of_mem hb

namespace NodeTree

variable {tree : NodeTree} {path order names : List String}

/-! ### The walk -/

/-- A link goes from `b` to `a`, which are nodes or names that only links mention. -/
def Draws (tree : NodeTree) (a b : String) : Prop :=
  ∃ link ∈ tree.links, link.target.node = a ∧ link.source.node = b

theorem mem_feeders {a b : String} : b ∈ tree.feeders a ↔ tree.Draws a b := by
  simp [feeders, Draws, and_assoc]

/-- How the walk goes up from names, one after another, while it is in the names of `path` and
has listed `order`, and what it comes to. It goes as deep as it has to. -/
inductive Walks (tree : NodeTree) :
    List String → List String → List String → Except CycleError (List String) → Prop
  /-- All names are listed. -/
  | done (path order : List String) : Walks tree path order [] (.ok order)
  /-- A name is met that the walk is in. -/
  | met {path : List String} (order : List String) {name : String} (rest : List String) :
      name ∈ path → Walks tree path order (name :: rest) (.error ⟨name⟩)
  /-- A name is listed already. -/
  | listed {path order : List String} {name : String} {rest : List String}
      {result : Except CycleError (List String)} :
      name ∉ path → name ∈ order → Walks tree path order rest result →
      Walks tree path order (name :: rest) result
  /-- The walk fails above a name. -/
  | failed {path order : List String} {name : String} (rest : List String) {error : CycleError} :
      name ∉ path → name ∉ order →
      Walks tree (name :: path) order (tree.feeders name) (.error error) →
      Walks tree path order (name :: rest) (.error error)
  /-- A name is listed behind all that feeds it. -/
  | entered {path order above : List String} {name : String} {rest : List String}
      {result : Except CycleError (List String)} :
      name ∉ path → name ∉ order →
      Walks tree (name :: path) order (tree.feeders name) (.ok above) →
      Walks tree path (above ++ [name]) rest result →
      Walks tree path order (name :: rest) result

/-- The walk comes to one result at most. -/
theorem Walks.functional {r r' : Except CycleError (List String)}
    (h : tree.Walks path order names r) (h' : tree.Walks path order names r') : r = r' := by
  induction h generalizing r' with
  | done => cases h'; rfl
  | met order rest hpath =>
    cases h' with
    | met => rfl
    | listed hnot | failed _ hnot | entered hnot => exact absurd hpath hnot
  | listed hpath horder _ ih =>
    cases h' with
    | met _ _ hin => exact absurd hin hpath
    | listed _ _ hrest => exact ih hrest
    | failed _ _ hnot | entered _ hnot => exact absurd horder hnot
  | failed rest hpath horder _ ih =>
    cases h' with
    | met _ _ hin => exact absurd hin hpath
    | listed _ hin => exact absurd hin horder
    | failed _ _ _ habove => exact ih habove
    | entered _ _ habove => cases ih habove
  | entered hpath horder _ _ ihabove ih =>
    cases h' with
    | met _ _ hin => exact absurd hin hpath
    | listed _ hin => exact absurd hin horder
    | failed _ _ _ habove => cases ihabove habove
    | entered _ _ habove hrest =>
      cases ihabove habove
      exact ih hrest

/-! ### The walk ends -/

/-- The names of a tree: its nodes, and whatever a link starts at. -/
def mentioned (tree : NodeTree) : List String := tree.nodes.keys ++ tree.links.map (·.source.node)

theorem length_mentioned (tree : NodeTree) : tree.mentioned.length < tree.walkDepth := by
  simp [mentioned, walkDepth, OrderedMap.keys, OrderedMap.size]

theorem feeders_subset_mentioned (name : String) : tree.feeders name ⊆ tree.mentioned := by
  intro feeder hf
  obtain ⟨link, hl, -, rfl⟩ := mem_feeders.mp hf
  exact List.mem_append_right _ (List.mem_map_of_mem hl)

section Visit

variable {depth : Nat} {name : String}

theorem visit_met (h : name ∈ path) :
    tree.visit (depth + 1) path order name = .error ⟨name⟩ := by
  simp [visit, h]

theorem visit_listed (hpath : name ∉ path) (h : name ∈ order) :
    tree.visit (depth + 1) path order name = .ok order := by
  simp [visit, hpath, h]

/-- A name that is met for the first time is listed behind all that feeds it. -/
theorem visit_new (hpath : name ∉ path) (horder : name ∉ order) :
    tree.visit (depth + 1) path order name =
      (tree.feeders name).foldlM (tree.visit depth (name :: path)) order >>=
        fun above => .ok (above ++ [name]) := by
  simp only [visit, if_neg hpath, if_neg horder]
  rfl

end Visit

/-- A depth that leaves room for the names the walk is not in is never used up. -/
theorem walks_foldlM {depth : Nat} (hnodup : path.Nodup) (hpath : path ⊆ tree.mentioned)
    (hnames : names ⊆ tree.mentioned) (hdepth : tree.mentioned.length < path.length + depth) :
    tree.Walks path order names (names.foldlM (tree.visit depth path) order) := by
  induction depth generalizing path order names with
  | zero =>
    have hle : path.length ≤ tree.mentioned.length := hnodup.length_le_of_subset hpath
    omega
  | succ depth ih =>
    induction names generalizing order with
    | nil => exact .done path order
    | cons name rest ihrest =>
      obtain ⟨hname, hrest⟩ := List.cons_subset.mp hnames
      rw [List.foldlM_cons]
      by_cases hin : name ∈ path
      · rw [visit_met hin]
        exact .met order rest hin
      by_cases hold : name ∈ order
      · rw [visit_listed hin hold]
        exact .listed hin hold (ihrest hrest)
      -- above `name` the walk is in one name more, and one level of depth is spent
      have habove : tree.Walks (name :: path) order (tree.feeders name)
          ((tree.feeders name).foldlM (tree.visit depth (name :: path)) order) := by
        apply ih (List.nodup_cons.mpr ⟨hin, hnodup⟩) (List.cons_subset.mpr ⟨hname, hpath⟩)
          (feeders_subset_mentioned name)
        simp only [List.length_cons]
        omega
      rw [visit_new hin hold]
      cases hres : (tree.feeders name).foldlM (tree.visit depth (name :: path)) order with
      | error e =>
        rw [hres] at habove
        exact .failed rest hin hold habove
      | ok above =>
        rw [hres] at habove
        exact .entered hin hold habove (ihrest hrest)

/-- The bound that the order of a tree is found with changes nothing. -/
theorem walks_dependencyOrder (tree : NodeTree) :
    tree.Walks [] [] tree.nodes.keys tree.dependencyOrder := by
  apply walks_foldlM List.nodup_nil (List.nil_subset _) (List.subset_append_left _ _)
  have hlen := length_mentioned tree
  simpa using hlen

/-! ### What it fails with -/

/-- If every name that the walk is in leads to every name it goes up from, it fails at a name
on a ring of links only, and one of the names it goes up from leads there. -/
theorem Walks.ring {error : CycleError} (h : tree.Walks path order names (.error error))
    (hlead : ∀ a ∈ path, ∀ b ∈ names, TransGen tree.Draws a b) :
    TransGen tree.Draws error.node error.node ∧
      ∃ name ∈ names, ReflTransGen tree.Draws name error.node := by
  generalize hr : (Except.error error : Except CycleError (List String)) = r at h
  induction h with
  | done => cases hr
  | met order rest hpath =>
    cases hr
    exact ⟨hlead _ hpath _ List.mem_cons_self, _, List.mem_cons_self, .refl⟩
  | listed _ _ _ ih | entered _ _ _ _ _ ih =>
    obtain ⟨hring, name, hname, hreach⟩ :=
      ih (fun a ha b hb => hlead a ha b (List.mem_cons_of_mem _ hb)) hr
    exact ⟨hring, name, List.mem_cons_of_mem _ hname, hreach⟩
  | @failed path order name rest e _ _ _ ih =>
    -- above `name` the walk is in `name` as well, and `name` leads to what feeds it
    have habove : ∀ a ∈ name :: path, ∀ b ∈ tree.feeders name, TransGen tree.Draws a b := by
      intro a ha b hb
      have hstep : tree.Draws name b := mem_feeders.mp hb
      rcases List.mem_cons.mp ha with rfl | ha
      · exact .single hstep
      · exact (hlead a ha name List.mem_cons_self).tail hstep
    obtain ⟨hring, feeder, hfeeder, hreach⟩ := ih habove hr
    exact ⟨hring, name, List.mem_cons_self, hreach.head (mem_feeders.mp hfeeder)⟩

/-- **A tree has an order exactly if no ring of links can be reached.** Whatever the links of a
tree are, the walk up the links comes to an end, and the order is what it comes to. It is a
list if and only if no name on a ring of links can be reached from a node; the list has no
name twice and all nodes, and the source of a link stands strictly before its target where
the target is listed. Otherwise it is a name on a ring of links that a node leads to. -/
theorem dependency_order_exact (tree : NodeTree) :
    (∀ result, tree.Walks [] [] tree.nodes.keys result ↔ tree.dependencyOrder = result) ∧
    ((∃ order, tree.dependencyOrder = .ok order) ↔
      ∀ node ∈ tree.nodes.keys, ∀ name, ReflTransGen tree.Draws node name →
        ¬ TransGen tree.Draws name name) ∧
    (∀ order, tree.dependencyOrder = .ok order → order.Nodup ∧ tree.nodes.keys ⊆ order ∧
      ∀ link ∈ tree.links, link.target.node ∈ order → link.source.node ∈ order ∧
        order.idxOf link.source.node < order.idxOf link.target.node) ∧
    ∀ error, tree.dependencyOrder = .error error →
      TransGen tree.Draws error.node error.node ∧
        ∃ node ∈ tree.nodes.keys, ReflTransGen tree.Draws node error.node := by
  have hwalk : tree.Walks [] [] tree.nodes.keys tree.dependencyOrder := walks_dependencyOrder tree
  have hbehind : ∀ order, tree.dependencyOrder = .ok order →
      order.Nodup ∧ BehindAll tree.Draws order ∧ tree.nodes.keys ⊆ order := by
    intro order h
    obtain ⟨hlisting, hkeys⟩ := dependencyOrder_listing h
    exact ⟨hlisting.nodup, fun before a after hl b hb =>
      hlisting.behind before a after hl b (mem_feeders.mpr hb), hkeys⟩
  have herror : ∀ error, tree.dependencyOrder = .error error →
      TransGen tree.Draws error.node error.node ∧
        ∃ node ∈ tree.nodes.keys, ReflTransGen tree.Draws node error.node := by
    intro error h
    rw [h] at hwalk
    exact hwalk.ring (by simp)
  refine ⟨fun result => ⟨hwalk.functional, fun h => h ▸ hwalk⟩, ⟨?_, fun hfree => ?_⟩, ?_, herror⟩
  · rintro ⟨order, h⟩ node hnode name hreach
    obtain ⟨hnodup, hb, hkeys⟩ := hbehind order h
    exact hb.not_cycle hnodup (hb.mem_of_reach (hkeys hnode) hreach)
  · cases h : tree.dependencyOrder with
    | ok order => exact ⟨order, rfl⟩
    | error error =>
      obtain ⟨hring, node, hnode, hreach⟩ := herror error h
      exact absurd hring (hfree node hnode _ hreach)
  · intro order h
    obtain ⟨hnodup, hb, hkeys⟩ := hbehind order h
    refine ⟨hnodup, hkeys, fun link hl ht => ?_⟩
    have hdraws : tree.Draws link.target.node link.source.node := ⟨link, hl, rfl, rfl⟩
    exact ⟨hb.mem ht hdraws, hb.idxOf_lt ht hdraws⟩

/-- A lamp that is linked from a name that is no node and that, over another such name, is
linked from itself. -/
def haunted : NodeTree where
  name := "Haunted"
  nodes := .ofList [("Lamp", { name := "Lamp", kind := .unset })]
  links := [⟨⟨1⟩, ⟨"Ghost", "Out"⟩, ⟨"Lamp", "In"⟩⟩, ⟨⟨2⟩, ⟨"Shade", "Out"⟩, ⟨"Ghost", "In"⟩⟩,
    ⟨⟨3⟩, ⟨"Ghost", "Out"⟩, ⟨"Shade", "In"⟩⟩]

theorem dependency_order_exact_haunted :
    (wicker.dependencyOrder = .ok ["Dye", "Lost", "Cane", "Weave", "End"] ∧
      ∀ link ∈ wicker.links, link.target.node ∈ ["Dye", "Lost", "Cane", "Weave", "End"] →
        link.source.node ∈ ["Dye", "Lost", "Cane", "Weave", "End"]) ∧
    haunted.dependencyOrder = .error ⟨"Ghost"⟩ ∧ TransGen haunted.Draws "Ghost" "Ghost" := by
  have hwicker : wicker.dependencyOrder = .ok ["Dye", "Lost", "Cane", "Weave", "End"] := by decide
  have hhaunted : haunted.dependencyOrder = .error ⟨"Ghost"⟩ := by decide
  obtain ⟨-, -, hsorted, -⟩ := dependency_order_exact wicker
  obtain ⟨-, -, -, hring⟩ := dependency_order_exact haunted
  refine ⟨⟨hwicker, fun link hl ht => ?_⟩, hhaunted, (hring _ hhaunted).1⟩
  exact ((hsorted _ hwicker).2.2 link hl ht).1

end NodeTree

end ShadeNet
