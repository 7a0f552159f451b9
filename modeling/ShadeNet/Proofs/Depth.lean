/-
# The walk is not deeper than its bound

A node that is built is marked and an object that is compiled is entered, and no
mark is set twice, so a walk can set only so many. Between two marks it goes through
nodes that only pass something on. If no such node comes back to itself, there are at
most all nodes between two marks, and the walk ends within its bound.

Key definitions: `PassesTo`, `Scene.RingFree`, `Ledger.openCount`, `Guard.bounded`.
Key theorems: `openCount_mark_lt`, `openCount_enter_lt`, `Guard.keeps_walk`,
`Guard.compiles_compiler`.
-/
import Mathlib.Logic.Relation
import ShadeNet.Proofs.Frame

namespace ShadeNet

/-! ### Nodes that pass something on -/

/-- The node that feeds an input of a node. -/
def NodeTree.feeder? (tree : NodeTree) (node : Node) (input : String) : Option Node := do
  let socket ← node.input? input
  let link ← tree.linkTo? ⟨node.name, socket.name⟩
  tree.node? link.source.node

/-- The node, given by its tree and itself, whose value a node passes on while the
object of the given name is compiled. -/
inductive PassesTo (scene : Scene) (object : Option String) :
    NodeTree × Node → NodeTree × Node → Prop
  | material {tree node source refuses} : node.kind = .materialOutput refuses →
    tree.feeder? node "Material" = some source → PassesTo scene object (tree, node) (tree, source)
  | object {tree node source} : node.kind = .objectOutput →
    tree.feeder? node "Object" = some source → PassesTo scene object (tree, node) (tree, source)
  | slot {tree node name holder slot other output} : node.kind = .objectMaterial →
    object = some name → scene.object? name = some holder → slot ∈ holder.slots →
    slot.bind scene.materialTree? = some other → other.materialOutput? = some output →
    PassesTo scene object (tree, node) (other, output)

namespace Scene

/-- The nodes of the trees of a scene. -/
def positions (s : Scene) : List (NodeTree × Node) :=
  s.trees.values.flatMap fun tree => tree.nodes.values.map fun node => (tree, node)

/-- No node passes on, over others, what it has itself. -/
def RingFree (s : Scene) : Prop :=
  ∀ object, ∀ x ∈ s.positions, ¬ Relation.TransGen (PassesTo s object) x x

theorem length_positions (s : Scene) : s.positions.length = s.nodeCount := by
  simp [positions, nodeCount, List.length_flatMap]

theorem mem_positions {s : Scene} {tree : NodeTree} {node : Node} :
    (tree, node) ∈ s.positions ↔ tree ∈ s.trees.values ∧ node ∈ tree.nodes.values := by
  simp [positions]

end Scene

/-- The nodes over which a node is reached, none of them twice. -/
structure Behind (scene : Scene) (object : Option String) (chain : List (NodeTree × Node))
    (x : NodeTree × Node) : Prop where
  nodup : chain.Nodup
  known : chain ⊆ scene.positions
  leads : ∀ y ∈ chain, Relation.TransGen (PassesTo scene object) y x

namespace Behind

variable {scene : Scene} {object : Option String} {chain : List (NodeTree × Node)}
  {x y : NodeTree × Node}

theorem nil (scene : Scene) (object : Option String) (x : NodeTree × Node) :
    Behind scene object [] x := ⟨by simp, by simp, by simp⟩

/-- Where there is no ring, a node is not reached over itself. -/
theorem step (hring : scene.RingFree) (h : Behind scene object chain x) (hx : x ∈ scene.positions)
    (hp : PassesTo scene object x y) : Behind scene object (x :: chain) y := by
  refine ⟨List.nodup_cons.mpr ⟨fun hm => hring object x hx (h.leads x hm), h.nodup⟩,
    List.cons_subset.mpr ⟨hx, h.known⟩, fun z hz => ?_⟩
  rcases List.mem_cons.mp hz with rfl | hz
  · exact .single hp
  · exact (h.leads z hz).tail hp

/-- Not all nodes are behind a node. -/
theorem length_lt (hring : scene.RingFree) (h : Behind scene object chain x)
    (hx : x ∈ scene.positions) : chain.length < scene.nodeCount := by
  have hnodup : (x :: chain).Nodup :=
    List.nodup_cons.mpr ⟨fun hm => hring object x hx (h.leads x hm), h.nodup⟩
  have hlen := hnodup.length_le_of_subset (List.cons_subset.mpr ⟨hx, h.known⟩)
  rw [Scene.length_positions, List.length_cons] at hlen
  exact hlen

end Behind

/-! ### Marks -/

/-- A count drops where a test begins to fail. -/
theorem countP_lt {α : Type} {p q : α → Bool} {l : List α} (h : ∀ a, q a = true → p a = true)
    {a : α} (ha : a ∈ l) (hp : p a = true) (hq : q a = false) : l.countP q < l.countP p := by
  induction l with
  | nil => cases ha
  | cons b rest ih =>
    rcases List.mem_cons.mp ha with rfl | ha
    · rw [List.countP_cons_of_neg (by simp [hq]), List.countP_cons_of_pos hp]
      have := List.countP_mono_left (l := rest) fun b _ => h b
      omega
    · have := ih ha
      rw [List.countP_cons, List.countP_cons]
      have hb := h b
      by_cases hqb : q b = true
      · rw [if_pos hqb, if_pos (hb hqb)]
        omega
      · rw [if_neg hqb]
        omega

/-- Whether something is not being compiled. -/
def isOpen {κ α : Type} [DecidableEq κ] [DecidableEq α] (m : OrderedMap κ (Progress α)) (key : κ) :
    Bool := m.get? key ≠ some .resolving

/-- The marks that can be set in a scene while one of the named objects is compiled,
or none. -/
def Scene.markSpots (s : Scene) (names : List String) : List (String × String) :=
  s.positions.flatMap fun p =>
    (p.1.name, p.2.name) :: names.map fun object => (p.1.name ++ "@" ++ object, p.2.name)

/-- The number of marks that are not set. -/
def Ledger.openCount (l : Ledger) (scene : Scene) (names : List String) : Nat :=
  (scene.markSpots names).countP (isOpen l.nodes) + scene.objects.keys.countP (isOpen l.objects)

section Marks

variable {κ α : Type} [DecidableEq κ] [DecidableEq α] {m : OrderedMap κ (Progress α)} {key : κ}

theorem isOpen_of_none (h : m.get? key = none) : isOpen m key = true := by
  simp [isOpen, h]

theorem isOpen_insert_self : isOpen (m.insert key .resolving) key = false := by
  simp [isOpen, OrderedMap.get?_insert]

theorem isOpen_of_insert {k : κ} (h : isOpen (m.insert key .resolving) k = true) :
    isOpen m k = true := by
  simp only [isOpen, OrderedMap.get?_insert] at h ⊢
  split at h
  · simp at h
  · exact h

theorem Kept.isOpen_eq {n : OrderedMap κ (Progress α)} (h : Kept m n) : isOpen n = isOpen m := by
  funext k
  simp only [isOpen, ne_eq, h.resolving k]

end Marks

namespace Ledger

variable {scene : Scene} {names : List String} {l m : Ledger}

theorem openCount_of_frame (h : l.Frame m) : m.openCount scene names = l.openCount scene names := by
  unfold openCount
  rw [h.nodes.isOpen_eq, h.objects.isOpen_eq]

/-- A new mark on a node. -/
theorem openCount_setNode_lt {key node : String} (h : l.node? key node = none)
    (hm : (key, node) ∈ scene.markSpots names) :
    (l.setNode key node .resolving).openCount scene names < l.openCount scene names := by
  have hlt : (scene.markSpots names).countP (isOpen (l.nodes.insert (key, node) .resolving)) <
      (scene.markSpots names).countP (isOpen l.nodes) :=
    countP_lt (fun _ => isOpen_of_insert) hm (isOpen_of_none h) isOpen_insert_self
  exact Nat.add_lt_add_right hlt _

theorem openCount_setNode_le (key node : String) :
    (l.setNode key node .resolving).openCount scene names ≤ l.openCount scene names :=
  Nat.add_le_add_right (List.countP_mono_left fun _ _ => isOpen_of_insert) _

/-- A new mark on an object. -/
theorem openCount_setObject_lt {object : String} (h : l.object? object = none)
    (hm : object ∈ scene.objects.keys) :
    (l.setObject object .resolving).openCount scene names < l.openCount scene names := by
  have hlt : scene.objects.keys.countP (isOpen (l.objects.insert object .resolving)) <
      scene.objects.keys.countP (isOpen l.objects) :=
    countP_lt (fun _ => isOpen_of_insert) hm (isOpen_of_none h) isOpen_insert_self
  exact Nat.add_lt_add_left hlt _

theorem openCount_setObject_le (object : String) :
    (l.setObject object .resolving).openCount scene names ≤ l.openCount scene names :=
  Nat.add_le_add_left (List.countP_mono_left fun _ _ => isOpen_of_insert) _

/-- There are no more marks than nodes for every scope, and objects. -/
theorem openCount_le (l : Ledger) (scene : Scene) (names : List String) :
    l.openCount scene names ≤ scene.nodeCount * (names.length + 1) + scene.objects.size := by
  have hspots : (scene.markSpots names).length = scene.nodeCount * (names.length + 1) := by
    rw [← Scene.length_positions]
    unfold Scene.markSpots
    induction scene.positions with
    | nil => simp
    | cons p rest ih =>
      rw [List.flatMap_cons, List.length_append, ih, List.length_cons, List.length_map,
        List.length_cons, Nat.succ_mul]
      omega
  have hobjects : scene.objects.keys.length = scene.objects.size := List.length_map _
  unfold openCount
  rw [← hspots, ← hobjects]
  exact Nat.add_le_add List.countP_le_length List.countP_le_length

end Ledger

/-! ### Bounded walks -/

variable {pass : Pass}

/-- A guard over walks that set at most so many more marks, in the scopes of named
objects. -/
def Guard.bounded (G : Guard (frameComparison pass)) (names : List String)
    (hnames : pass.scene.objects.keys ⊆ names) (marks : Nat) : Guard (frameComparison pass) where
  Inv s := G.Inv s ∧ s.ledger.openCount pass.scene names ≤ marks ∧
    ∀ scope ∈ s.scope, scope.name ∈ names
  Known tree node := (tree, node) ∈ pass.scene.positions
  Fault := G.Fault
  lasts {s t} hr hi := by
    refine ⟨G.lasts hr hi.1, ?_, ?_⟩
    · rw [Ledger.openCount_of_frame hr.ledger]
      exact hi.2.1
    · rw [hr.scope]
      exact hi.2.2
  mark key name hi :=
    ⟨G.mark key name hi.1, Nat.le_trans (Ledger.openCount_setNode_le key name) hi.2.1, hi.2.2⟩
  enter hi ho := by
    refine ⟨G.enter hi.1 ho, Nat.le_trans (Ledger.openCount_setObject_le _) hi.2.1,
      fun scope hs => ?_⟩
    cases hs
    exact hnames (OrderedMap.mem_keys_of_get? ho)
  known_source hk hn := by
    rw [Scene.mem_positions] at hk ⊢
    exact ⟨hk.1, OrderedMap.mem_values_of_get? hn⟩
  known_tree ht hn := Scene.mem_positions.mpr ⟨OrderedMap.mem_values_of_get? ht, hn⟩
  fault_cycle := G.fault_cycle
  fault_emission hi := G.fault_emission hi.1
  fault_geometry hi := G.fault_geometry hi.1

namespace Guard

variable {G : Guard (frameComparison pass)} {names : List String}
  (hnames : pass.scene.objects.keys ⊆ names) {marks more : Nat}

/-- Fewer marks are at most as many. -/
theorem bounded_mono {α : Type} {Q : α → PassState → Prop} {s : PassState}
    {o : Except Failure α × PassState} (hle : marks ≤ more)
    (h : Ends (G.bounded names hnames marks).contract.Inv PassState.Frame G.Fault Q s o) :
    Ends (G.bounded names hnames more).contract.Inv PassState.Frame G.Fault Q s o := by
  rcases o with ⟨f | a, t⟩
  · exact ⟨h.1, h.2.1, fun hc => ⟨(h.2.2 hc).1, Nat.le_trans (h.2.2 hc).2.1 hle, (h.2.2 hc).2.2⟩⟩
  · exact ⟨⟨h.1.1, Nat.le_trans h.1.2.1 hle, h.1.2.2⟩, h.2⟩

theorem gives (G : Guard (frameComparison pass)) (kind : NodeKind) (s : PassState) (v : Resolved) :
    G.contract.Gives kind s v := by
  unfold Contract.Gives
  split <;> trivial

/-- The marks left are fewer once a node is marked. -/
theorem bounded_mark {s : PassState} {tree : NodeTree} {node : Node}
    (hi : (G.bounded names hnames marks).Inv s) (hk : (tree, node) ∈ pass.scene.positions)
    (hn : s.ledger.node? (s.treeKey tree.name) node.name = none) :
    ∃ less < marks, (G.bounded names hnames less).Inv (s.mark (s.treeKey tree.name) node.name) := by
  have hspot : (s.treeKey tree.name, node.name) ∈ pass.scene.markSpots names := by
    refine List.mem_flatMap.mpr ⟨(tree, node), hk, ?_⟩
    unfold PassState.treeKey
    cases hs : s.scope with
    | none => exact List.mem_cons_self
    | some scope =>
      simp only
      split
      · exact List.mem_cons_of_mem _ (List.mem_map_of_mem (hi.2.2 scope hs))
      · exact List.mem_cons_self
  exact ⟨_, Nat.lt_of_lt_of_le (Ledger.openCount_setNode_lt hn hspot) hi.2.1,
    G.mark _ _ hi.1, Nat.le_refl _, hi.2.2⟩

/-- The marks left are fewer once an object is entered. -/
theorem bounded_enter {s : PassState} {name : String} {object : SceneObject}
    (hi : (G.bounded names hnames marks).Inv s) (hl : s.ledger.object? name = none)
    (ho : pass.scene.object? name = some object) :
    ∃ less < marks, (G.bounded names hnames less).Inv (s.enter name object) := by
  have hk := OrderedMap.mem_keys_of_get? ho
  refine ⟨_, Nat.lt_of_lt_of_le (Ledger.openCount_setObject_lt hl hk) hi.2.1, G.enter hi.1 ho,
    Nat.le_refl _, fun scope hs => ?_⟩
  cases hs
  exact hnames hk

/-- A build that needs fewer marks than there are keeps the guard. -/
theorem keeps_once {tree : NodeTree} {node : Node} {build : Compile (Option Resolved)}
    (hk : (tree, node) ∈ pass.scene.positions)
    (hb : ∀ less < marks, (G.bounded names hnames less).contract.Keeps (fun _ => True) build
      fun r t => ∀ v ∈ r, (G.bounded names hnames less).contract.Made t v) :
    (G.bounded names hnames marks).contract.Keeps (fun _ => True) (once tree node build)
      fun r t => ∀ v ∈ r, (G.bounded names hnames marks).contract.Made t v := by
  refine Contract.keeps_once hk fun s hi hn => ?_
  obtain ⟨less, hlt, hi'⟩ := bounded_mark hnames hi hk hn
  exact bounded_mono hnames (Nat.le_of_lt hlt) (hb less hlt _ hi' trivial)

/-- An object whose compilation needs fewer marks than there are keeps the guard. -/
theorem keeps_writeObject {compile : NodeCompiler}
    (hc : ∀ less < marks, (G.bounded names hnames less).contract.Compiles compile) (name : String) :
    (G.bounded names hnames marks).contract.Keeps (fun _ => True) (pass.writeObject compile name)
      fun r t => ∀ token ∈ r, (G.bounded names hnames marks).contract.Val t (.reference token) := by
  refine Contract.keeps_enteredObject fun s object hi hl ho => ?_
  obtain ⟨less, hlt, hi'⟩ := bounded_enter hnames hi hl ho
  exact bounded_mono hnames (Nat.le_of_lt hlt)
    (Contract.keeps_buildObject (hc less hlt) ho _ hi' trivial)

/-- An object of the given name, or none, is compiled. -/
def InScope (object : Option String) (s : PassState) : Prop := s.scope.map ObjectScope.name = object

theorem stable_inScope (object : Option String) :
    (G.bounded names hnames marks).contract.Stable (InScope object) := by
  intro s t hr hs
  unfold InScope
  rw [PassState.Frame.scope hr]
  exact hs

/-- The walk keeps the guard if it may go deep enough: for every mark that is left
through all nodes, and through those that are not behind the node. -/
theorem keeps_walk (hring : pass.scene.RingFree) : ∀ (depth marks : Nat) (object : Option String)
    (chain : List (NodeTree × Node)) (tree : NodeTree) (node : Node) (useLiterals : Bool),
    Behind pass.scene object chain (tree, node) → (tree, node) ∈ pass.scene.positions →
    marks * (pass.scene.nodeCount + 1) + (pass.scene.nodeCount - chain.length) < depth →
    (G.bounded names hnames marks).contract.Keeps (InScope object)
      (pass.walk depth tree node useLiterals)
      fun r t => ∀ v ∈ r, (G.bounded names hnames marks).contract.Gives node.kind t v
  | 0, _, _, _, _, _, _, _, _, hd => absurd hd (Nat.not_lt_zero _)
  | depth + 1, marks, object, chain, tree, node, useLiterals, hchain, hk, hd => by
    have hlen := hchain.length_lt hring hk
    -- with a mark less there is room for all nodes again
    have hc : ∀ less < marks, (G.bounded names hnames less).contract.Compiles (pass.walk depth) := by
      intro less hlt tree' node' useLiterals' hk' s hi _
      refine keeps_walk hring depth less (s.scope.map ObjectScope.name) [] tree' node' useLiterals'
        (Behind.nil _ _ _) hk' ?_ s hi rfl
      have hmul : (less + 1) * (pass.scene.nodeCount + 1) ≤ marks * (pass.scene.nodeCount + 1) :=
        Nat.mul_le_mul_right _ hlt
      rw [Nat.succ_mul] at hmul
      simp only [List.length_nil]
      omega
    -- a node that passes something on needs no mark, and what it passes on is further down
    have hnext : ∀ {chain' : List (NodeTree × Node)} {tree' : NodeTree} {source : Node} (b : Bool),
        Behind pass.scene object chain' (tree', source) → chain.length < chain'.length →
        (tree', source) ∈ pass.scene.positions →
        (G.bounded names hnames marks).contract.Keeps (InScope object)
          (pass.walk depth tree' source b)
          fun r t => ∀ v ∈ r, (G.bounded names hnames marks).contract.Gives source.kind t v := by
      intro chain' tree' source b hchain' hlt hk'
      refine keeps_walk hring depth marks object chain' tree' source b hchain' hk' ?_
      have := hchain'.length_lt hring hk'
      omega
    have hfeeds : ∀ {chain' : List (NodeTree × Node)} {tree' : NodeTree} {target : Node}
        {input : String} {socket : Socket} (b : Bool), chain.length ≤ chain'.length →
        Behind pass.scene object chain' (tree', target) → (tree', target) ∈ pass.scene.positions →
        target.input? input = some socket →
        (∀ source, tree'.feeder? target input = some source →
          PassesTo pass.scene object (tree', target) (tree', source)) →
        (G.bounded names hnames marks).contract.Feeds (InScope object) (pass.walk depth) tree' target
          socket b := by
      intro chain' tree' target input socket b hle hchain' hk' hsocket hstep link source hlink hn
      have hpass : PassesTo pass.scene object (tree', target) (tree', source) := by
        refine hstep source ?_
        simp [NodeTree.feeder?, hsocket, hlink, hn]
      refine hnext b (hchain'.step hring hk' hpass) ?_
        ((G.bounded names hnames marks).known_source hk' hn)
      simp only [List.length_cons]
      omega
    have hgives : ∀ {kind : NodeKind} {P : PassState → Prop} {c : Compile (Option Resolved)} {Q},
        (G.bounded names hnames marks).contract.Keeps P c Q →
        (G.bounded names hnames marks).contract.Keeps P c fun r t => ∀ v ∈ r,
          (G.bounded names hnames marks).contract.Gives kind t v := fun h =>
      h.imp (fun _ hp => hp) fun _ _ _ _ _ => gives _ _ _ _
    have hfree : ∀ {kind : NodeKind} {c : Compile (Option Resolved)} {Q},
        (G.bounded names hnames marks).contract.Keeps (fun _ => True) c Q →
        (G.bounded names hnames marks).contract.Keeps (InScope object) c fun r t => ∀ v ∈ r,
          (G.bounded names hnames marks).contract.Gives kind t v := fun h =>
      hgives (h.imp (fun _ _ => trivial) fun _ _ hq => hq)
    unfold Pass.walk Pass.compileNode
    cases hkind : node.kind with
    | plugin category plugin =>
      exact hfree (keeps_once hnames hk fun less hlt =>
        Contract.keeps_writePluginNode (hc less hlt) hk plugin useLiterals)
    | unset => exact Contract.keeps_pure fun s _ v hv => by cases hv
    | layeredTexture =>
      exact hfree (keeps_once hnames hk fun less hlt =>
        Contract.keeps_writeLayeredTexture (hc less hlt) hk)
    | layeredBrdf additive =>
      exact hfree (keeps_once hnames hk fun less hlt =>
        Contract.keeps_writeLayeredBrdf (hc less hlt) hk additive)
    | selectObject name =>
      exact hfree (Q := fun _ _ => True)
        ((Contract.keeps_select (keeps_writeObject hnames hc)).bind fun v =>
          Contract.keeps_pure fun s _ => trivial)
    | selectGroup group =>
      exact hfree (Q := fun _ _ => True)
        ((Contract.keeps_select (keeps_writeObject hnames hc)).bind fun v =>
          Contract.keeps_pure fun s _ => trivial)
    | objectGeometry =>
      exact hfree fun s hi _ => (G.bounded names hnames marks).contract.geometry hi
    | objectMaterial =>
      refine hgives (Q := fun _ _ => True)
        ((Contract.keeps_slottedMaterial (stable_inScope hnames object) ?_).bind fun token =>
          Contract.keeps_pure fun s _ => trivial)
      intro s scope holder slot other hs hscope ho hslot hm
      obtain ⟨material, -, hm'⟩ := Option.bind_eq_some_iff.mp hm
      have hobject : object = some scope.name := by
        rw [← hs, hscope]
        rfl
      refine Contract.keeps_endedMaterialTree (Contract.meets_materialTree hm')
        fun output socket hout hko hsocket => ?_
      have hbehind : Behind pass.scene object ((tree, node) :: chain) (other, output) :=
        hchain.step hring hk (.slot hkind hobject ho hslot hm hout)
      refine hfeeds true ?_ hbehind hko hsocket fun source hsource => ?_
      · simp only [List.length_cons]
        omega
      · obtain ⟨refuses, hkindo⟩ : ∃ refuses, output.kind = .materialOutput refuses := by
          have := List.find?_some hout
          cases hko : output.kind <;> simp [hko, NodeKind.isMaterialOutput] at this ⊢
        exact .material hkindo hsource
    | materialOutput refuses =>
      exact hgives (Contract.keeps_resolveInput hk fun socket hsocket =>
        hfeeds useLiterals (Nat.le_refl _) hchain hk hsocket fun source hsource =>
          .material hkind hsource)
    | objectOutput =>
      exact hgives (Contract.keeps_resolveInput hk fun socket hsocket =>
        hfeeds useLiterals (Nat.le_refl _) hchain hk hsocket fun source hsource =>
          .object hkind hsource)

/-- The bound of the walk is enough, from whatever state it starts. -/
theorem compiles_compiler (hring : pass.scene.RingFree) {s : PassState} (hi : G.Inv s) :
    ∃ (names : List String) (hnames : pass.scene.objects.keys ⊆ names) (marks : Nat),
      (G.bounded names hnames marks).Inv s ∧
      (G.bounded names hnames marks).contract.Compiles pass.compiler := by
  have hnames : pass.scene.objects.keys ⊆
      pass.scene.objects.keys ++ (s.scope.map ObjectScope.name).toList :=
    List.subset_append_left _ _
  refine ⟨_, hnames, s.ledger.openCount pass.scene _, ⟨hi, Nat.le_refl _, ?_⟩, ?_⟩
  · intro scope hs
    cases hs' : s.scope with
    | none => simp [hs'] at hs
    | some scope' => simp_all
  · intro tree node useLiterals hk t ht _
    refine keeps_walk hnames hring _ _ (t.scope.map ObjectScope.name) [] tree node useLiterals
      (Behind.nil _ _ _) hk ?_ t ht rfl
    have hcount := s.ledger.openCount_le pass.scene
      (pass.scene.objects.keys ++ (s.scope.map ObjectScope.name).toList)
    have hlen : (pass.scene.objects.keys ++ (s.scope.map ObjectScope.name).toList).length + 1 ≤
        pass.scene.objects.size + 2 := by
      have hkeys : pass.scene.objects.keys.length = pass.scene.objects.size := List.length_map _
      rw [List.length_append, hkeys]
      cases s.scope <;> simp
    have hmarks := Nat.le_trans hcount (Nat.add_le_add_right
      (Nat.mul_le_mul_left pass.scene.nodeCount hlen) pass.scene.objects.size)
    have hmul := Nat.mul_le_mul_right (pass.scene.nodeCount + 1) hmarks
    unfold Scene.walkDepth
    rw [Nat.succ_mul]
    simp only [List.length_nil]
    omega

/-- A step that keeps every bound keeps what is bounded. -/
theorem ends_of_bounded {α : Type} {Q : α → PassState → Prop} {s : PassState}
    {o : Except Failure α × PassState}
    (h : Ends (G.bounded names hnames marks).contract.Inv PassState.Frame G.Fault Q s o) :
    Ends G.Inv PassState.Frame G.Fault (fun _ _ => True) s o := by
  rcases o with ⟨f | a, t⟩
  · exact ⟨h.1, h.2.1, fun hc => (h.2.2 hc).1⟩
  · exact ⟨h.1.1, h.2.1, trivial⟩

theorem ends_writeMaterialTree (hring : pass.scene.RingFree) {material : String} {tree : NodeTree}
    (hm : pass.scene.materialTree? material = some tree) {s : PassState} (hi : G.Inv s) :
    Ends G.Inv PassState.Frame G.Fault (fun _ _ => True) s
      ((writeMaterialTree pass.compiler tree).runOn s) := by
  obtain ⟨names, hnames, marks, hb, hc⟩ := compiles_compiler hring hi
  exact ends_of_bounded hnames
    (Contract.keeps_writeMaterialTree hc (Contract.meets_materialTree hm) s hb trivial)

theorem ends_writeObject (hring : pass.scene.RingFree) (name : String) {s : PassState}
    (hi : G.Inv s) :
    Ends G.Inv PassState.Frame G.Fault (fun _ _ => True) s
      ((pass.writeObject pass.compiler name).runOn s) := by
  obtain ⟨names, hnames, marks, hb, hc⟩ := compiles_compiler hring hi
  exact ends_of_bounded hnames (Contract.keeps_writeObject hc name s hb trivial)

end Guard

end ShadeNet
