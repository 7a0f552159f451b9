/-
# Materials that do not look at the object in scope

The nodes of a material are entered under the name of its tree, whatever object is in scope
when they are first asked for. Two kinds of nodes look at that object: for its geometry and for
its material. A tree in which none of these stands behind the end compiles in every scope as it
does outside all objects, so it does not matter who comes to it first. One in which such a node
does is compiled for the object that happens to be in scope, and all others share its records.

Key definitions: `NodeKind.looks`, `NodeTree.Blind`, `PassState.rescope`, `Foreign`,
`Compile.Unscoped`.
Key theorems: `unscoped_writeObject`, `unscoped_walk`, `repeats_materialTree`,
`material_order_unseen`, `first_order_decides`.
-/
import ShadeNet.Proofs.Again
import ShadeNet.Proofs.Conduct

namespace ShadeNet

open Compile Relation

variable {α β : Type}

/-! ### Scopes -/

/-- Whether a node of this kind looks at the object in scope. -/
def NodeKind.looks : NodeKind → Bool
  | objectGeometry | objectMaterial => true
  | _ => false

/-- No node upstream of this one looks at the object in scope. -/
def NodeTree.BlindBehind (tree : NodeTree) (node : Node) : Prop :=
  ∀ m, ReflTransGen tree.FedBy node m → m.kind.looks = false

/-- No node behind the end of the material looks at the object in scope. -/
def NodeTree.Blind (tree : NodeTree) : Prop :=
  ∀ output, tree.materialOutput? = some output → tree.BlindBehind output

theorem NodeTree.BlindBehind.source {tree : NodeTree} {node source : Node}
    (h : tree.BlindBehind node) (hs : tree.FedBy node source) : tree.BlindBehind source :=
  fun m hm => h m (hm.head hs)

/-- The state with another object in scope. -/
def PassState.rescope (s : PassState) (scope : Option ObjectScope) : PassState :=
  { s with scope := scope }

/-- The tree is not the own tree of the object in scope. -/
def Foreign (tree : NodeTree) (scope : Option ObjectScope) : Prop :=
  ∀ object ∈ scope, object.tree ≠ some tree.name

theorem Foreign.treeKey {tree : NodeTree} {s : PassState} (h : Foreign tree s.scope) :
    s.treeKey tree.name = tree.name := by
  unfold PassState.treeKey
  cases hs : s.scope with
  | none => rfl
  | some scope => exact if_neg (h scope hs)

/-- A step does the same in all scopes in which the tree is foreign. -/
def Compile.Unscoped (tree : NodeTree) (c : Compile α) : Prop :=
  ∀ s scope, Foreign tree s.scope → Foreign tree scope →
    c.runOn (s.rescope scope) = ((c.runOn s).1, (c.runOn s).2.rescope scope) ∧
      (c.runOn s).2.scope = s.scope

variable {tree : NodeTree} {c : Compile α} {pass : Pass}

/-! ### Steps -/

theorem unscoped_pure (a : α) : Unscoped tree (pure a) := fun _ _ _ _ => ⟨rfl, rfl⟩

theorem unscoped_throw (failure : Failure) : Unscoped tree (throw failure : Compile α) :=
  fun _ _ _ _ => ⟨rfl, rfl⟩

theorem unscoped_report (line : LogLine) : Unscoped tree (report line) :=
  fun _ _ _ _ => ⟨rfl, rfl⟩

theorem Compile.Unscoped.bind {f : α → Compile β} (hc : Unscoped tree c)
    (hf : ∀ a, Unscoped tree (f a)) : Unscoped tree (c >>= f) := by
  intro s scope hs hscope
  obtain ⟨hrun, hkept⟩ := hc s scope hs hscope
  rw [runOn_bind, runOn_bind, hrun]
  generalize c.runOn s = o at hkept ⊢
  rcases o with ⟨failure | a, t⟩
  · exact ⟨rfl, hkept⟩
  · obtain ⟨hrun', hkept'⟩ := hf a t scope (hkept ▸ hs) hscope
    exact ⟨hrun', hkept'.trans hkept⟩

theorem Compile.Unscoped.attempt (hc : Unscoped tree c) : Unscoped tree (attempt c) := by
  intro s scope hs hscope
  obtain ⟨hrun, hkept⟩ := hc s scope hs hscope
  rw [runOn_attempt, runOn_attempt, hrun]
  exact ⟨rfl, hkept⟩

theorem unscoped_collect {f : α → Compile (Option β)} {l : List α}
    (h : ∀ a ∈ l, Unscoped tree (f a)) : Unscoped tree (collect f l) := by
  induction l with
  | nil => exact unscoped_pure _
  | cons a rest ih =>
    have hrest := ih fun b hb => h b (List.mem_cons_of_mem a hb)
    exact (h a List.mem_cons_self).bind fun _ => hrest.bind fun _ => unscoped_pure _

/-- A step that reports something and gives a value. -/
theorem unscoped_report_pure (line : LogLine) (a : α) :
    Unscoped tree (report line >>= fun _ => pure a) :=
  (unscoped_report line).bind fun _ => unscoped_pure a

theorem unscoped_writeRecord (pass : Pass) (r : Record) : Unscoped tree (pass.writeRecord r) := by
  intro s scope _ _
  rw [writeRecord_runOn, writeRecord_runOn]
  unfold PassState.receive PassState.rescope
  split
  · exact ⟨rfl, rfl⟩
  · split <;> exact ⟨rfl, rfl⟩

theorem unscoped_claimAndEmit (base : String) (reports : List LogLine)
    (record : String → Record) : Unscoped tree (pass.claimAndEmit base reports record) := by
  intro s scope hs hscope
  rw [claimAndEmit_runOn, claimAndEmit_runOn, emit_runOn, emit_runOn]
  obtain ⟨hrun, hkept⟩ := unscoped_writeRecord pass
    (record (freeName s.ledger.names base)) (s.claim base reports) scope hs hscope
  have hclaim : (s.rescope scope).claim base reports = (s.claim base reports).rescope scope := rfl
  have hnames : (s.rescope scope).ledger.names = s.ledger.names := rfl
  rw [hclaim, hnames, hrun]
  generalize (pass.writeRecord _).runOn _ = o at hkept ⊢
  rcases o with ⟨failure | _, t⟩ <;> exact ⟨rfl, hkept⟩

/-- An object is compiled in a scope of its own. -/
theorem unscoped_writeObject (compile : NodeCompiler) (name : String) :
    Unscoped tree (pass.writeObject compile name) := by
  intro s scope _ _
  rw [writeObject_runOn, writeObject_runOn]
  have hobject : (s.rescope scope).ledger.object? name = s.ledger.object? name := rfl
  rw [hobject]
  rcases s.ledger.object? name with _ | _ | token
  · rcases pass.scene.object? name with _ | object
    · exact ⟨rfl, rfl⟩
    · simp only
      split
      · have henter : (s.rescope scope).enter name object = s.enter name object := rfl
        rw [henter]
        rcases (pass.buildObject compile name object).runOn _ with ⟨failure | token, t⟩ <;>
          exact ⟨rfl, rfl⟩
      · exact ⟨rfl, rfl⟩
  · exact ⟨rfl, rfl⟩
  · exact ⟨rfl, rfl⟩

theorem unscoped_select (compile : NodeCompiler) (node : Node) (names : List String) :
    Unscoped tree (pass.select compile tree node names) := by
  refine (unscoped_collect fun name _ => ?_).bind fun _ => unscoped_pure _
  intro s scope hs hscope
  unfold Pass.selectMember
  rw [runOn_bind_ok (runOn_get _), runOn_bind_ok (runOn_get _)]
  have hobject : (s.rescope scope).ledger.object? name = s.ledger.object? name := rfl
  rw [hobject]
  split
  · exact ⟨rfl, rfl⟩
  · exact unscoped_writeObject compile name s scope hs hscope

/-! ### Nodes -/

section Nodes

variable {compile : NodeCompiler} {node : Node}

/-- All that feeds a node does the same in all scopes. -/
def FedUnscoped (compile : NodeCompiler) (tree : NodeTree) (node : Node) : Prop :=
  ∀ source useLiterals, tree.FedBy node source → Unscoped tree (compile tree source useLiterals)

variable (hf : FedUnscoped compile tree node)

include hf

theorem unscoped_resolveSocket (socket : Socket) (useLiterals : Bool) :
    Unscoped tree (resolveSocket compile tree node socket useLiterals) := by
  unfold resolveSocket
  cases hl : tree.linkTo? ⟨node.name, socket.name⟩ with
  | none => exact unscoped_pure _
  | some link =>
    simp only
    cases hn : tree.node? link.source.node with
    | none => exact unscoped_report_pure _ _
    | some source =>
      exact (hf source useLiterals ⟨link, _, hl, hn⟩).bind fun _ => unscoped_pure _

theorem unscoped_resolveInput (name : String) (useLiterals : Bool) :
    Unscoped tree (resolveInput compile tree node name useLiterals) := by
  unfold resolveInput
  cases node.input? name with
  | none => exact unscoped_report_pure _ _
  | some socket => exact unscoped_resolveSocket hf socket useLiterals

theorem unscoped_writePluginNode (plugin : String) (useLiterals : Bool) :
    Unscoped tree (pass.writePluginNode compile tree node plugin useLiterals) := by
  unfold Pass.writePluginNode
  cases pass.catalog.get? plugin with
  | none => exact unscoped_report_pure _ _
  | some desc =>
    refine (unscoped_collect fun socket _ => ?_).bind fun supplied => ?_
    · unfold supply
      cases socket.attr with
      | none => exact unscoped_pure _
      | some attr =>
        exact (unscoped_resolveSocket hf socket useLiterals).bind fun _ => unscoped_pure _
    · simp only [← bind_assoc, Contract.claimAndEmit_plugin]
      exact (unscoped_claimAndEmit _ _ _).bind fun _ => unscoped_pure _

theorem unscoped_writeLayeredTexture :
    Unscoped tree (pass.writeLayeredTexture compile tree node) := by
  unfold Pass.writeLayeredTexture
  refine (unscoped_collect fun socket _ => ?_).bind fun layers => ?_
  · unfold textureLayer
    split
    · refine (unscoped_resolveSocket hf socket true).bind fun value => ?_
      split
      · exact unscoped_pure _
      · exact unscoped_report_pure _ _
    · exact unscoped_pure _
  · split
    · exact unscoped_report_pure _ _
    · simp only [← bind_assoc, Contract.claimAndEmit_plain]
      exact (unscoped_claimAndEmit _ _ _).bind fun _ => unscoped_pure _

theorem unscoped_linkedWeight (socket : String) :
    Unscoped tree (Pass.linkedWeight compile tree node socket) := by
  unfold Pass.linkedWeight
  cases hl : tree.linkedSource? ⟨node.name, socket⟩ with
  | none => exact unscoped_pure _
  | some found =>
    obtain ⟨link, hlink, hl⟩ := Option.bind_eq_some_iff.mp hl
    obtain ⟨source, hn, hl⟩ := Option.bind_eq_some_iff.mp hl
    obtain ⟨output, -, hl⟩ := Option.bind_eq_some_iff.mp hl
    cases hl
    exact (hf source false ⟨link, socket, hlink, hn⟩).bind fun _ => unscoped_pure _

theorem unscoped_brdfLayer (layer : Nat) :
    Unscoped tree (pass.brdfLayer compile tree node layer) := by
  unfold Pass.brdfLayer
  simp only
  cases node.input? ("BRDF " ++ toString layer) with
  | none => exact unscoped_pure _
  | some socket =>
    simp only
    split
    · refine (unscoped_resolveSocket hf socket true).bind fun value => ?_
      cases value.bind (·.token?) with
      | none => exact unscoped_report_pure _ _
      | some brdf =>
        refine (unscoped_linkedWeight hf _).bind fun weight => ?_
        split
        · exact unscoped_pure _
        · unfold Pass.writeWeight
          rw [Contract.claimAndEmit_plain]
          exact (unscoped_claimAndEmit _ _ _).bind fun _ => unscoped_pure _
    · exact unscoped_pure _

theorem unscoped_writeLayeredBrdf (additive : Bool) :
    Unscoped tree (pass.writeLayeredBrdf compile tree node additive) := by
  unfold Pass.writeLayeredBrdf
  refine (unscoped_collect fun layer _ => unscoped_brdfLayer hf layer).bind fun layers => ?_
  split
  · exact unscoped_report_pure _ _
  · simp only [← bind_assoc, Contract.claimAndEmit_plain]
    exact (unscoped_claimAndEmit _ _ _).bind fun _ => unscoped_pure _

end Nodes

/-- A node is entered under the name of the tree in all scopes in which the tree is foreign. -/
theorem unscoped_once {node : Node} {build : Compile (Option Resolved)}
    (hb : Unscoped tree build) : Unscoped tree (once tree node build) := by
  intro s scope hs hscope
  have hkey : (s.rescope scope).treeKey tree.name = s.treeKey tree.name :=
    (Foreign.treeKey hscope).trans hs.treeKey.symm
  rw [once_runOn, once_runOn, hkey]
  have hnode : (s.rescope scope).ledger.node? (s.treeKey tree.name) node.name =
      s.ledger.node? (s.treeKey tree.name) node.name := rfl
  rw [hnode]
  rcases s.ledger.node? (s.treeKey tree.name) node.name with _ | _ | value
  · obtain ⟨hrun, hkept⟩ := hb (s.mark (s.treeKey tree.name) node.name) scope hs hscope
    have hmark : (s.rescope scope).mark (s.treeKey tree.name) node.name =
        (s.mark (s.treeKey tree.name) node.name).rescope scope := rfl
    simp only
    rw [hmark, hrun]
    generalize build.runOn _ = o at hkept ⊢
    rcases o with ⟨failure | _ | value, t⟩ <;> exact ⟨rfl, hkept⟩
  · exact ⟨rfl, rfl⟩
  · exact ⟨rfl, rfl⟩

/-- The walk does the same in all scopes at a node behind which none looks at them. -/
theorem unscoped_walk (pass : Pass) (depth : Nat) : ∀ {node : Node}, tree.BlindBehind node →
    ∀ useLiterals, Unscoped tree (pass.walk depth tree node useLiterals) := by
  induction depth with
  | zero => exact fun _ _ => unscoped_throw _
  | succ depth ih =>
    intro node hblind useLiterals
    have hf : FedUnscoped (pass.walk depth) tree node := fun source useLiterals hs =>
      ih (hblind.source hs) useLiterals
    have hlooks := hblind node .refl
    show Unscoped tree (pass.compileNode (pass.walk depth) tree node useLiterals)
    unfold Pass.compileNode
    cases hkind : node.kind with
    | plugin category plugin =>
      exact unscoped_once (unscoped_writePluginNode hf plugin useLiterals)
    | unset => exact unscoped_pure _
    | layeredTexture => exact unscoped_once (unscoped_writeLayeredTexture hf)
    | layeredBrdf additive => exact unscoped_once (unscoped_writeLayeredBrdf hf additive)
    | selectObject object | selectGroup group =>
      exact (unscoped_select _ _ _).bind fun _ => unscoped_pure _
    | objectGeometry | objectMaterial => simp [hkind, NodeKind.looks] at hlooks
    | materialOutput refuses => exact unscoped_resolveInput hf "Material" useLiterals
    | objectOutput => exact unscoped_resolveInput hf "Object" useLiterals

/-- The end of a material is looked at in every scope alike. -/
theorem unscoped_materialToken (r : Except Failure (Option Resolved)) :
    Unscoped tree (materialToken tree r) := by
  unfold materialToken
  split
  · exact unscoped_pure _
  · exact unscoped_report_pure _ _
  · exact unscoped_report_pure _ _
  · exact unscoped_throw _

theorem unscoped_writeMaterialTree (pass : Pass) (h : tree.Blind) (depth : Nat) :
    Unscoped tree (writeMaterialTree (pass.walk depth) tree) := by
  unfold writeMaterialTree
  cases ho : tree.materialOutput? with
  | none => exact unscoped_report_pure _ _
  | some output =>
    have hf : FedUnscoped (pass.walk depth) tree output := fun source useLiterals hs =>
      unscoped_walk pass depth ((h output ho).source hs) useLiterals
    intro s scope hs hscope
    rw [runOn_bind_ok (runOn_get _), runOn_bind_ok (runOn_get _)]
    have hover : (s.rescope scope).overrideToken = s.overrideToken := rfl
    rw [hover]
    cases (if output.kind = .materialOutput true then none else s.overrideToken) with
    | some token => exact unscoped_pure token s scope hs hscope
    | none =>
      simp only
      split
      · exact ((unscoped_resolveInput hf "Material" true).attempt.bind fun r =>
          unscoped_materialToken r) s scope hs hscope
      · exact unscoped_report_pure _ _ s scope hs hscope

/-! ### Those who come later -/

/-- What a linked end comes to stays, unless it is the default material. -/
theorem recalls_materialEnd (pass : Pass) (depth : Nat) (tree : NodeTree) (output : Node) :
    pass.Recalls (· ≠ defaultMaterial)
      (attempt (resolveInput (pass.walk depth) tree output "Material" true) >>=
        materialToken tree) := by
  intro s t f token hrun hne hlasts
  rcases hc : (resolveInput (pass.walk depth) tree output "Material" true).runOn s with ⟨r, u⟩
  rw [runOn_bind_ok (runOn_attempt _ s), hc] at hrun
  obtain ⟨halike, ⟨value, rfl⟩ | ⟨hdefault, -⟩⟩ := materialToken_ok hrun
  · have hend : u.Lasts pass.scene f := (PassState.Lasts.of_alike halike).trans hlasts
    refine Repeats.attempt (r := .ok (some value)) ?_ fun lines =>
      recalls_materialToken tree _ u t _ token hrun trivial (hlasts.notes lines)
    exact recalls_resolveInput (recalls_walk pass depth) tree output _ _ s u f _ hc rfl hend
  · exact absurd hdefault hne

/-- A material tree that came to another material than the default comes to it at any later time
at which the same override stands. -/
theorem repeats_materialTree {depth : Nat} {token : String} {s t f : PassState}
    (hrun : (writeMaterialTree (pass.walk depth) tree).runOn s = (.ok token, t))
    (hne : token ≠ defaultMaterial) (hlasts : t.Lasts pass.scene f)
    (hover : f.overrideToken = s.overrideToken) :
    (writeMaterialTree (pass.walk depth) tree).Repeats (.ok token) f := by
  unfold writeMaterialTree at hrun ⊢
  cases hout : tree.materialOutput? with
  | none =>
    rw [hout] at hrun
    exact recalls_report_pure (· ≠ defaultMaterial) _ _ s t f token hrun hne hlasts
  | some output =>
    rw [hout] at hrun
    simp only at hrun ⊢
    rw [runOn_bind_ok (runOn_get s)] at hrun
    unfold Compile.Repeats
    rw [runOn_bind_ok (runOn_get f), hover]
    cases hchosen : (if output.kind = .materialOutput true then none else s.overrideToken) with
    | some chosen =>
      rw [hchosen] at hrun
      exact recalls_pure (· ≠ defaultMaterial) _ s t f token hrun hne hlasts
    | none =>
      rw [hchosen] at hrun
      simp only at hrun ⊢
      split
      · rename_i hlinked
        rw [if_pos hlinked] at hrun
        exact recalls_materialEnd pass depth tree output s t f token hrun hne hlasts
      · rename_i hlinked
        rw [if_neg hlinked] at hrun
        exact recalls_report_pure (· ≠ defaultMaterial) _ _ s t f token hrun hne hlasts

/-- **It does not matter who comes to a material first that does not look at the object in
scope.** Where the first to come stands in one scope instead of another, outside all objects or
in any object that does not have the tree as its own, the tree comes to the same token and the
same is written, reported, named and entered. All who come later, in whatever scope, are given
that token, and nothing is written for them. -/
theorem material_order_unseen (pass : Pass) (tree : NodeTree) (h : tree.Blind) (depth : Nat)
    (s : PassState) (first other : Option ObjectScope) (hfirst : Foreign tree first)
    (hother : Foreign tree other) :
    (writeMaterialTree (pass.walk depth) tree).runOn (s.rescope other) =
        (((writeMaterialTree (pass.walk depth) tree).runOn (s.rescope first)).1,
          ((writeMaterialTree (pass.walk depth) tree).runOn (s.rescope first)).2.rescope other) ∧
      ∀ token t f later,
        (writeMaterialTree (pass.walk depth) tree).runOn (s.rescope first) = (.ok token, t) →
        token ≠ defaultMaterial → t.Lasts pass.scene f → f.overrideToken = s.overrideToken →
        Foreign tree later →
        ∃ lines, (writeMaterialTree (pass.walk depth) tree).runOn (f.rescope later) =
          (.ok token, (f.rescope later).notes lines) := by
  have hunscoped := unscoped_writeMaterialTree pass h depth
  obtain ⟨hrun, hkept⟩ := hunscoped (s.rescope first) other hfirst hother
  refine ⟨hrun, fun token t f later hcame hne hlasts hover hlater => ?_⟩
  have hscope : f.scope = first := by
    rw [hlasts.scope]
    rwa [hcame] at hkept
  obtain ⟨lines, hagain⟩ := repeats_materialTree hcame hne hlasts hover
  refine ⟨lines, ?_⟩
  rw [(hunscoped f later (hscope ▸ hfirst) hlater).1, hagain]
  rfl

/-- A material that picks a rock. -/
def moss : NodeTree :=
  .ofParts "Moss"
    [{ name := "End", kind := .materialOutput false,
        inputs := [⟨"Material", .input, .material, none, none⟩] },
      { name := "Patch", kind := .plugin .texture "TexDistance",
        inputs := [⟨"Near", .input, .objects, some "objects", none⟩],
        outputs := [⟨"Out", .output, .material, none, none⟩] },
      { name := "Pick", kind := .selectObject (some "Rock"),
        outputs := [⟨"Out", .output, .objects, none, none⟩] }]
    [⟨⟨1⟩, ⟨"Patch", "Out"⟩, ⟨"End", "Material"⟩⟩, ⟨⟨2⟩, ⟨"Pick", "Out"⟩, ⟨"Patch", "Near"⟩⟩]

theorem blind_moss : moss.Blind := by
  intro output ho m hm
  have hall : ∀ n ∈ moss.nodes.values, n.kind.looks = false := by decide
  rcases ReflTransGen.cases_tail hm with rfl | ⟨_, _, hs⟩
  · exact hall _ (List.mem_of_find?_eq_some ho)
  · exact hall m (NodeTree.Feeds.mem hs)

/-- A material that looks at the geometry of the object in scope. -/
def stone : NodeTree :=
  .ofParts "Stone"
    [{ name := "End", kind := .materialOutput false,
        inputs := [⟨"Material", .input, .material, none, none⟩] },
      { name := "Coat", kind := .plugin .brdf "BRDFDiffuse",
        inputs := [⟨"Colour", .input, .texture, some "color_tex", none⟩],
        outputs := [⟨"Out", .output, .material, none, none⟩] },
      { name := "Shape", kind := .objectGeometry,
        outputs := [⟨"Out", .output, .texture, none, none⟩] }]
    [⟨⟨1⟩, ⟨"Coat", "Out"⟩, ⟨"End", "Material"⟩⟩, ⟨⟨2⟩, ⟨"Shape", "Out"⟩, ⟨"Coat", "Colour"⟩⟩]

/-- A rock of stone, in a scene that lists its materials in the given order. -/
def rockPass (materials : List String) : Pass where
  scene := {
    trees := OrderedMap.ofList [("Moss", moss), ("Stone", stone)]
    materials := OrderedMap.ofList (materials.map fun name => (name, ⟨some name⟩))
    objects := OrderedMap.ofList [("Rock", { mesh := some "Rock", slots := [some "Stone"] })] }
  catalog := Catalog.builtin
  settings := {}
  geometry := .external
  frame := 1

/-- The material with the rock comes to its patch, whether the driver or the rock is first. -/
theorem material_order_unseen_moss :
    let rock : ObjectScope := ⟨"Rock", some "Rock", none⟩
    let compile := writeMaterialTree (rockPass ["Moss", "Stone"]).compiler moss
    let t := (compile.runOn {}).2
    moss.Blind ∧ Foreign moss none ∧ Foreign moss (some rock) ∧
      compile.runOn {} = (.ok "NTMossNPatch", t) ∧ "NTMossNPatch" ≠ defaultMaterial ∧
      compile.runOn { scope := some rock } = (.ok "NTMossNPatch", t.rescope (some rock)) ∧
      ∃ lines, compile.runOn (t.rescope (some rock)) =
        (.ok "NTMossNPatch", (t.rescope (some rock)).notes lines) := by
  intro rock compile t
  have hrock : Foreign moss (some rock) := by
    intro object ho
    cases ho
    simp
  have hpatch : (compile.runOn {}).1 = .ok "NTMossNPatch" := by decide +kernel
  have hrun := runOn_of_ok hpatch
  have hnone : Foreign moss none := fun object ho => by cases ho
  have hne : "NTMossNPatch" ≠ defaultMaterial := by decide
  have ⟨hother, hlater⟩ := material_order_unseen (rockPass ["Moss", "Stone"]) moss blind_moss
    (rockPass ["Moss", "Stone"]).scene.walkDepth {} none (some rock) hnone hrock
  refine ⟨blind_moss, hnone, hrock, hrun, hne, ?_,
    hlater _ t t (some rock) hrun hne (.refl _ t) ?_ hrock⟩
  · exact hother.trans (Prod.ext hpatch rfl)
  · decide +kernel

/-- What a pass over the rock sends as the coat of the stone, with what it reports as cycles. -/
def coatsOf (materials : List String) : List (Option String) × List LogLine :=
  let t := ((rockPass materials).run.runOn {}).2
  ((t.sent.filter (·.name = "NTStoneNCoat")).map (·.attrs.lookup "color_tex"),
    t.log.filter (·.isFinding))

/-- If the material with the rock comes first, the stone is compiled for the rock; if it comes
second, it is compiled for no object. -/
theorem first_order_decides :
    (rockPass ["Moss", "Stone"]).scene.materials.entries.Perm
      (rockPass ["Stone", "Moss"]).scene.materials.entries ∧
    coatsOf ["Moss", "Stone"] = ([some "MERock"], []) ∧
      coatsOf ["Stone", "Moss"] = ([none], []) := by
  refine ⟨List.Perm.swap _ _ _, ?_, ?_⟩ <;> decide +kernel

end ShadeNet
