/-
# Layers and their weights stay aligned

A layered record has two lists that run side by side. The inputs of its node are gone through one
after another, each in the state that the ones before it leave, and an input that comes to no
reference is left out of both lists. So the entries of the two lists belong together place by
place: in a texture the weight is the number on the socket whose token stands beside it, and in a
shading model it is the token that is linked to the same layer, or else a constant texture of that
layer's number, which the call itself has written before.

Key definitions: `InTurn`, `TextureInput`, `LayerWeight`, `BrdfInput`, `EndsLayered`.
Key theorems: `collect_inTurn`, `textureLayer_ok`, `brdfLayer_ok`, `layers_aligned`.
-/
import ShadeNet.Proofs.Census
import ShadeNet.Proofs.Retrace

namespace ShadeNet

open Compile

variable {α β γ : Type} {pass : Pass} {s t u start final : PassState}

theorem PassState.Frame.sent (h : s.Frame t) : s.sent <+: t.sent := by
  obtain ⟨tried, -, hsent, -, -⟩ := h.appends
  exact ⟨tried, hsent.symm⟩

/-! ### One after another -/

/-- Steps that are made for the members of a list, each in the state that the one before it leaves,
with what they give. -/
inductive InTurn (Step : α → PassState → β → PassState → Prop) :
    List α → PassState → List β → PassState → Prop
  | nil {s : PassState} : InTurn Step [] s [] s
  | cons {a : α} {rest : List α} {s u t : PassState} {b : β} {others : List β} :
    Step a s b u → InTurn Step rest u others t → InTurn Step (a :: rest) s (b :: others) t

/-- What is gathered from a list is what the steps for its members give. -/
theorem collect_inTurn {f : α → Compile (Option β)}
    {Step : α → PassState → Option γ → PassState → Prop} {g : γ → β} {l : List α}
    (hframe : ∀ a ∈ l, ∀ s : PassState, s.Frame ((f a).runOn s).2)
    (hstep : ∀ a ∈ l, ∀ (s u : PassState) (gathered : Option β), start.Frame s → u.Frame final →
      (f a).runOn s = (.ok gathered, u) → ∃ given, Step a s given u ∧ gathered = given.map g)
    (hs : start.Frame s) {layers : List β} (h : (collect f l).runOn s = (.ok layers, final)) :
    s.Frame final ∧ ∃ given, InTurn Step l s given final ∧ layers = (given.filterMap id).map g := by
  -- a step is known to lie in the call once the steps before and behind it are
  induction l generalizing s layers with
  | nil =>
    cases h
    exact ⟨.refl _, [], .nil, rfl⟩
  | cons a rest ih =>
    obtain ⟨first, u, hfirst, h⟩ := of_runOn_bind_ok h
    obtain ⟨others, v, hothers, h⟩ := of_runOn_bind_ok h
    cases h
    have hsu : s.Frame u := by
      have hframe := hframe a List.mem_cons_self s
      rwa [hfirst] at hframe
    obtain ⟨hu, given, hturn, rfl⟩ := ih (fun b hb => hframe b (List.mem_cons_of_mem a hb))
      (fun b hb => hstep b (List.mem_cons_of_mem a hb)) (hs.trans hsu) hothers
    obtain ⟨one, hone, rfl⟩ := hstep a List.mem_cons_self s u first hs hu hfirst
    refine ⟨hsu.trans hu, one :: given, .cons hone hturn, ?_⟩
    cases one <;> rfl

/-! ### Inputs of a layered texture -/

/-- What one input gives to a layered texture: itself, with the token of what it is linked to. -/
inductive TextureInput (compile : NodeCompiler) (tree : NodeTree) (node : Node) (socket : Socket) :
    PassState → Option (Socket × String) → PassState → Prop
  /-- Nothing is linked to it. -/
  | unlinked {s : PassState} : tree.isLinked ⟨node.name, socket.name⟩ = false →
    TextureInput compile tree node socket s none s
  /-- It comes to no reference. -/
  | empty {s t : PassState} {value : Option Resolved} :
    tree.isLinked ⟨node.name, socket.name⟩ = true →
    (resolveSocket compile tree node socket true).runOn s = (.ok value, t) →
    (∀ token, value ≠ some (.reference token)) →
    TextureInput compile tree node socket s none
      (t.note (.textureLayerEmpty tree.name socket.name node.name))
  /-- It comes to a reference. -/
  | layer {s t : PassState} {token : String} :
    tree.isLinked ⟨node.name, socket.name⟩ = true →
    (resolveSocket compile tree node socket true).runOn s = (.ok (some (.reference token)), t) →
    TextureInput compile tree node socket s (some (socket, token)) t

theorem textureLayer_ok {compile : NodeCompiler} {tree : NodeTree} {node : Node} {socket : Socket}
    {layer : Option (String × String)}
    (h : (textureLayer compile tree node socket).runOn s = (.ok layer, t)) :
    ∃ given, TextureInput compile tree node socket s given t ∧
      layer = given.map fun g => (g.2, numberText (layerWeight (some g.1))) := by
  unfold textureLayer at h
  by_cases hlinked : tree.isLinked ⟨node.name, socket.name⟩ = true
  · rw [if_pos hlinked] at h
    obtain ⟨value, u, hvalue, h⟩ := of_runOn_bind_ok h
    cases htoken : value.bind (·.token?) with
    | none =>
      rw [htoken] at h
      cases h
      exact ⟨none, .empty hlinked hvalue (bind_token?_eq_none.mp htoken), rfl⟩
    | some token =>
      rw [htoken] at h
      cases h
      rw [bind_token?_eq_some.mp htoken] at hvalue
      exact ⟨some (socket, token), .layer hlinked hvalue, rfl⟩
  · rw [if_neg hlinked] at h
    cases h
    exact ⟨none, .unlinked (Bool.eq_false_iff.mpr hlinked), rfl⟩

/-! ### Layers of a shading model -/

/-- The weight of a layer, among whatever is written: what is linked to the layer's weight, or else
the name of a constant texture of the number there. -/
inductive LayerWeight (pass : Pass) (compile : NodeCompiler) (tree : NodeTree) (node : Node)
    (layer : Nat) (brdf : String) (written : List Record) : PassState → String → PassState → Prop
  /-- What is linked comes to a reference. -/
  | linked {s t : PassState} {source : Node} {output : Socket} {token : String} :
    tree.linkedSource? ⟨node.name, "Weight " ++ toString layer⟩ = some (source, output) →
    (compile tree source false).runOn s = (.ok (some (.reference token)), t) →
    LayerWeight pass compile tree node layer brdf written s token t
  /-- Nothing is linked, or it comes to no reference. -/
  | constant {s u t : PassState} {weight : Single} {name : String} {record : Record} :
    (tree.linkedSource? ⟨node.name, "Weight " ++ toString layer⟩ = none ∧ u = s ∨
      ∃ source output value,
        tree.linkedSource? ⟨node.name, "Weight " ++ toString layer⟩ = some (source, output) ∧
        (compile tree source false).runOn s = (.ok value, u) ∧
        ∀ token, value ≠ some (.reference token)) →
    weight = layerWeight (node.input? ("Weight " ++ toString layer)) →
    (pass.writeWeight (nodeName tree.name node.name) brdf layer weight).runOn u = (.ok name, t) →
    record = ⟨"TexAColor", name, .texture,
      [("texture", pass.literalText (.aColor ⟨weight, weight, weight⟩ Single.one))]⟩ →
    u.Writes record t → record ∈ written →
    LayerWeight pass compile tree node layer brdf written s name t

/-- What one layer gives to a layered shading model: the tokens of its model and of its weight. -/
inductive BrdfInput (pass : Pass) (compile : NodeCompiler) (tree : NodeTree) (node : Node)
    (written : List Record) (layer : Nat) :
    PassState → Option (String × String) → PassState → Prop
  /-- The node has no such input. -/
  | missing {s : PassState} : node.input? ("BRDF " ++ toString layer) = none →
    BrdfInput pass compile tree node written layer s none s
  /-- Nothing is linked to it. -/
  | unlinked {s : PassState} {socket : Socket} :
    node.input? ("BRDF " ++ toString layer) = some socket →
    tree.isLinked ⟨node.name, socket.name⟩ = false →
    BrdfInput pass compile tree node written layer s none s
  /-- It comes to no reference. -/
  | empty {s t : PassState} {socket : Socket} {value : Option Resolved} :
    node.input? ("BRDF " ++ toString layer) = some socket →
    tree.isLinked ⟨node.name, socket.name⟩ = true →
    (resolveSocket compile tree node socket true).runOn s = (.ok value, t) →
    (∀ token, value ≠ some (.reference token)) →
    BrdfInput pass compile tree node written layer s none
      (t.note (.brdfLayerEmpty tree.name ("BRDF " ++ toString layer) node.name))
  /-- It comes to a reference, and has a weight. -/
  | layer {s u t : PassState} {socket : Socket} {brdf weight : String} :
    node.input? ("BRDF " ++ toString layer) = some socket →
    tree.isLinked ⟨node.name, socket.name⟩ = true →
    (resolveSocket compile tree node socket true).runOn s = (.ok (some (.reference brdf)), u) →
    LayerWeight pass compile tree node layer brdf written u weight t →
    BrdfInput pass compile tree node written layer s (some (brdf, weight)) t

section Walk

variable {depth : Nat} {tree : NodeTree} {node : Node} {layer : Nat} {written : List Record}

variable (pass depth tree node) in
theorem frame_linkedWeight (socket : String) (s : PassState) :
    s.Frame ((Pass.linkedWeight (pass.walk depth) tree node socket).runOn s).2 :=
  frame_of_keeps (Contract.keeps_linkedWeight ((frameComparison pass).compiles_walk depth) trivial
    socket) s

variable (pass depth tree) in
theorem frame_textureLayer {socket : Socket} (h : socket ∈ node.inputs) (s : PassState) :
    s.Frame ((textureLayer (pass.walk depth) tree node socket).runOn s).2 :=
  frame_of_keeps (Contract.keeps_textureLayer ((frameComparison pass).compiles_walk depth) trivial
    h) s

variable (pass depth tree node) in
theorem frame_socket (socket : Socket) (s : PassState) :
    s.Frame ((resolveSocket (pass.walk depth) tree node socket true).runOn s).2 :=
  frame_of_keeps (Contract.keeps_resolveSocket trivial
    (((frameComparison pass).compiles_walk depth).feeds trivial _ _) fun _ _ _ => trivial) s

/-- A constant weight is written with its call. -/
theorem writeWeight_writes {base brdf name : String} {weight : Single}
    (h : (pass.writeWeight base brdf layer weight).runOn s = (.ok name, t)) :
    s.Writes (pass.weightRecord name weight) t := by
  unfold Pass.writeWeight at h
  rw [Contract.claimAndEmit_plain] at h
  obtain ⟨r, rfl, -, hwrites⟩ := claimAndEmit_writes (fun _ => rfl) h
  exact hwrites

/-- A linked weight: nothing is linked, or it is the token of what is linked. -/
theorem linkedWeight_ok {compile : NodeCompiler} {socket : String} {weight : Option String}
    (h : (Pass.linkedWeight compile tree node socket).runOn s = (.ok weight, t)) :
    tree.linkedSource? ⟨node.name, socket⟩ = none ∧ weight = none ∧ t = s ∨
      ∃ source output value, tree.linkedSource? ⟨node.name, socket⟩ = some (source, output) ∧
        (compile tree source false).runOn s = (.ok value, t) ∧
        weight = value.bind (·.token?) := by
  unfold Pass.linkedWeight at h
  cases hsource : tree.linkedSource? ⟨node.name, socket⟩ with
  | none =>
    rw [hsource] at h
    cases h
    exact Or.inl ⟨rfl, rfl, rfl⟩
  | some found =>
    rw [hsource] at h
    obtain ⟨value, u, hvalue, h⟩ := of_runOn_bind_ok h
    cases h
    exact Or.inr ⟨found.1, found.2, value, rfl, hvalue, rfl⟩

/-- The weight of a layer. What is written for it is written in between. -/
theorem weighLayer_layerWeight {brdf : String} {given : Option (String × String)}
    (hs : start.Frame s) (ht : t.Frame final)
    (h : (pass.weighLayer (pass.walk depth) tree node layer brdf).runOn s = (.ok given, t)) :
    ∃ weight, given = some (brdf, weight) ∧ LayerWeight pass (pass.walk depth) tree node layer brdf
      (final.sent.drop start.sent.length) s weight t := by
  unfold Pass.weighLayer at h
  obtain ⟨linked, u, hlinked, h⟩ := of_runOn_bind_ok h
  cases linked with
  | some token =>
    cases h
    rcases linkedWeight_ok hlinked with
      ⟨-, hnone, -⟩ | ⟨source, output, value, hsource, hrun, htoken⟩
    · cases hnone
    · rw [bind_token?_eq_some.mp htoken.symm] at hrun
      exact ⟨token, rfl, .linked hsource hrun⟩
  | none =>
    obtain ⟨name, v, hname, h⟩ := of_runOn_bind_ok h
    cases h
    have hframe : s.Frame u := by
      have hframe := frame_linkedWeight pass depth tree node ("Weight " ++ toString layer) s
      rwa [hlinked] at hframe
    have hwrites := writeWeight_writes hname
    refine ⟨name, rfl, .constant ?_ rfl hname rfl hwrites ?_⟩
    · rcases linkedWeight_ok hlinked with
        ⟨hnone, -, hu⟩ | ⟨source, output, value, hsource, hrun, htoken⟩
      · exact Or.inl ⟨hnone, hu⟩
      · exact Or.inr ⟨source, output, value, hsource, hrun, bind_token?_eq_none.mp htoken.symm⟩
    -- the record is sent between `u` and `t`, and the call has begun before and goes on behind
    · refine mem_drop_mono (hs.trans hframe).sent (hwrites.sent ▸ List.prefix_append _ _)
        ht.sent ?_
      rw [hwrites.sent, List.drop_left]
      exact List.mem_singleton_self _

/-- A layer gives its tokens, if it has them. -/
theorem brdfLayer_ok {given : Option (String × String)} (hs : start.Frame s) (ht : t.Frame final)
    (h : (pass.brdfLayer (pass.walk depth) tree node layer).runOn s = (.ok given, t)) :
    BrdfInput pass (pass.walk depth) tree node (final.sent.drop start.sent.length) layer s
      given t := by
  rw [Pass.brdfLayer_eq] at h
  cases hinput : node.input? ("BRDF " ++ toString layer) with
  | none =>
    rw [hinput] at h
    cases h
    exact .missing hinput
  | some socket =>
    rw [hinput] at h
    simp only at h
    by_cases hlinked : tree.isLinked ⟨node.name, socket.name⟩ = true
    · rw [if_pos hlinked] at h
      obtain ⟨value, u, hvalue, h⟩ := of_runOn_bind_ok h
      unfold Pass.modelLayer at h
      cases htoken : value.bind (·.token?) with
      | none =>
        rw [htoken] at h
        cases h
        exact .empty hinput hlinked hvalue (bind_token?_eq_none.mp htoken)
      | some brdf =>
        rw [htoken] at h
        have hframe : s.Frame u := by
          have hframe := frame_socket pass depth tree node socket s
          rwa [hvalue] at hframe
        obtain ⟨weight, rfl, hweight⟩ := weighLayer_layerWeight (hs.trans hframe) ht h
        rw [bind_token?_eq_some.mp htoken] at hvalue
        exact .layer hinput hlinked hvalue hweight
    · rw [if_neg hlinked] at h
      cases h
      exact .unlinked hinput (Bool.eq_false_iff.mpr hlinked)

end Walk

/-! ### Layered records -/

/-- How a layered writer ends. If it has no layers it reports that, and returns and writes nothing.
Otherwise their record is written, and its name returned. -/
structure EndsLayered (layers : List α) (line : LogLine) (record : String → Record)
    (s : PassState) (value : Option Resolved) (t : PassState) : Prop where
  none_iff : value = none ↔ layers = []
  nothing : layers = [] → t = s.note line
  written : layers ≠ [] → ∃ name, value = some (.reference name) ∧ s.Writes (record name) t

/-- Layers are gathered, and then the writer ends. -/
theorem endsLayered_of_run {layers : List β} {given : List α} {line : LogLine} {base : String}
    {value : Option Resolved} (record : String → Record)
    (hname : ∀ name, (record name).name = name) (hlayers : layers = [] ↔ given = [])
    (h : (if layers.isEmpty then report line >>= fun _ => pure none
      else pass.claimAndEmit base [] record >>= fun token =>
        pure (some (.reference token))).runOn s = (.ok value, t)) :
    EndsLayered given line record s value t := by
  by_cases hempty : layers = []
  · rw [if_pos (List.isEmpty_iff.mpr hempty)] at h
    cases h
    have hgiven := hlayers.mp hempty
    exact ⟨iff_of_true rfl hgiven, fun _ => rfl, fun hne => absurd hgiven hne⟩
  · rw [if_neg fun he => hempty (List.isEmpty_iff.mp he)] at h
    obtain ⟨name, u, hemit, h⟩ := of_runOn_bind_ok h
    cases h
    have hgiven : given ≠ [] := fun he => hempty (hlayers.mpr he)
    obtain ⟨r, rfl, -, hwrites⟩ := claimAndEmit_writes hname hemit
    exact ⟨iff_of_false nofun hgiven, fun he => absurd he hgiven, fun _ => ⟨name, rfl, hwrites⟩⟩

/-- A record that is written is the last one that was sent. -/
theorem PassState.Writes.of_getLast? {r last : Record} (h : s.Writes r t)
    (hlast : t.sent.getLast? = some last) : s.Writes last t := by
  rw [h.sent, List.getLast?_concat] at hlast
  exact Option.some.inj hlast ▸ h

section Writers

variable (pass : Pass) (depth : Nat) (tree : NodeTree) (node : Node) (s t : PassState)
  (value : Option Resolved)

/-- **Layers stay aligned.** Where a layered texture ends well, its inputs have been gone through in
order. The record lists, from the last to the first, the tokens of those inputs that are linked and
came to a reference, and beside each token the number on the same input. Where a layered shading
model ends well, its layers have been gone through in order. The record lists the tokens of those
whose model is linked and came to a reference, and beside each the weight of the same layer: the
token of what is linked to it or, if nothing is or that comes to no reference, the name of a
constant texture that holds the layer's number and was written before in the same call. If there are
no such layers nothing is returned, and nothing is written after the inputs. -/
theorem layers_aligned :
    ((pass.writeLayeredTexture (pass.walk depth) tree node).runOn s = (.ok value, t) →
      ∃ given layers u, InTurn (TextureInput (pass.walk depth) tree node) node.inputs s given u ∧
        layers = given.filterMap id ∧
        EndsLayered layers (.textureWithoutLayers tree.name node.name)
          (fun name => ⟨"TexLayered", name, .texture,
            [("textures", listText .references (layers.reverse.map fun layer => layer.2)),
              ("weights", pass.animatedText (listText .floats (layers.reverse.map fun layer =>
                numberText (layerWeight (some layer.1)))))]⟩) u value t) ∧
    ∀ additive,
      (pass.writeLayeredBrdf (pass.walk depth) tree node additive).runOn s = (.ok value, t) →
      ∃ given layers u written, u.sent = s.sent ++ written ∧
        InTurn (BrdfInput pass (pass.walk depth) tree node written)
          (List.range' 1 (node.inputs.length / 2)) s given u ∧
        layers = given.filterMap id ∧
        EndsLayered layers (.brdfWithoutLayers tree.name node.name)
          (fun name => ⟨"BRDFLayered", name, .brdf,
            [("brdfs", listText .references (layers.map fun layer => layer.1)),
              ("weights", listText .references (layers.map fun layer => layer.2)),
              ("additive_mode", pass.literalText (.bool additive))]⟩) u value t := by
  constructor
  · intro h
    obtain ⟨texts, u, htexts, h⟩ := of_runOn_bind_ok h
    obtain ⟨-, given, hturn, rfl⟩ := collect_inTurn
      (fun socket hmem => frame_textureLayer pass depth tree hmem)
      (fun _ _ _ _ _ _ _ hrun => textureLayer_ok hrun) (.refl s) htexts
    refine ⟨given, given.filterMap id, u, hturn, rfl, ?_⟩
    have hend : EndsLayered (given.filterMap id) _ _ u value t := endsLayered_of_run
      (fun name => pass.layeredTextureRecord name _) (fun _ => rfl) (by simp) h
    simpa [Pass.layeredTextureRecord, List.map_reverse, Function.comp_def] using hend
  · intro additive h
    obtain ⟨layers, u, hlayers, h⟩ := of_runOn_bind_ok h
    obtain ⟨hframe, given, hturn, hgiven⟩ := collect_inTurn (g := id)
      (fun layer _ s => (lasting_brdfLayer layer s).1)
      (fun _ _ _ _ _ hs hu hrun => ⟨_, brdfLayer_ok hs hu hrun, by simp⟩) (.refl s) hlayers
    rw [List.map_id] at hgiven
    obtain ⟨written, hsent⟩ := hframe.sent
    refine ⟨given, layers, u, written, hsent.symm, ?_, hgiven, endsLayered_of_run
      (fun name => pass.layeredBrdfRecord name layers additive) (fun _ => rfl) Iff.rfl h⟩
    rwa [← hsent, List.drop_left] at hturn

end Writers

/-- A texture of four layers: two are linked to textures, one to nothing that has a record, and one
not at all. -/
def stackNode : Node where
  name := "Stack"
  kind := .layeredTexture
  inputs := [⟨"Top", .input, .texture, none, some (.float (Single.ofRatio false 1 4))⟩,
    ⟨"Gap", .input, .texture, none, none⟩, ⟨"Void", .input, .texture, none, none⟩,
    ⟨"Base", .input, .texture, none, some (.int 2)⟩]

/-- A shading model of three layers: the first has a texture for its weight, the second has no
record, and the third has a number. -/
def lacquerNode : Node where
  name := "Lacquer"
  kind := .layeredBrdf false
  inputs := [⟨"BRDF 1", .input, .brdf, none, none⟩, ⟨"Weight 1", .input, .floatTexture, none, none⟩,
    ⟨"BRDF 2", .input, .brdf, none, none⟩, ⟨"Weight 2", .input, .floatTexture, none, none⟩,
    ⟨"BRDF 3", .input, .brdf, none, none⟩,
    ⟨"Weight 3", .input, .floatTexture, none, some (.float (Single.ofRatio false 1 2))⟩]

/-- The tree of both. -/
def lacquerTree : NodeTree :=
  .ofParts "Box"
    [stackNode, lacquerNode, { name := "Off", kind := .unset },
      { name := "Dust", kind := .plugin .texture "TexDistance",
        outputs := [⟨"Out", .output, .floatTexture, none, none⟩] },
      { name := "Grain", kind := .plugin .texture "TexDistance" },
      { name := "Clear", kind := .plugin .brdf "BRDFDiffuse" },
      { name := "Paint", kind := .plugin .brdf "BRDFDiffuse" }]
    [⟨⟨1⟩, ⟨"Dust", "Out"⟩, ⟨"Stack", "Top"⟩⟩, ⟨⟨2⟩, ⟨"Off", "Out"⟩, ⟨"Stack", "Void"⟩⟩,
      ⟨⟨3⟩, ⟨"Grain", "Out"⟩, ⟨"Stack", "Base"⟩⟩, ⟨⟨4⟩, ⟨"Clear", "Out"⟩, ⟨"Lacquer", "BRDF 1"⟩⟩,
      ⟨⟨5⟩, ⟨"Dust", "Out"⟩, ⟨"Lacquer", "Weight 1"⟩⟩, ⟨⟨6⟩, ⟨"Off", "Out"⟩, ⟨"Lacquer", "BRDF 2"⟩⟩,
      ⟨⟨7⟩, ⟨"Paint", "Out"⟩, ⟨"Lacquer", "BRDF 3"⟩⟩]

/-- The pass that compiles this tree under the built-in catalog. -/
def lacquerPass : Pass :=
  ⟨⟨({} : Scene).addTree lacquerTree, Catalog.builtin, {}⟩, { geometry := .external }, 1⟩

theorem layers_aligned_lacquer :
    let stack := lacquerPass.writeLayeredTexture (lacquerPass.walk 3) lacquerTree stackNode
    let lacquer := lacquerPass.writeLayeredBrdf (lacquerPass.walk 3) lacquerTree lacquerNode false
    stack.runOn {} = (.ok (some (.reference "NTBoxNStack")), (stack.runOn {}).2) ∧
    lacquer.runOn {} = (.ok (some (.reference "NTBoxNLacquer")), (lacquer.runOn {}).2) ∧
    (∃ given u, InTurn (TextureInput (lacquerPass.walk 3) lacquerTree stackNode) stackNode.inputs {}
        given u ∧
      u.Writes ⟨"TexLayered", "NTBoxNStack", .texture,
        [("textures", "List(NTBoxNGrain,NTBoxNDust)"), ("weights", "ListFloat(2.000000,0.250000)")]⟩
        (stack.runOn {}).2) ∧
    ∃ given u written, u.sent = written ∧
      InTurn (BrdfInput lacquerPass (lacquerPass.walk 3) lacquerTree lacquerNode written) [1, 2, 3] {}
        given u ∧
      u.Writes ⟨"BRDFLayered", "NTBoxNLacquer", .brdf,
        [("brdfs", "List(NTBoxNClear,NTBoxNPaint)"),
          ("weights", "List(NTBoxNDust,NTBoxNLacquerWNTBoxNPaintI3)"), ("additive_mode", "0")]⟩
        (lacquer.runOn {}).2 := by
  intro stack lacquer
  have hstack : stack.runOn {} = (.ok (some (.reference "NTBoxNStack")), (stack.runOn {}).2) :=
    Prod.ext (by decide +kernel) rfl
  have hlacquer : lacquer.runOn {} =
      (.ok (some (.reference "NTBoxNLacquer")), (lacquer.runOn {}).2) :=
    Prod.ext (by decide +kernel) rfl
  refine ⟨hstack, hlacquer, ?_, ?_⟩
  · obtain ⟨given, layers, u, hturn, -, hend⟩ := (layers_aligned lacquerPass 3 lacquerTree stackNode
      {} (stack.runOn {}).2 _).1 hstack
    obtain ⟨name, -, hwrites⟩ := hend.written fun hnone => nomatch hend.none_iff.mpr hnone
    exact ⟨given, u, hturn, hwrites.of_getLast? (by decide +kernel)⟩
  · obtain ⟨given, layers, u, written, hsent, hturn, -, hend⟩ := (layers_aligned lacquerPass 3
      lacquerTree lacquerNode {} (lacquer.runOn {}).2 _).2 false hlacquer
    obtain ⟨name, -, hwrites⟩ := hend.written fun hnone => nomatch hend.none_iff.mpr hnone
    exact ⟨given, u, written, hsent, hturn, hwrites.of_getLast? (by decide +kernel)⟩

end ShadeNet
