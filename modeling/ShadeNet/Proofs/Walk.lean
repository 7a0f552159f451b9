/-
# The walk keeps a contract

Whatever contract the primitive steps keep is kept by every function of the walk,
one lemma for each, and by the walk itself at every depth. The recursion goes
through the compiler of nodes alone, so each function is judged under the
assumption that the compiler it is given keeps the contract.

Key definitions: `Contract.Compiles`, `Contract.Feeds`.
Key theorems: `Contract.keeps_compileNode`, `Contract.walk`.
-/
import ShadeNet.Proofs.Contract

namespace ShadeNet

namespace Contract

variable {pass : Pass} {K : Contract pass} {compile : NodeCompiler}

/-- A compiler of nodes keeps a contract. -/
def Compiles (K : Contract pass) (compile : NodeCompiler) : Prop :=
  ∀ tree node useLiterals, K.Known tree node →
    K.Keeps (fun _ => True) (compile tree node useLiterals) fun r t => ∀ v ∈ r, K.Gives node.kind t v

theorem stable_val (v : Resolved) : K.Stable fun s => K.Val s v := fun _ _ hr h => K.val_mono hr h

/-- Values that are worth it are so later on. -/
theorem stable_token (token : String) : K.Stable fun s => K.Val s (.reference token) :=
  stable_val _

/-! ### Sockets -/

/-- What is linked to a socket compiles in keeping with a contract. -/
def Feeds (K : Contract pass) (P : PassState → Prop) (compile : NodeCompiler) (tree : NodeTree)
    (node : Node) (socket : Socket) (useLiterals : Bool) : Prop :=
  ∀ link source, tree.linkTo? ⟨node.name, socket.name⟩ = some link →
    tree.node? link.source.node = some source →
    K.Keeps P (compile tree source useLiterals) fun r t => ∀ v ∈ r, K.Gives source.kind t v

theorem Compiles.feeds (hc : K.Compiles compile) {tree : NodeTree} {node : Node}
    (hk : K.Known tree node) (socket : Socket) (useLiterals : Bool) :
    K.Feeds (fun _ => True) compile tree node socket useLiterals :=
  fun _ source _ hn => hc tree source useLiterals (K.known_source hk hn)

section Linked

variable {P : PassState → Prop} {tree : NodeTree} {node : Node} {useLiterals : Bool}

theorem keeps_resolveSocket {socket : Socket} (hk : K.Known tree node)
    (hf : K.Feeds P compile tree node socket useLiterals)
    (hs : ∀ v, socket.literal = some v → ∀ s, K.Val s (.literal v)) :
    K.Keeps P (resolveSocket compile tree node socket useLiterals)
      fun r t => ∀ v ∈ r, K.Val t v := by
  unfold resolveSocket
  cases hl : tree.linkTo? ⟨node.name, socket.name⟩ with
  | none =>
    refine keeps_pure fun s _ v hv => ?_
    split at hv
    · obtain ⟨w, hw, rfl⟩ := Option.map_eq_some_iff.mp hv
      exact hs w hw s
    · cases hv
  | some link =>
    simp only
    cases hn : tree.node? link.source.node with
    | none => exact keeps_report_pure rfl fun s _ v hv => by cases hv
    | some source =>
      have hks := K.known_source hk hn
      refine (hf link source hl hn).bind fun r => keeps_pure fun s hr v hv => ?_
      obtain ⟨w, hw, rfl⟩ := Option.map_eq_some_iff.mp hv
      exact (hr w hw).select hks _

/-- A socket of a known node. -/
theorem keeps_ownSocket {socket : Socket} (hk : K.Known tree node) (hs : socket ∈ node.inputs)
    (hf : K.Feeds P compile tree node socket useLiterals) :
    K.Keeps P (resolveSocket compile tree node socket useLiterals)
      fun r t => ∀ v ∈ r, K.Val t v :=
  keeps_resolveSocket hk hf fun _ hv _ => K.val_of_made (K.literal hk hs hv)

theorem keeps_resolveInput (hk : K.Known tree node) {name : String}
    (hf : ∀ socket, node.input? name = some socket →
      K.Feeds P compile tree node socket useLiterals) :
    K.Keeps P (resolveInput compile tree node name useLiterals)
      fun r t => ∀ v ∈ r, K.Val t v := by
  unfold resolveInput
  cases hi : node.input? name with
  | none => exact keeps_report_pure rfl fun s _ v hv => by cases hv
  | some socket => exact keeps_ownSocket hk (List.mem_of_find?_eq_some hi) (hf socket hi)

end Linked

/-! ### Nodes that are built once -/

/-- A node that is built once is worth what its build makes. -/
theorem keeps_once {tree : NodeTree} {node : Node} (hk : K.Known tree node)
    {build : Compile (Option Resolved)}
    (hb : ∀ s, K.Inv s → s.ledger.node? (s.treeKey tree.name) node.name = none →
      Ends K.Inv K.Rel K.Fault (fun r t => ∀ v ∈ r, K.Made t v)
        (s.mark (s.treeKey tree.name) node.name)
        (build.runOn (s.mark (s.treeKey tree.name) node.name))) :
    K.Keeps (fun _ => True) (once tree node build) fun r t => ∀ v ∈ r, K.Made t v := by
  intro s hi _
  rw [once_runOn]
  cases hn : s.ledger.node? (s.treeKey tree.name) node.name with
  | some progress =>
    cases progress with
    | resolving => exact ⟨K.refl s, K.fault_cycle _ _, fun _ => hi⟩
    | done v =>
      refine ⟨hi, K.refl s, fun w hw => ?_⟩
      cases hw
      exact K.node hi hn
  | none =>
    have h := hb s hi hn
    simp only
    generalize build.runOn _ = o at h ⊢
    rcases o with ⟨f | _ | v, t⟩
    · have ha := K.abandon hi hn h.1
      exact ⟨ha.1, h.2.1, fun hf => ha.2 (h.2.2 hf)⟩
    · have ha := K.abandon hi hn h.2.1
      exact ⟨ha.2 h.1, ha.1, fun v hv => by cases hv⟩
    · have hd := K.finish hi hk hn h.2.1 h.1 (h.2.2 v rfl)
      refine ⟨hd.1, hd.2.1, fun w hw => ?_⟩
      cases hw
      exact hd.2.2

/-- A build that keeps the contract keeps it on a marked state. -/
theorem Keeps.marked {build : Compile (Option Resolved)}
    (hb : K.Keeps (fun _ => True) build fun r t => ∀ v ∈ r, K.Made t v) (tree : NodeTree)
    (node : Node) : ∀ s, K.Inv s → s.ledger.node? (s.treeKey tree.name) node.name = none →
      Ends K.Inv K.Rel K.Fault (fun r t => ∀ v ∈ r, K.Made t v)
        (s.mark (s.treeKey tree.name) node.name)
        (build.runOn (s.mark (s.treeKey tree.name) node.name)) :=
  fun _ hi _ => hb _ (K.mark _ _ hi) trivial

/-! ### Records -/

theorem keeps_claimAndEmit {P : PassState → Prop} {base : String} {reports : List LogLine}
    {record : String → Record} (hb : OwnBase base)
    (hl : ∀ line ∈ reports, line.isRewrite = false) (hn : ∀ name, (record name).name = name)
    (hf : ∀ s, K.Inv s → P s → ∀ name, K.Fit s (record name)) :
    K.Keeps P (pass.claimAndEmit base reports record) fun token t => K.Made t (.reference token) :=
  fun s hi hs => K.emission hi hb hl hn (hf s hi hs)

/-- A step that gives the token of the record it has written. -/
theorem Keeps.token {P : PassState → Prop} {c : Compile String}
    (h : K.Keeps P c fun token t => K.Made t (.reference token)) :
    K.Keeps P (c >>= fun token => pure (some (.reference token)))
      fun r t => ∀ v ∈ r, K.Made t v :=
  h.bind fun token => keeps_pure fun s hs v hv => by
    cases hv
    exact hs

theorem isRewrite_pluginReports (pass : Pass) (desc : PluginDesc) (params : OrderedMap String Value)
    (supplied : OrderedMap String Resolved) :
    ∀ line ∈ pass.pluginReports desc params supplied, line.isRewrite = false := by
  intro line hl
  obtain ⟨param, -, hp⟩ := List.mem_filterMap.mp hl
  cases hsp : pass.spellParam params supplied param <;> rw [hsp] at hp <;> cases hp
  rfl

theorem claimAndEmit_plugin (pass : Pass) (desc : PluginDesc) (base : String)
    (params : OrderedMap String Value) (supplied : OrderedMap String Resolved) :
    (claimName base >>= fun name => pass.writePlugin desc name params supplied) =
      pass.claimAndEmit base (pass.pluginReports desc params supplied)
        fun name => pass.pluginRecord desc name params supplied := rfl

theorem claimAndEmit_plain (pass : Pass) (base : String) (record : String → Record) :
    (claimName base >>= fun name => pass.emit (record name)) =
      pass.claimAndEmit base [] record := rfl

/-- What sockets supply is found under an attribute only if a socket supplied it. -/
theorem mem_of_get?_ofList {κ α : Type} [DecidableEq κ] {key : κ} {value : α}
    {entries : List (κ × α)} (h : (OrderedMap.ofList entries).get? key = some value) :
    (key, value) ∈ entries :=
  OrderedMap.mem_entries_ofList (OrderedMap.mem_of_lookupEntry h)

theorem keeps_supply (hc : K.Compiles compile) {tree : NodeTree} {node : Node} {socket : Socket}
    (hk : K.Known tree node) (hs : socket ∈ node.inputs) (useLiterals : Bool) :
    K.Keeps (fun _ => True) (supply compile tree node useLiterals socket)
      fun r t => ∀ e ∈ r, K.Val t e.2 := by
  unfold supply
  cases socket.attr with
  | none => exact keeps_pure fun s _ e he => by cases he
  | some attr =>
    refine (keeps_ownSocket hk hs (hc.feeds hk socket useLiterals)).bind fun r =>
      keeps_pure fun s hr e he => ?_
    obtain ⟨w, hw, rfl⟩ := Option.map_eq_some_iff.mp he
    exact hr w hw

theorem keeps_writePluginNode (hc : K.Compiles compile) {tree : NodeTree} {node : Node}
    (hk : K.Known tree node) (plugin : String) (useLiterals : Bool) :
    K.Keeps (fun _ => True) (pass.writePluginNode compile tree node plugin useLiterals)
      fun r t => ∀ v ∈ r, K.Made t v := by
  unfold Pass.writePluginNode
  cases hd : pass.catalog.get? plugin with
  | none => exact keeps_report_pure rfl fun s _ v hv => by cases hv
  | some desc =>
    refine (keeps_collect (R := fun e t => K.Val t e.2) stable_true (fun e => stable_val e.2)
      fun socket hs => keeps_supply hc hk hs useLiterals).bind fun supplied => ?_
    simp only [← bind_assoc, claimAndEmit_plugin]
    refine Keeps.token (keeps_claimAndEmit (ownBase_nodeName _ _) (isRewrite_pluginReports _ _ _ _)
      (fun _ => rfl) fun s hi hs name => ?_)
    refine K.fit_plugin name hi hd (fun attr v hv => ⟨tree, node, hk, hv⟩) fun attr v hv => ?_
    exact hs _ (mem_of_get?_ofList hv)

/-! ### Layers -/

theorem keeps_textureLayer (hc : K.Compiles compile) {tree : NodeTree} {node : Node}
    {socket : Socket} (hk : K.Known tree node) (hs : socket ∈ node.inputs) :
    K.Keeps (fun _ => True) (textureLayer compile tree node socket) fun r t =>
      ∀ layer ∈ r, K.Val t (.reference layer.1) ∧
        ∃ socket ∈ node.inputs, layer.2 = numberText (layerWeight (some socket)) := by
  unfold textureLayer
  split
  · refine (keeps_ownSocket hk hs (hc.feeds hk socket true)).bind fun r => ?_
    cases hr : r.bind (·.token?) with
    | none => exact keeps_report_pure rfl fun s _ v hv => by cases hv
    | some token =>
      refine keeps_pure fun s hw layer hl => ?_
      cases hl
      exact ⟨hw _ (bind_token?_eq_some.mp hr), socket, hs, rfl⟩
  · exact keeps_pure fun s _ v hv => by cases hv

theorem keeps_writeLayeredTexture (hc : K.Compiles compile) {tree : NodeTree} {node : Node}
    (hk : K.Known tree node) :
    K.Keeps (fun _ => True) (pass.writeLayeredTexture compile tree node)
      fun r t => ∀ v ∈ r, K.Made t v := by
  unfold Pass.writeLayeredTexture
  refine (keeps_collect stable_true (fun layer s t hr h => ⟨K.val_mono hr h.1, h.2⟩)
    fun socket hs => keeps_textureLayer hc hk hs).bind fun layers => ?_
  split
  · exact keeps_report_pure rfl fun s _ v hv => by cases hv
  · simp only [← bind_assoc, claimAndEmit_plain]
    exact Keeps.token (keeps_claimAndEmit (ownBase_nodeName _ _) (by simp) (fun _ => rfl)
      fun s _ hs name => K.fit_texture name hk hs)

theorem keeps_writeWeight {P : PassState → Prop} {tree : NodeTree} {node : Node}
    (hk : K.Known tree node) (brdf : String) (layer : Nat) (socket : String) :
    K.Keeps P (pass.writeWeight (nodeName tree.name node.name) brdf layer
      (layerWeight (node.input? socket))) fun token t => K.Made t (.reference token) := by
  unfold Pass.writeWeight
  rw [claimAndEmit_plain]
  refine keeps_claimAndEmit ?_ (by simp) (fun _ => rfl) fun s _ _ name => K.fit_weight name socket hk
  rw [String.append_assoc, String.append_assoc, String.append_assoc]
  exact (ownBase_nodeName _ _).sanitize_append _

theorem keeps_linkedWeight (hc : K.Compiles compile) {tree : NodeTree} {node : Node}
    (hk : K.Known tree node) (socket : String) :
    K.Keeps (fun _ => True) (Pass.linkedWeight compile tree node socket)
      fun r t => ∀ token ∈ r, K.Val t (.reference token) := by
  unfold Pass.linkedWeight
  cases hl : tree.linkedSource? ⟨node.name, socket⟩ with
  | none => exact keeps_pure fun s _ v hv => by cases hv
  | some found =>
    obtain ⟨source, output⟩ := found
    have hs : ∃ name, tree.node? name = some source := by
      unfold NodeTree.linkedSource? at hl
      obtain ⟨link, -, hl⟩ := Option.bind_eq_some_iff.mp hl
      obtain ⟨source', hn, hl⟩ := Option.bind_eq_some_iff.mp hl
      obtain ⟨output', -, hl⟩ := Option.bind_eq_some_iff.mp hl
      cases hl
      exact ⟨_, hn⟩
    obtain ⟨name, hs⟩ := hs
    exact (hc tree source false (K.known_source hk hs)).bind fun r =>
      keeps_pure fun t hr token ht => (hr _ (bind_token?_eq_some.mp ht)).val

theorem keeps_brdfLayer (hc : K.Compiles compile) {tree : NodeTree} {node : Node}
    (hk : K.Known tree node) (layer : Nat) :
    K.Keeps (fun _ => True) (pass.brdfLayer compile tree node layer) fun r t =>
      ∀ e ∈ r, K.Val t (.reference e.1) ∧ K.Val t (.reference e.2) := by
  unfold Pass.brdfLayer
  simp only
  cases hi : node.input? ("BRDF " ++ toString layer) with
  | none => exact keeps_pure fun s _ v hv => by cases hv
  | some socket =>
    simp only
    split
    · refine (keeps_ownSocket hk (List.mem_of_find?_eq_some hi)
        (hc.feeds hk socket true)).bind fun r => ?_
      cases hr : r.bind (·.token?) with
      | none => exact keeps_report_pure rfl fun s _ v hv => by cases hv
      | some brdf =>
        have hbrdf : ∀ s, (∀ v ∈ r, K.Val s v) → K.Val s (.reference brdf) := fun s h =>
          h _ (bind_token?_eq_some.mp hr)
        refine (((keeps_linkedWeight hc hk ("Weight " ++ toString layer)).carry
          (stable_token brdf)).imp (fun s h => ⟨trivial, hbrdf s h⟩) fun _ _ h => h).bind
          fun weight => ?_
        cases weight with
        | some weight =>
          refine keeps_pure fun s hs e he => ?_
          cases he
          exact ⟨hs.2, hs.1 weight rfl⟩
        | none =>
          refine (((keeps_writeWeight (P := fun _ => True) hk brdf layer
            ("Weight " ++ toString layer)).carry (stable_token brdf)).imp
            (fun s h => ⟨trivial, h.2⟩) fun _ _ h => h).bind fun weight =>
              keeps_pure fun s hs e he => ?_
          cases he
          exact ⟨hs.2, K.val_of_made hs.1⟩
    · exact keeps_pure fun s _ v hv => by cases hv

theorem keeps_writeLayeredBrdf (hc : K.Compiles compile) {tree : NodeTree} {node : Node}
    (hk : K.Known tree node) (additive : Bool) :
    K.Keeps (fun _ => True) (pass.writeLayeredBrdf compile tree node additive)
      fun r t => ∀ v ∈ r, K.Made t v := by
  unfold Pass.writeLayeredBrdf
  refine (keeps_collect stable_true (fun e s t hr h => ⟨K.val_mono hr h.1, K.val_mono hr h.2⟩)
    fun layer _ => keeps_brdfLayer hc hk layer).bind fun layers => ?_
  split
  · exact keeps_report_pure rfl fun s _ v hv => by cases hv
  · simp only [← bind_assoc, claimAndEmit_plain]
    exact Keeps.token (keeps_claimAndEmit (ownBase_nodeName _ _) (by simp) (fun _ => rfl)
      fun s _ hs name => K.fit_brdf name additive hs)

/-! ### Materials -/

/-- The nodes of a material tree are known wherever the override does not stand for it. -/
def Meets (K : Contract pass) (tree : NodeTree) : Prop :=
  ∀ s output, K.Inv s → tree.materialOutput? = some output →
    (output.kind = .materialOutput true ∨ s.overrideToken = none) →
    ∀ node ∈ tree.nodes.values, K.Known tree node

/-- The material of a tree, whose end alone matters. -/
theorem keeps_endedMaterialTree {P : PassState → Prop} {tree : NodeTree} (hk : K.Meets tree)
    (hf : ∀ output socket, tree.materialOutput? = some output → K.Known tree output →
      output.input? "Material" = some socket → K.Feeds P compile tree output socket true) :
    K.Keeps P (writeMaterialTree compile tree) fun token t => K.Val t (.reference token) := by
  have hdefault : ∀ {line : LogLine}, line.isRewrite = false →
      ∀ P : PassState → Prop, K.Keeps P (report line >>= fun _ => pure defaultMaterial)
        fun token t => K.Val t (.reference token) :=
    fun hl P => keeps_report_pure hl fun s hi => K.default hi
  unfold writeMaterialTree
  cases ho : tree.materialOutput? with
  | none => exact hdefault rfl _
  | some output =>
    refine keeps_get fun s hi hp => ?_
    cases hv : (if output.kind = .materialOutput true then none else s.overrideToken) with
    | some token =>
      intro t hi ht
      subst ht
      refine ⟨hi, K.refl t, K.override hi ?_⟩
      split at hv
      · cases hv
      · exact hv
    | none =>
      have hnode : K.Known tree output := by
        refine hk s output hi ho ?_ output (List.mem_of_find?_eq_some ho)
        split at hv
        · exact Or.inl ‹_›
        · exact Or.inr hv
      simp only
      split
      · refine ((keeps_attempt (keeps_resolveInput hnode fun socket => hf output socket ho hnode)
          (fun r => ?_) (fun tree node => hdefault rfl _) ?_)).imp
          (fun t ht => ht ▸ hp) fun _ _ h => h
        · match r with
          | some (.reference token) => exact keeps_pure fun t ht => ht _ rfl
          | some (.literal _) => exact hdefault rfl _
          | some (.objects _) => exact hdefault rfl _
          | none => exact hdefault rfl _
        · intro f hf
          cases f with
          | cycle tree node => cases hf
          | io message => rfl
          | depthExceeded => rfl
      · exact hdefault rfl _

theorem keeps_writeMaterialTree (hc : K.Compiles compile) {tree : NodeTree} (hk : K.Meets tree) :
    K.Keeps (fun _ => True) (writeMaterialTree compile tree)
      fun token t => K.Val t (.reference token) :=
  keeps_endedMaterialTree hk fun _ socket _ hk _ => hc.feeds hk socket true

/-- The tree of a material is met. -/
theorem meets_materialTree {material : String} {tree : NodeTree}
    (h : pass.scene.materialTree? material = some tree) : K.Meets tree :=
  fun _ _ hi ho hfree _ hn => K.known_material hi h ho hfree hn

theorem keeps_slotMaterial {P : PassState → Prop} {slot : Option String}
    (hm : ∀ tree, slot.bind pass.scene.materialTree? = some tree →
      K.Keeps P (writeMaterialTree compile tree) fun token t => K.Val t (.reference token)) :
    K.Keeps P (pass.slotMaterial compile slot)
      fun r t => ∀ token ∈ r, K.Val t (.reference token) := by
  unfold Pass.slotMaterial
  cases hs : slot.bind pass.scene.materialTree? with
  | none => exact keeps_pure fun s _ v hv => by cases hv
  | some tree =>
    refine (hm tree hs).bind fun token => keeps_pure fun s ht token' h => ?_
    cases h
    exact ht

theorem keeps_combineMaterials (object : String) : ∀ materials : List String,
    K.Keeps (fun s => ∀ token ∈ materials, K.Val s (.reference token))
      (pass.combineMaterials (multiMaterialName object) materials)
      fun token t => K.Val t (.reference token)
  | [] => fun s hi _ => ⟨hi, K.refl s, K.default hi⟩
  | [token] => keeps_pure fun s h => h token (by simp)
  | a :: b :: rest => by
    show K.Keeps _ (claimName (multiMaterialName object) >>=
      fun name => pass.emit (Pass.multiMaterialRecord name (a :: b :: rest))) _
    rw [claimAndEmit_plain]
    exact (keeps_claimAndEmit (ownBase_multiMaterialName _) (by simp) (fun _ => rfl)
      fun s _ hs name => K.fit_multi name hs).imp (fun _ h => h) fun _ _ h => K.val_of_made h

/-- The material of an object, of which the trees of its slots matter. -/
theorem keeps_slottedMaterial {P : PassState → Prop} (hP : K.Stable P)
    (hm : ∀ s scope object slot tree, P s → s.scope = some scope →
      pass.scene.object? scope.name = some object → slot ∈ object.slots →
      slot.bind pass.scene.materialTree? = some tree →
      K.Keeps P (writeMaterialTree compile tree) fun token t => K.Val t (.reference token)) :
    K.Keeps P (pass.writeObjectMaterial compile) fun token t => K.Val t (.reference token) := by
  unfold Pass.writeObjectMaterial
  refine keeps_get fun s his hp => ?_
  cases hs : s.scope with
  | none => exact keeps_report_pure rfl fun t hi => K.default hi
  | some scope =>
    simp only
    cases ho : pass.scene.object? scope.name with
    | none => exact fun t hi _ => ⟨hi, K.refl t, K.default hi⟩
    | some object =>
      simp only
      cases hy : s.ledger.synthesized? (multiMaterialName scope.name) with
      | some token =>
        intro t hi ht
        subst ht
        exact ⟨hi, K.refl t, K.synthesized hi hy⟩
      | none =>
        have hgather : K.Keeps P (collect (pass.slotMaterial compile) object.slots >>=
            pass.combineMaterials (multiMaterialName scope.name))
            fun token t => K.Val t (.reference token) :=
          (keeps_collect hP stable_token fun slot hslot => keeps_slotMaterial fun tree =>
            hm s scope object slot tree hp hs ho hslot).bind (keeps_combineMaterials scope.name)
        intro t hi ht
        subst ht
        have h := hgather t hi hp
        rw [← bind_assoc, Compile.runOn_bind]
        generalize Compile.runOn _ t = o at h ⊢
        rcases o with ⟨f | token, u⟩
        · exact h
        · exact K.synthesize hi hs ho hy h.2.1 h.1 h.2.2

theorem keeps_writeObjectMaterial (hc : K.Compiles compile) :
    K.Keeps (fun _ => True) (pass.writeObjectMaterial compile)
      fun token t => K.Val t (.reference token) :=
  keeps_slottedMaterial stable_true fun _ _ _ _ _ _ _ _ _ hs => by
    obtain ⟨material, -, hm⟩ := Option.bind_eq_some_iff.mp hs
    exact keeps_writeMaterialTree hc (meets_materialTree hm)

/-! ### Objects -/

theorem keeps_writeObjectTree (hc : K.Compiles compile) {tree : NodeTree}
    (hk : ∀ node ∈ tree.nodes.values, K.Known tree node) :
    K.Keeps (fun _ => True) (writeObjectTree compile tree)
      fun r t => ∀ token ∈ r, K.Val t (.reference token) := by
  unfold writeObjectTree
  cases ho : tree.objectOutput? with
  | none => exact keeps_report_pure rfl fun s _ v hv => by cases hv
  | some output =>
    have hko := hk output (List.mem_of_find?_eq_some ho)
    refine keeps_attempt (keeps_resolveInput hko fun socket _ => hc.feeds hko socket true)
      (fun r => ?_) (fun tree node => ?_) ?_
    · refine keeps_pure fun s hr token ht => ?_
      obtain ⟨v, hv, ht⟩ := Option.bind_eq_some_iff.mp ht
      cases v <;> cases ht
      exact hr _ hv
    · exact keeps_report_pure rfl fun s _ v hv => by cases hv
    · intro f hf
      cases f with
      | cycle tree node => cases hf
      | io message => rfl
      | depthExceeded => rfl

theorem keeps_writePlainObject (hc : K.Compiles compile) {name : String} {object : SceneObject}
    (ho : pass.scene.object? name = some object) :
    K.Keeps (fun _ => True) (pass.writePlainObject compile name object)
      fun r t => ∀ token ∈ r, K.Val t (.reference token) := by
  unfold Pass.writePlainObject
  cases hd : pass.catalog.get? "Node" with
  | none => exact keeps_report_pure rfl fun s _ v hv => by cases hv
  | some desc =>
    simp only
    have hg : K.Keeps (fun _ => True) pass.writeGeometry fun r t => ∀ v ∈ r, K.Made t v :=
      fun s hi _ => K.geometry hi
    refine hg.bind fun geometry => ?_
    cases geometry with
    | none => exact keeps_pure fun s _ v hv => by cases hv
    | some geometry =>
      refine (((keeps_writeObjectMaterial hc).carry (stable_val geometry)).imp
        (fun s h => ⟨trivial, K.val_of_made (h geometry rfl)⟩) fun _ _ h => h).bind fun material => ?_
      simp only [← bind_assoc, claimAndEmit_plugin]
      refine (keeps_claimAndEmit (ownBase_objectName _) (isRewrite_pluginReports _ _ _ _)
        (fun _ => rfl) fun s hi hs instanceName => ?_).bind fun token =>
          keeps_pure fun s hs token' h => ?_
      · refine K.fit_plugin instanceName hi hd (fun attr v hv => by simp at hv) fun attr v hv => ?_
        have hm := mem_of_get?_ofList hv
        simp only [List.mem_cons, List.not_mem_nil, or_false, Prod.mk.injEq] at hm
        rcases hm with ⟨-, rfl⟩ | ⟨-, rfl⟩ | ⟨-, rfl⟩
        · exact hs.2
        · exact hs.1
        · exact K.transform ho
      · cases h
        exact K.val_of_made hs

theorem keeps_buildObject (hc : K.Compiles compile) {name : String} {object : SceneObject}
    (ho : pass.scene.object? name = some object) :
    K.Keeps (fun _ => True) (pass.buildObject compile name object)
      fun r t => ∀ token ∈ r, K.Val t (.reference token) := by
  unfold Pass.buildObject
  cases hkey : object.tree with
  | none => exact keeps_writePlainObject hc ho
  | some key =>
    simp only
    cases hk : pass.scene.tree? key with
    | some tree => exact keeps_writeObjectTree hc fun node hn => K.known_object ho hkey hk hn
    | none => exact keeps_report_pure rfl fun s _ v hv => by cases hv

/-- An object, judged by what is compiled in its scope. -/
theorem keeps_enteredObject {name : String}
    (hb : ∀ s object, K.Inv s → s.ledger.object? name = none →
      pass.scene.object? name = some object →
      Ends K.Inv K.Rel K.Fault (fun r t => ∀ token ∈ r, K.Val t (.reference token))
        (s.enter name object)
        ((pass.buildObject compile name object).runOn (s.enter name object))) :
    K.Keeps (fun _ => True) (pass.writeObject compile name)
      fun r t => ∀ token ∈ r, K.Val t (.reference token) := by
  intro s hi _
  rw [writeObject_runOn]
  cases hl : s.ledger.object? name with
  | some progress =>
    cases progress with
    | resolving =>
      have hr : K.Inv (s.note (.objectBeingWritten name)) ∧
          K.Rel s (s.note (.objectBeingWritten name)) := K.reported hi rfl
      exact ⟨hr.1, hr.2, fun v hv => by cases hv⟩
    | done token =>
      refine ⟨hi, K.refl s, fun token' h => ?_⟩
      cases h
      exact K.object hi hl
  | none =>
    simp only
    cases ho : pass.scene.object? name with
    | none => exact ⟨hi, K.refl s, fun v hv => by cases hv⟩
    | some object =>
      simp only
      split
      · have h := hb s object hi hl ho
        generalize hrun : (pass.buildObject compile name object).runOn _ = o at h ⊢
        rcases o with ⟨f | token, t⟩
        · have hq := K.quit hi hl ho hrun h.1
          exact ⟨hq.1, h.2.1, fun hf => hq.2 hf (h.2.2 hf)⟩
        · exact K.leave hi hl ho hrun h.2.1 h.1 h.2.2
      · rename_i hhidden
        have hh := K.hide hi hl ho (by simpa using hhidden)
        exact ⟨hh.1, hh.2, fun v hv => by cases hv⟩

theorem keeps_writeObject (hc : K.Compiles compile) (name : String) :
    K.Keeps (fun _ => True) (pass.writeObject compile name)
      fun r t => ∀ token ∈ r, K.Val t (.reference token) :=
  keeps_enteredObject fun _ _ hi _ ho => keeps_buildObject hc ho _ (K.enter hi ho) trivial

theorem keeps_select {tree : NodeTree} {node : Node} {names : List String}
    (hw : ∀ name, K.Keeps (fun _ => True) (pass.writeObject compile name)
      fun r t => ∀ token ∈ r, K.Val t (.reference token)) :
    K.Keeps (fun _ => True) (pass.select compile tree node names) fun v t => K.Made t v := by
  unfold Pass.select
  refine (keeps_collect stable_true stable_token fun name _ => ?_).bind fun tokens =>
    keeps_pure fun s h => K.objects h
  unfold Pass.selectMember
  refine keeps_get fun s _ _ => ?_
  split
  · exact keeps_throw (K.fault_cycle _ _)
  · exact (hw name).imp (fun _ _ => trivial) fun _ _ h => h

/-! ### Nodes -/

/-- One step of the walk keeps the contract if the compiler it is given does. -/
theorem keeps_compileNode (hc : K.Compiles compile) : K.Compiles (pass.compileNode compile) := by
  intro tree node useLiterals hk
  have hval : ∀ {kind : NodeKind} {c : Compile (Option Resolved)}, kind.passesOn = true →
      K.Keeps (fun _ => True) c (fun r t => ∀ v ∈ r, K.Val t v) →
      K.Keeps (fun _ => True) c fun r t => ∀ v ∈ r, K.Gives kind t v := fun hp h =>
    h.imp (fun _ _ => trivial) fun _ _ h v hv => by
      unfold Gives
      rw [if_pos hp]
      exact h v hv
  have hmade : ∀ {kind : NodeKind} {c : Compile (Option Resolved)}, kind.passesOn = false →
      K.Keeps (fun _ => True) c (fun r t => ∀ v ∈ r, K.Made t v) →
      K.Keeps (fun _ => True) c fun r t => ∀ v ∈ r, K.Gives kind t v := fun hp h =>
    h.imp (fun _ _ => trivial) fun _ _ h v hv => by
      unfold Gives
      rw [if_neg (by simp [hp])]
      exact h v hv
  unfold Pass.compileNode
  cases hkind : node.kind with
  | plugin category plugin =>
    exact hmade rfl
      (keeps_once hk ((keeps_writePluginNode hc hk plugin useLiterals).marked tree node))
  | unset => exact keeps_pure fun s _ v hv => by cases hv
  | layeredTexture =>
    exact hmade rfl (keeps_once hk ((keeps_writeLayeredTexture hc hk).marked tree node))
  | layeredBrdf additive =>
    exact hmade rfl (keeps_once hk ((keeps_writeLayeredBrdf hc hk additive).marked tree node))
  | selectObject object =>
    refine hmade rfl ((keeps_select (keeps_writeObject hc)).bind fun v =>
      keeps_pure fun s hs w hw => ?_)
    cases hw
    exact hs
  | selectGroup group =>
    refine hmade rfl ((keeps_select (keeps_writeObject hc)).bind fun v =>
      keeps_pure fun s hs w hw => ?_)
    cases hw
    exact hs
  | objectGeometry => exact hmade rfl fun s hi _ => K.geometry hi
  | objectMaterial =>
    refine hval rfl ((keeps_writeObjectMaterial hc).bind fun token => keeps_pure fun s hs w hw => ?_)
    cases hw
    exact hs
  | materialOutput dontOverride => exact hval rfl (keeps_resolveInput hk fun socket _ =>
      hc.feeds hk socket useLiterals)
  | objectOutput => exact hval rfl (keeps_resolveInput hk fun socket _ =>
      hc.feeds hk socket useLiterals)

/-- The walk keeps a contract at every depth. -/
theorem walk (K : Contract pass) (hf : K.Fault .depthExceeded) :
    ∀ depth, K.Compiles (pass.walk depth)
  | 0 => fun _ _ _ _ => keeps_throw hf
  | depth + 1 => keeps_compileNode (walk K hf depth)

end Contract

end ShadeNet
