/-
# Two walks side by side

The same step is taken in two passes over one scene, or with two compilers of nodes, and
the two runs are compared. The passes may differ in what the destination refuses and in how
literals are keyed to a frame. A comparison that the primitive steps keep, that goes
through sequences and that gets past whatever handles cycles is kept by every function of
the walk: no function looks at anything else.

Key definitions: `HandsOn`, `Pass.Renders`, `PassState.Sees`, `Pairing`, `Pairing.PairsAll`.
Key theorems: `Pairing.once`, `Pairing.writeMaterialTree`, `Pairing.writeObject`,
`Pairing.compileNode`, `Pairing.body`.
-/
import ShadeNet.Proofs.Contract
import ShadeNet.Proofs.Course

namespace ShadeNet

variable {α β : Type}

/-- A handler of failures that hands all but cycles on and writes nothing then. -/
def HandsOn (g : Except Failure α → Compile β) : Prop :=
  ∀ f, f.isCycle = false → ∀ s, ((g (.error f)).runOn s).1 = .error f ∧
    ((g (.error f)).runOn s).2.sink = s.sink

/-- One record as two passes write it. -/
inductive Pass.Renders (pass other : Pass) : Record → Record → Prop
  | plugin (desc : PluginDesc) (name : String) (params : OrderedMap String Value)
    (supplied : OrderedMap String Resolved) :
    Renders pass other (pass.pluginRecord desc name params supplied)
      (other.pluginRecord desc name params supplied)
  | texture (name : String) (layers : List (String × String)) :
    Renders pass other (pass.layeredTextureRecord name layers)
      (other.layeredTextureRecord name layers)
  | weight (name : String) (weight : Single) :
    Renders pass other (pass.weightRecord name weight) (other.weightRecord name weight)
  | brdf (name : String) (layers : List (String × String)) (additive : Bool) :
    Renders pass other (pass.layeredBrdfRecord name layers additive)
      (other.layeredBrdfRecord name layers additive)
  | fixed (r : Record) : Renders pass other r r

/-- A pass renders a record for itself as it is. -/
theorem Pass.Renders.eq {pass : Pass} {r r' : Record} (h : pass.Renders pass r r') : r' = r := by
  cases h <;> rfl

/-- What the walk sees of two states is the same: what is compiled, in which scope, and what
overrides it. -/
structure PassState.Sees (s t : PassState) : Prop where
  ledger : t.ledger = s.ledger
  scope : t.scope = s.scope
  overrideToken : t.overrideToken = s.overrideToken

/-- How steps of a pass compare with the same steps of another pass over the scene. -/
structure Pairing (pass other : Pass) where
  /-- A step of the pass compares with a step of the other one. -/
  Pairs : ∀ {α : Type}, Compile α → Compile α → Prop
  scene : other.scene = pass.scene
  catalog : other.catalog = pass.catalog
  override : other.settings.overrideMaterial = pass.settings.overrideMaterial
  reports : ∀ desc params supplied,
    other.pluginReports desc params supplied = pass.pluginReports desc params supplied
  pure : ∀ {α : Type} (a : α), Pairs (pure a) (pure a)
  throw : ∀ {α : Type} (f : Failure), Pairs (throw f : Compile α) (throw f)
  get : ∀ {α : Type} {f g : PassState → Compile α}, (∀ s, Pairs (f s) (g s)) →
    (∀ s t, s.Sees t → g s = g t) → Pairs (get >>= f) (get >>= g)
  report : ∀ line, Pairs (report line) (report line)
  modifyLedger : ∀ f, Pairs (modifyLedger f) (modifyLedger f)
  claimName : ∀ base, Pairs (claimName base) (claimName base)
  replaceScope : ∀ scope, Pairs (replaceScope scope) (replaceScope scope)
  choose : ∀ token : String, Pairs (modify fun s => { s with overrideToken := some token })
    (modify fun s => { s with overrideToken := some token })
  emit : ∀ {r r'}, pass.Renders other r r' → Pairs (pass.emit r) (other.emit r')
  writeGeometry : Pairs pass.writeGeometry other.writeGeometry
  bind : ∀ {α β : Type} {c d : Compile α} {f g : α → Compile β}, Pairs c d →
    (∀ a, Pairs (f a) (g a)) → Pairs (c >>= f) (d >>= g)
  attempt : ∀ {α β : Type} {c d : Compile α} {g : Except Failure α → Compile β}, Pairs c d →
    (∀ r, Pairs (g r) (g r)) → HandsOn g → Pairs (attempt c >>= g) (attempt d >>= g)

namespace Pairing

variable {pass other : Pass} {compile further : NodeCompiler} (P : Pairing pass other)

/-- Two compilers of nodes that compare at every node. -/
def PairsAll (compile further : NodeCompiler) : Prop :=
  ∀ tree node useLiterals, P.Pairs (compile tree node useLiterals) (further tree node useLiterals)

/-! ### Sequences -/

theorem report_pure (line : LogLine) (a : α) :
    P.Pairs (ShadeNet.report line >>= fun _ => Pure.pure a)
      (ShadeNet.report line >>= fun _ => Pure.pure a) :=
  P.bind (P.report line) fun _ => P.pure a

theorem collect {f g : α → Compile (Option β)} {l : List α} (h : ∀ a ∈ l, P.Pairs (f a) (g a)) :
    P.Pairs (ShadeNet.collect f l) (ShadeNet.collect g l) := by
  induction l with
  | nil => exact P.pure _
  | cons a rest ih =>
    exact P.bind (h a List.mem_cons_self) fun _ =>
      P.bind (ih fun b hb => h b (List.mem_cons_of_mem a hb)) fun _ => P.pure _

theorem forM {f g : α → Compile Unit} {l : List α} (h : ∀ a ∈ l, P.Pairs (f a) (g a)) :
    P.Pairs (l.forM f) (l.forM g) := by
  induction l with
  | nil => exact P.pure _
  | cons a rest ih =>
    exact P.bind (h a List.mem_cons_self) fun _ => ih fun b hb => h b (List.mem_cons_of_mem a hb)

/-! ### Records -/

theorem claimAndEmit (base : String) {record record' : String → Record}
    (h : ∀ name, pass.Renders other (record name) (record' name)) :
    P.Pairs (ShadeNet.claimName base >>= fun name => pass.emit (record name))
      (ShadeNet.claimName base >>= fun name => other.emit (record' name)) :=
  P.bind (P.claimName base) fun _ => P.emit (h _)

theorem writePlugin (desc : PluginDesc) (name : String) (params : OrderedMap String Value)
    (supplied : OrderedMap String Resolved) :
    P.Pairs (pass.writePlugin desc name params supplied)
      (other.writePlugin desc name params supplied) := by
  unfold Pass.writePlugin
  rw [P.reports]
  exact P.bind (P.forM fun line _ => P.report line) fun _ => P.emit (.plugin _ _ _ _)

/-- The mark of a node is taken away before the failure of its build goes on. -/
theorem once (tree : NodeTree) (node : Node) {build build' : Compile (Option Resolved)}
    (hb : P.Pairs build build') : P.Pairs (once tree node build) (once tree node build') := by
  unfold ShadeNet.once
  refine P.get (fun s => ?_) fun s t h => by simp only [PassState.treeKey, h.ledger, h.scope]
  simp only
  split
  · exact P.pure _
  · exact P.throw _
  · refine P.bind (P.modifyLedger _) fun _ => P.attempt hb (fun r => ?_) fun f _ s => ⟨rfl, rfl⟩
    split
    · exact P.bind (P.modifyLedger _) fun _ => P.pure _
    · exact P.bind (P.modifyLedger _) fun _ => P.pure _
    · exact P.bind (P.modifyLedger _) fun _ => P.throw _

theorem materialToken (tree : NodeTree) (r : Except Failure (Option Resolved)) :
    P.Pairs (materialToken tree r) (materialToken tree r) := by
  unfold ShadeNet.materialToken
  split
  · exact P.pure _
  · exact P.report_pure _ _
  · exact P.report_pure _ _
  · exact P.throw _

theorem handsOn_materialToken (tree : NodeTree) : HandsOn (ShadeNet.materialToken tree) := by
  intro f hf s
  cases f with
  | cycle tree node => cases hf
  | io message => exact ⟨rfl, rfl⟩
  | depthExceeded => exact ⟨rfl, rfl⟩

theorem objectToken (r : Except Failure (Option Resolved)) :
    P.Pairs (objectToken r) (objectToken r) := by
  unfold ShadeNet.objectToken
  split
  · exact P.pure _
  · exact P.report_pure _ _
  · exact P.throw _

theorem handsOn_objectToken : HandsOn ShadeNet.objectToken := by
  intro f hf s
  cases f with
  | cycle tree node => cases hf
  | io message => exact ⟨rfl, rfl⟩
  | depthExceeded => exact ⟨rfl, rfl⟩

/-! ### Sockets and nodes -/

section Compilers

variable (hc : P.PairsAll compile further)

include hc

theorem resolveSocket (tree : NodeTree) (node : Node) (socket : Socket) (useLiterals : Bool) :
    P.Pairs (resolveSocket compile tree node socket useLiterals)
      (resolveSocket further tree node socket useLiterals) := by
  unfold ShadeNet.resolveSocket
  split
  · exact P.pure _
  · split
    · exact P.report_pure _ _
    · exact P.bind (hc _ _ _) fun _ => P.pure _

theorem resolveInput (tree : NodeTree) (node : Node) (name : String) (useLiterals : Bool) :
    P.Pairs (resolveInput compile tree node name useLiterals)
      (resolveInput further tree node name useLiterals) := by
  unfold ShadeNet.resolveInput
  split
  · exact P.report_pure _ _
  · exact P.resolveSocket hc _ _ _ _

theorem supply (tree : NodeTree) (node : Node) (useLiterals : Bool) (socket : Socket) :
    P.Pairs (supply compile tree node useLiterals socket)
      (supply further tree node useLiterals socket) := by
  unfold ShadeNet.supply
  split
  · exact P.pure _
  · exact P.bind (P.resolveSocket hc _ _ _ _) fun _ => P.pure _

theorem writePluginNode (tree : NodeTree) (node : Node) (plugin : String) (useLiterals : Bool) :
    P.Pairs (pass.writePluginNode compile tree node plugin useLiterals)
      (other.writePluginNode further tree node plugin useLiterals) := by
  unfold Pass.writePluginNode
  rw [P.catalog]
  split
  · exact P.report_pure _ _
  · refine P.bind (P.collect fun socket _ => P.supply hc _ _ _ _) fun supplied => ?_
    exact P.bind (P.claimName _) fun _ => P.bind (P.writePlugin _ _ _ _) fun _ => P.pure _

/-! ### Layers -/

theorem textureLayer (tree : NodeTree) (node : Node) (socket : Socket) :
    P.Pairs (textureLayer compile tree node socket) (textureLayer further tree node socket) := by
  unfold ShadeNet.textureLayer
  split
  · refine P.bind (P.resolveSocket hc _ _ _ _) fun value => ?_
    split
    · exact P.pure _
    · exact P.report_pure _ _
  · exact P.pure _

theorem writeLayeredTexture (tree : NodeTree) (node : Node) :
    P.Pairs (pass.writeLayeredTexture compile tree node)
      (other.writeLayeredTexture further tree node) := by
  unfold Pass.writeLayeredTexture
  refine P.bind (P.collect fun socket _ => P.textureLayer hc _ _ _) fun layers => ?_
  split
  · exact P.report_pure _ _
  · exact P.bind (P.claimName _) fun _ => P.bind (P.emit (.texture _ _)) fun _ => P.pure _

theorem linkedWeight (tree : NodeTree) (node : Node) (socket : String) :
    P.Pairs (Pass.linkedWeight compile tree node socket)
      (Pass.linkedWeight further tree node socket) := by
  unfold Pass.linkedWeight
  split
  · exact P.bind (hc _ _ _) fun _ => P.pure _
  · exact P.pure _

theorem brdfLayer (tree : NodeTree) (node : Node) (layer : Nat) :
    P.Pairs (pass.brdfLayer compile tree node layer)
      (other.brdfLayer further tree node layer) := by
  unfold Pass.brdfLayer
  simp only
  split
  · exact P.pure _
  · split
    · refine P.bind (P.resolveSocket hc _ _ _ _) fun value => ?_
      split
      · exact P.report_pure _ _
      · refine P.bind (P.linkedWeight hc _ _ _) fun weight => ?_
        split
        · exact P.pure _
        · exact P.bind (P.claimAndEmit _ fun _ => .weight _ _) fun _ => P.pure _
    · exact P.pure _

theorem writeLayeredBrdf (tree : NodeTree) (node : Node) (additive : Bool) :
    P.Pairs (pass.writeLayeredBrdf compile tree node additive)
      (other.writeLayeredBrdf further tree node additive) := by
  unfold Pass.writeLayeredBrdf
  refine P.bind (P.collect fun layer _ => P.brdfLayer hc _ _ _) fun layers => ?_
  split
  · exact P.report_pure _ _
  · exact P.bind (P.claimName _) fun _ => P.bind (P.emit (.brdf _ _ _)) fun _ => P.pure _

/-! ### Materials -/

theorem writeMaterialTree (tree : NodeTree) :
    P.Pairs (writeMaterialTree compile tree) (writeMaterialTree further tree) := by
  unfold ShadeNet.writeMaterialTree
  split
  · exact P.report_pure _ _
  · refine P.get (fun s => ?_) fun s t h => by simp only [h.overrideToken]
    split
    · exact P.pure _
    · split
      · exact P.attempt (P.resolveInput hc _ _ _ _) (P.materialToken tree)
          (handsOn_materialToken tree)
      · exact P.report_pure _ _

theorem slotMaterial (slot : Option String) :
    P.Pairs (pass.slotMaterial compile slot)
      (other.slotMaterial further slot) := by
  unfold Pass.slotMaterial
  rw [P.scene]
  split
  · exact P.pure _
  · exact P.bind (P.writeMaterialTree hc _) fun _ => P.pure _

omit hc in
theorem combineMaterials (key : String) (materials : List String) :
    P.Pairs (pass.combineMaterials key materials)
      (other.combineMaterials key materials) := by
  unfold Pass.combineMaterials
  split
  · exact P.pure _
  · exact P.pure _
  · exact P.claimAndEmit _ fun _ => .fixed _

theorem writeObjectMaterial :
    P.Pairs (pass.writeObjectMaterial compile)
      (other.writeObjectMaterial further) := by
  unfold Pass.writeObjectMaterial
  rw [P.scene]
  refine P.get (fun s => ?_) fun s t h => by simp only [h.ledger, h.scope]
  split
  · exact P.report_pure _ _
  · simp only
    split
    · exact P.pure _
    · split
      · exact P.pure _
      · exact P.bind (P.collect fun slot _ => P.slotMaterial hc slot) fun materials =>
          P.bind (P.combineMaterials _ _) fun token =>
            P.bind (P.modifyLedger _) fun _ => P.pure _

/-! ### Objects -/

theorem writeObjectTree (tree : NodeTree) :
    P.Pairs (writeObjectTree compile tree) (writeObjectTree further tree) := by
  unfold ShadeNet.writeObjectTree
  split
  · exact P.report_pure _ _
  · exact P.attempt (P.resolveInput hc _ _ _ _) P.objectToken handsOn_objectToken

theorem writePlainObject (name : String) (object : SceneObject) :
    P.Pairs (pass.writePlainObject compile name object)
      (other.writePlainObject further name object) := by
  unfold Pass.writePlainObject
  rw [P.catalog]
  split
  · exact P.report_pure _ _
  · refine P.bind P.writeGeometry fun geometry => ?_
    split
    · exact P.pure _
    · refine P.bind (P.writeObjectMaterial hc) fun material => ?_
      exact P.bind (P.claimName _) fun _ => P.bind (P.writePlugin _ _ _ _) fun _ => P.pure _

theorem buildObject (name : String) (object : SceneObject) :
    P.Pairs (pass.buildObject compile name object)
      (other.buildObject further name object) := by
  unfold Pass.buildObject
  rw [P.scene]
  split
  · exact P.writePlainObject hc _ _
  · split
    · exact P.writeObjectTree hc _
    · exact P.report_pure _ _

/-- The mark of an object is taken away before its failure goes on. -/
theorem writeObject (name : String) :
    P.Pairs (pass.writeObject compile name) (other.writeObject further name) := by
  unfold Pass.writeObject
  rw [P.scene]
  refine P.get (fun s => ?_) fun s t h => by simp only [h.ledger]
  split
  · exact P.pure _
  · exact P.report_pure _ _
  · split
    · exact P.pure _
    · split
      · refine P.bind (P.modifyLedger _) fun _ => P.bind (P.replaceScope _) fun previous => ?_
        refine P.attempt (P.buildObject hc _ _) (fun r => ?_) fun f _ s => ⟨rfl, rfl⟩
        refine P.bind (P.replaceScope _) fun _ => ?_
        split
        · exact P.bind (P.modifyLedger _) fun _ => P.pure _
        · exact P.bind (P.modifyLedger _) fun _ => P.throw _
      · exact P.bind (P.modifyLedger _) fun _ => P.pure _

theorem select (tree : NodeTree) (node : Node) (names : List String) :
    P.Pairs (pass.select compile tree node names)
      (other.select further tree node names) := by
  unfold Pass.select
  refine P.bind (P.collect fun name _ => ?_) fun _ => P.pure _
  unfold Pass.selectMember
  refine P.get (fun s => ?_) fun s t h => by simp only [h.ledger]
  split
  · exact P.throw _
  · exact P.writeObject hc _

/-! ### The walk -/

/-- One step of the walk compares if the compilers it is given do. -/
theorem compileNode :
    P.PairsAll (pass.compileNode compile) (other.compileNode further) := by
  intro tree node useLiterals
  unfold Pass.compileNode Pass.selectObject Pass.selectGroup
  rw [P.scene]
  split
  · exact P.once _ _ (P.writePluginNode hc _ _ _ _)
  · exact P.pure _
  · exact P.once _ _ (P.writeLayeredTexture hc _ _)
  · exact P.once _ _ (P.writeLayeredBrdf hc _ _ _)
  · exact P.bind (P.select hc _ _ _) fun _ => P.pure _
  · exact P.bind (P.select hc _ _ _) fun _ => P.pure _
  · exact P.writeGeometry
  · exact P.bind (P.writeObjectMaterial hc) fun _ => P.pure _
  · exact P.resolveInput hc _ _ _ _
  · exact P.resolveInput hc _ _ _ _

end Compilers

/-! ### Passes -/

theorem opening (hc : P.PairsAll pass.compiler other.compiler) :
    P.Pairs pass.opening other.opening := by
  unfold Pass.opening Pass.writeDefaults Pass.writeOverride
  rw [P.scene, P.override]
  refine P.bind (P.get (fun s => ?_) fun s t h => by simp only [h.ledger]) fun _ => ?_
  · split
    · exact P.pure _
    · exact P.bind (P.emit (.fixed _)) fun _ => P.bind (P.emit (.fixed _)) fun _ => P.pure _
  · split
    · exact P.pure _
    · split
      · exact P.report _
      · exact P.bind (P.writeMaterialTree hc _) fun _ => P.bind (P.report _) fun _ => P.choose _

/-- All that a pass does behind its head compares if the compilers of nodes do. -/
theorem body (hc : P.PairsAll pass.compiler other.compiler) :
    P.Pairs (pass.body pass.items.length) (other.body other.items.length) := by
  rw [Pass.body_all, Pass.body_all, P.scene]
  refine P.bind (P.opening hc) fun _ => P.bind (P.forM fun material _ => ?_) fun _ =>
    P.forM fun object _ => P.bind (P.writeObject hc object) fun _ => P.pure _
  unfold Pass.writeMaterial
  rw [P.scene]
  split
  · exact P.pure _
  · exact P.bind (P.writeMaterialTree hc _) fun _ => P.pure _

end Pairing

end ShadeNet
