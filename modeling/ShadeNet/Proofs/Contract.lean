/-
# Contracts of a walk

A contract says what holds of the states of a pass (`Inv`), how a later state
compares with an earlier one (`Rel`), what the values that flow between nodes are
worth in a state (`Made`, `Val`), which records may be written (`Fit`) and which
failures may occur (`Fault`). It lists what the primitive steps and the brackets of
the walk have to keep. The walk then keeps it as a whole (`ShadeNet.Proofs.Walk`).

A step that fails with a cycle leaves the invariant, since cycles are absorbed
and the pass goes on. Any other failure ends the pass, and only the comparison
with the state before is left.

Key definitions: `Ends`, `Contract`, `Contract.Keeps`.
Key theorems: `Contract.Keeps.bind`, `Contract.Keeps.carry`, `Contract.keeps_collect`.
-/
import ShadeNet.Proofs.Step

namespace ShadeNet

/-- Whether a failure says that something needs itself. -/
def Failure.isCycle : Failure → Bool
  | cycle _ _ => true
  | _ => false

/-- Whether a report says that a name was written twice. -/
def LogLine.isRewrite : LogLine → Bool
  | writtenTwice _ => true
  | _ => false

/-- Whether the value of a node of this kind is the value of another one. -/
def NodeKind.passesOn : NodeKind → Bool
  | objectMaterial | materialOutput _ | objectOutput => true
  | _ => false

/-- A name that a node or an object asks for. -/
def OwnBase (base : String) : Prop :=
  ∃ tag rest, (tag = "NT" ∨ tag = "OB") ∧ base = sanitize (tag ++ rest)

theorem sanitize_append (a b : String) : sanitize (a ++ b) = sanitize a ++ sanitize b := by
  simp [sanitize, ← String.toList_inj]

theorem ownBase_nodeName (tree node : String) : OwnBase (nodeName tree node) :=
  ⟨"NT", tree ++ "N" ++ node, Or.inl rfl, by simp [nodeName, String.append_assoc]⟩

theorem ownBase_objectName (object : String) : OwnBase (objectName object) :=
  ⟨"OB", object, Or.inr rfl, rfl⟩

theorem ownBase_multiMaterialName (object : String) : OwnBase (multiMaterialName object) :=
  ⟨"OB", "MA" ++ object, Or.inr rfl, by
    rw [multiMaterialName, show "OBMA" = "OB" ++ "MA" from rfl, String.append_assoc]⟩

/-- A name made from such a name and something behind it is one. -/
theorem OwnBase.sanitize_append {base : String} (h : OwnBase base) (rest : String) :
    OwnBase (sanitize (base ++ rest)) := by
  obtain ⟨tag, own, ht, rfl⟩ := h
  refine ⟨tag, own ++ rest, ht, ?_⟩
  rw [ShadeNet.sanitize_append, sanitize_sanitize, ← String.append_assoc,
    ShadeNet.sanitize_append (tag ++ own)]

/-- A value has a token if it is a reference. -/
theorem bind_token?_eq_some {value : Option Resolved} {token : String} :
    value.bind (·.token?) = some token ↔ value = some (.reference token) := by
  rcases value with _ | _ | _ | _ <;> simp [Resolved.token?]

theorem bind_token?_eq_none {value : Option Resolved} :
    value.bind (·.token?) = none ↔ ∀ token, value ≠ some (.reference token) := by
  rcases value with _ | _ | _ | _ <;> simp [Resolved.token?]

/-- How a step that began in `s` ends: well, or with a cycle, or so that the pass
is over. -/
def Ends {α : Type} (Inv : PassState → Prop) (Rel : PassState → PassState → Prop)
    (Fault : Failure → Prop) (Q : α → PassState → Prop) (s : PassState) :
    Except Failure α × PassState → Prop
  | (.ok a, t) => Inv t ∧ Rel s t ∧ Q a t
  | (.error f, t) => Rel s t ∧ Fault f ∧ (f.isCycle = true → Inv t)

/-- What a walk keeps if its steps do. -/
structure Contract (pass : Pass) where
  /-- What holds whenever a step begins. -/
  Inv : PassState → Prop
  /-- How a state compares with one before it. -/
  Rel : PassState → PassState → Prop
  /-- The nodes that the contract speaks of. -/
  Known : NodeTree → Node → Prop
  /-- What the value of a node is worth whose value is its own. -/
  Made : PassState → Resolved → Prop
  /-- What any value is worth. -/
  Val : PassState → Resolved → Prop
  /-- The records that may be written. -/
  Fit : PassState → Record → Prop
  /-- The failures that may occur. -/
  Fault : Failure → Prop
  refl : ∀ s, Rel s s
  trans : ∀ {s t u}, Rel s t → Rel t u → Rel s u
  val_of_made : ∀ {s v}, Made s v → Val s v
  val_mono : ∀ {s t v}, Rel s t → Val s v → Val t v
  fault_cycle : ∀ tree node, Fault (.cycle tree node)
  -- which nodes are met
  known_source : ∀ {tree node source name}, Known tree node → tree.node? name = some source →
    Known tree source
  known_material : ∀ {s material tree output node}, Inv s →
    pass.scene.materialTree? material = some tree → tree.materialOutput? = some output →
    (output.kind = .materialOutput true ∨ s.overrideToken = none) → node ∈ tree.nodes.values →
    Known tree node
  known_object : ∀ {name object key tree node}, pass.scene.object? name = some object →
    object.tree = some key → pass.scene.tree? key = some tree → node ∈ tree.nodes.values →
    Known tree node
  -- where values come from
  literal : ∀ {tree node socket v s}, Known tree node → socket ∈ node.inputs →
    socket.literal = some v → Made s (.literal v)
  transform : ∀ {name object s}, pass.scene.object? name = some object →
    Val s (.literal (.transform object.transform))
  objects : ∀ {s tokens}, (∀ token ∈ tokens, Val s (.reference token)) → Made s (.objects tokens)
  default : ∀ {s}, Inv s → Val s (.reference defaultMaterial)
  node : ∀ {s key name v}, Inv s → s.ledger.node? key name = some (.done v) → Made s v
  object : ∀ {s name token}, Inv s → s.ledger.object? name = some (.done (some token)) →
    Val s (.reference token)
  override : ∀ {s token}, Inv s → s.overrideToken = some token → Val s (.reference token)
  synthesized : ∀ {s key token}, Inv s → s.ledger.synthesized? key = some token →
    Val s (.reference token)
  select_own : ∀ {s tree source v}, Known tree source → source.kind.passesOn = false →
    Made s v → ∀ name,
    Val s (selectOutput source ((source.output? name).bind (·.attr)) v)
  select_passed : ∀ {s tree source v}, Known tree source → source.kind.passesOn = true →
    Val s v → ∀ name,
    Val s (selectOutput source ((source.output? name).bind (·.attr)) v)
  -- which records are fit
  fit_plugin : ∀ {s plugin desc params supplied} (name : String), Inv s →
    pass.catalog.get? plugin = some desc →
    (∀ attr v, params.get? attr = some v →
      ∃ tree node, Known tree node ∧ node.params.get? attr = some v) →
    (∀ attr v, supplied.get? attr = some v → Val s v) →
    Fit s (pass.pluginRecord desc name params supplied)
  fit_texture : ∀ {s tree node} {layers : List (String × String)} (name : String),
    Known tree node →
    (∀ layer ∈ layers, Val s (.reference layer.1) ∧
      ∃ socket ∈ node.inputs, layer.2 = numberText (layerWeight (some socket))) →
    Fit s (pass.layeredTextureRecord name layers)
  fit_weight : ∀ {s tree node} (name socket : String), Known tree node →
    Fit s (pass.weightRecord name (layerWeight (node.input? socket)))
  fit_brdf : ∀ {s} {layers : List (String × String)} (name : String) (additive : Bool),
    (∀ layer ∈ layers, Val s (.reference layer.1) ∧ Val s (.reference layer.2)) →
    Fit s (pass.layeredBrdfRecord name layers additive)
  fit_multi : ∀ {s materials} (name : String), (∀ token ∈ materials, Val s (.reference token)) →
    Fit s (Pass.multiMaterialRecord name materials)
  -- the steps
  reported : ∀ {s line}, Inv s → line.isRewrite = false →
    Inv (s.note line) ∧ Rel s (s.note line)
  emission : ∀ {s base reports} {record : String → Record}, Inv s → OwnBase base →
    (∀ line ∈ reports, line.isRewrite = false) → (∀ name, (record name).name = name) →
    (∀ name, Fit s (record name)) →
    Ends Inv Rel Fault (fun token t => Made t (.reference token)) s
      ((pass.claimAndEmit base reports record).runOn s)
  geometry : ∀ {s}, Inv s → Ends Inv Rel Fault (fun value t => ∀ v ∈ value, Made t v) s
    (pass.writeGeometry.runOn s)
  hide : ∀ {s name object}, Inv s → s.ledger.object? name = none →
    pass.scene.object? name = some object → object.visible = false →
    Inv (s.hide name) ∧ Rel s (s.hide name)
  -- the bracket around the material of an object
  synthesize : ∀ {s t scope object token}, Inv s → s.scope = some scope →
    pass.scene.object? scope.name = some object →
    s.ledger.synthesized? (multiMaterialName scope.name) = none → Rel s t → Inv t →
    Val t (.reference token) →
    Inv (t.synthesize (multiMaterialName scope.name) token) ∧
      Rel s (t.synthesize (multiMaterialName scope.name) token) ∧
      Val (t.synthesize (multiMaterialName scope.name) token) (.reference token)
  -- the bracket around a node
  mark : ∀ {s} (key name : String), Inv s → Inv (s.mark key name)
  finish : ∀ {s t tree node v}, Inv s → Known tree node →
    s.ledger.node? (s.treeKey tree.name) node.name = none →
    Rel (s.mark (s.treeKey tree.name) node.name) t → Inv t → Made t v →
    Inv (t.finish (s.treeKey tree.name) node.name v) ∧
      Rel s (t.finish (s.treeKey tree.name) node.name v) ∧
      Made (t.finish (s.treeKey tree.name) node.name v) v
  abandon : ∀ {s t key name}, Inv s → s.ledger.node? key name = none →
    Rel (s.mark key name) t →
    Rel s (t.abandon key name) ∧ (Inv t → Inv (t.abandon key name))
  -- the bracket around an object
  enter : ∀ {s name object}, Inv s → pass.scene.object? name = some object →
    Inv (s.enter name object)
  leave : ∀ {s t name object compile token}, Inv s → s.ledger.object? name = none →
    pass.scene.object? name = some object →
    (pass.buildObject compile name object).runOn (s.enter name object) = (.ok token, t) →
    Rel (s.enter name object) t → Inv t → (∀ token' ∈ token, Val t (.reference token')) →
    Inv (t.leave s.scope name token) ∧ Rel s (t.leave s.scope name token) ∧
      ∀ token' ∈ token, Val (t.leave s.scope name token) (.reference token')
  quit : ∀ {s t name object compile failure}, Inv s → s.ledger.object? name = none →
    pass.scene.object? name = some object →
    (pass.buildObject compile name object).runOn (s.enter name object) = (.error failure, t) →
    Rel (s.enter name object) t →
    Rel s (t.quit s.scope name) ∧
      (failure.isCycle = true → Inv t → Inv (t.quit s.scope name))

namespace Contract

variable {α β : Type} {pass : Pass} (K : Contract pass)

/-- What the value of a node of some kind is worth. -/
def Gives (kind : NodeKind) (s : PassState) (v : Resolved) : Prop :=
  if kind.passesOn = true then K.Val s v else K.Made s v

/-- From a state with `P`, a step keeps the contract and its result has `Q`. -/
def Keeps (P : PassState → Prop) (c : Compile α) (Q : α → PassState → Prop) : Prop :=
  ∀ s, K.Inv s → P s → Ends K.Inv K.Rel K.Fault Q s (c.runOn s)

/-- What holds of a state holds of later ones. -/
def Stable (P : PassState → Prop) : Prop := ∀ s t, K.Rel s t → P s → P t

variable {K} {P P' : PassState → Prop} {c : Compile α} {Q Q' : α → PassState → Prop}
  {R : β → PassState → Prop}

theorem Gives.val {kind : NodeKind} {s : PassState} {v : Resolved} (h : K.Gives kind s v) :
    K.Val s v := by
  unfold Gives at h
  split at h
  · exact h
  · exact K.val_of_made h

theorem Gives.select {tree : NodeTree} {source : Node} {s : PassState} {v : Resolved}
    (hk : K.Known tree source) (h : K.Gives source.kind s v) (name : String) :
    K.Val s (selectOutput source ((source.output? name).bind (·.attr)) v) := by
  unfold Gives at h
  split at h
  · rename_i hp
    exact K.select_passed hk hp h name
  · rename_i hp
    exact K.select_own hk (by simpa using hp) h name

theorem Keeps.imp (h : K.Keeps P c Q) (hP : ∀ s, P' s → P s) (hQ : ∀ a s, Q a s → Q' a s) :
    K.Keeps P' c Q' := by
  intro s hi hs
  have h := h s hi (hP s hs)
  generalize c.runOn s = o at h ⊢
  rcases o with ⟨f | a, t⟩
  · exact h
  · exact ⟨h.1, h.2.1, hQ a t h.2.2⟩

theorem keeps_pure {a : α} (h : ∀ s, P s → Q a s) : K.Keeps P (pure a) Q :=
  fun s hi hs => ⟨hi, K.refl s, h s hs⟩

theorem keeps_throw {f : Failure} (hf : K.Fault f) : K.Keeps P (throw f) Q :=
  fun s hi _ => ⟨K.refl s, hf, fun _ => hi⟩

/-- A run that goes on from a later state ends as the whole run does. -/
theorem ends_of_rel {s t : PassState} {o : Except Failure α × PassState} (hr : K.Rel s t)
    (h : Ends K.Inv K.Rel K.Fault Q t o) : Ends K.Inv K.Rel K.Fault Q s o := by
  rcases o with ⟨f | a, u⟩
  · exact ⟨K.trans hr h.1, h.2⟩
  · exact ⟨h.1, K.trans hr h.2.1, h.2.2⟩

theorem Keeps.bind {f : α → Compile β} (hc : K.Keeps P c Q) (hf : ∀ a, K.Keeps (Q a) (f a) R) :
    K.Keeps P (c >>= f) R := by
  intro s hi hs
  have h := hc s hi hs
  rw [Compile.runOn_bind]
  generalize c.runOn s = o at h ⊢
  rcases o with ⟨e | a, t⟩
  · exact h
  · exact ends_of_rel h.2.1 (hf a t h.1 h.2.2)

/-- What is known and lasts is known afterwards. -/
theorem Keeps.carry (h : K.Keeps P c Q) (hS : K.Stable P') :
    K.Keeps (fun s => P s ∧ P' s) c fun a t => Q a t ∧ P' t := by
  intro s hi hs
  have h := h s hi hs.1
  generalize c.runOn s = o at h ⊢
  rcases o with ⟨f | a, t⟩
  · exact h
  · exact ⟨h.1, h.2.1, h.2.2, hS s t h.2.1 hs.2⟩

/-- A step that reads the state goes on with what it has read. -/
theorem keeps_get {f : PassState → Compile β}
    (h : ∀ s, K.Inv s → P s → K.Keeps (· = s) (f s) R) : K.Keeps P (get >>= f) R := by
  intro s hi hs
  rw [Compile.runOn_bind_ok (Compile.runOn_get s)]
  exact h s hi hs s hi rfl

theorem keeps_report {line : LogLine} (h : line.isRewrite = false) :
    K.Keeps P (report line) fun _ _ => True := by
  intro s hi _
  have := K.reported hi h
  exact ⟨this.1, this.2, trivial⟩

/-- A step that reports something and gives a value that is worth it in any state. -/
theorem keeps_report_pure {line : LogLine} {a : α} (h : line.isRewrite = false)
    (ha : ∀ s, K.Inv s → Q a s) : K.Keeps P (report line >>= fun _ => pure a) Q :=
  (keeps_report h).bind fun _ s hi _ => ⟨hi, K.refl s, ha s hi⟩

/-- A step whose cycles are caught. -/
theorem keeps_attempt {g : Except Failure α → Compile β} (hc : K.Keeps P c Q)
    (hok : ∀ a, K.Keeps (Q a) (g (.ok a)) R)
    (hcycle : ∀ tree node, K.Keeps (fun _ => True) (g (.error (.cycle tree node))) R)
    (hrest : ∀ f, f.isCycle = false → g (.error f) = throw f) :
    K.Keeps P (attempt c >>= g) R := by
  intro s hi hs
  have h := hc s hi hs
  rw [Compile.runOn_bind_ok (Compile.runOn_attempt c s)]
  generalize c.runOn s = o at h ⊢
  rcases o with ⟨f | a, t⟩
  · cases f with
    | cycle tree node => exact ends_of_rel h.1 (hcycle tree node t (h.2.2 rfl) trivial)
    | io message =>
      rw [hrest _ rfl]
      exact h
    | depthExceeded =>
      rw [hrest _ rfl]
      exact h
  · exact ends_of_rel h.2.1 (hok a t h.1 h.2.2)

/-- Results that are gathered one after another are all worth what each of them is. -/
theorem keeps_collect {f : α → Compile (Option β)} (hP : K.Stable P) (hR : ∀ b, K.Stable (R b)) :
    ∀ {l : List α}, (∀ a ∈ l, K.Keeps P (f a) fun r t => ∀ b ∈ r, R b t) →
      K.Keeps P (collect f l) fun bs t => ∀ b ∈ bs, R b t
  | [], _ => keeps_pure fun _ _ => by simp
  | a :: rest, h => by
    unfold collect
    refine (((h a List.mem_cons_self).carry hP).imp (fun s hs => ⟨hs, hs⟩) fun _ _ hq => hq).bind
      fun first => ?_
    have hfirst : K.Stable fun s => ∀ b ∈ first, R b s :=
      fun s t hr hb b hm => hR b s t hr (hb b hm)
    have hothers := keeps_collect hP hR fun b hb => h b (List.mem_cons_of_mem a hb)
    refine ((hothers.carry hfirst).imp (fun s hs => ⟨hs.2, hs.1⟩) fun _ _ hq => hq).bind
      fun others => keeps_pure fun s hs b hb => ?_
    rcases List.mem_append.mp hb with hb | hb
    · exact hs.2 b (by simpa using hb)
    · exact hs.1 b hb

theorem keeps_forM {f : α → Compile Unit} {l : List α}
    (h : ∀ a ∈ l, K.Keeps (fun _ => True) (f a) fun _ _ => True) :
    K.Keeps (fun _ => True) (l.forM f) fun _ _ => True := by
  induction l with
  | nil => exact keeps_pure fun _ _ => trivial
  | cons a rest ih =>
    exact (h a List.mem_cons_self).bind fun _ => ih fun b hb => h b (List.mem_cons_of_mem a hb)

theorem stable_true : K.Stable fun _ => True := fun _ _ _ h => h

end Contract

end ShadeNet
