/-
# Comparisons of states that the walk keeps

A contract that asks nothing of values and records is only about how the state
after a step compares with the state before. It holds of every run, however the
run ends.

Key definitions: `Comparison`, `Guard`, `Guard.contract`, `Comparison.contract`.
Key theorems: `Contract.keeps_items`, `Comparison.rel_of_keeps`, `Comparison.rel_items`.
-/
import ShadeNet.Proofs.Course
import ShadeNet.Proofs.Walk

namespace ShadeNet

/-- How states compare with earlier ones, with what each step has to keep of it. -/
structure Comparison (pass : Pass) where
  /-- How a state compares with one before it. -/
  Rel : PassState → PassState → Prop
  refl : ∀ s, Rel s s
  trans : ∀ {s t u}, Rel s t → Rel t u → Rel s u
  note : ∀ {s line}, line.isRewrite = false → Rel s (s.note line)
  emission : ∀ {s base reports} {record : String → Record}, OwnBase base →
    (∀ line ∈ reports, line.isRewrite = false) → (∀ name, (record name).name = name) →
    Rel s ((pass.claimAndEmit base reports record).runOn s).2
  geometry : ∀ s, Rel s (pass.writeGeometry.runOn s).2
  hide : ∀ {s name object}, s.ledger.object? name = none →
    pass.scene.object? name = some object → Rel s (s.hide name)
  synthesize : ∀ {s t key} (token : String), s.ledger.synthesized? key = none → Rel s t →
    Rel s (t.synthesize key token)
  finish : ∀ {s t key name} (v : Resolved), s.ledger.node? key name = none →
    Rel (s.mark key name) t → Rel s (t.finish key name v)
  abandon : ∀ {s t key name}, s.ledger.node? key name = none →
    Rel (s.mark key name) t → Rel s (t.abandon key name)
  leave : ∀ {s t name object} (token : Option String), s.ledger.object? name = none →
    pass.scene.object? name = some object →
    Rel (s.enter name object) t → Rel s (t.leave s.scope name token)
  quit : ∀ {s t name object}, s.ledger.object? name = none →
    pass.scene.object? name = some object →
    Rel (s.enter name object) t → Rel s (t.quit s.scope name)

/-- What else holds of the states that are compared: something that lasts as long as
the comparison does, and the failures that occur while it holds. -/
structure Guard {pass : Pass} (C : Comparison pass) where
  /-- What holds whenever a step begins. -/
  Inv : PassState → Prop
  /-- The nodes that are compiled. -/
  Known : NodeTree → Node → Prop
  /-- The failures that may occur. -/
  Fault : Failure → Prop
  lasts : ∀ {s t}, C.Rel s t → Inv s → Inv t
  mark : ∀ {s} (key name : String), Inv s → Inv (s.mark key name)
  enter : ∀ {s name object}, Inv s → pass.scene.object? name = some object →
    Inv (s.enter name object)
  known_source : ∀ {tree node source name}, Known tree node → tree.node? name = some source →
    Known tree source
  known_tree : ∀ {key tree node}, pass.scene.tree? key = some tree → node ∈ tree.nodes.values →
    Known tree node
  fault_cycle : ∀ tree node, Fault (.cycle tree node)
  fault_emission : ∀ {s t f base reports} {record : String → Record}, Inv s →
    (pass.claimAndEmit base reports record).runOn s = (.error f, t) → Fault f
  fault_geometry : ∀ {s t f}, Inv s → pass.writeGeometry.runOn s = (.error f, t) → Fault f

variable {α : Type} {pass : Pass} {C : Comparison pass}

namespace Guard

/-- The run of a step that keeps the comparison and has only the failures it may have. -/
theorem ends (G : Guard C) {s : PassState} {o : Except Failure α × PassState}
    {Q : α → PassState → Prop} (hi : G.Inv s) (hr : C.Rel s o.2)
    (hf : ∀ f t, o = (.error f, t) → G.Fault f) (hq : ∀ a t, o = (.ok a, t) → Q a t) :
    Ends G.Inv C.Rel G.Fault Q s o := by
  rcases o with ⟨f | a, t⟩
  · exact ⟨hr, hf f t rfl, fun _ => G.lasts hr hi⟩
  · exact ⟨G.lasts hr hi, hr, hq a t rfl⟩

/-- The contract that asks nothing of values and records. -/
def contract (G : Guard C) : Contract pass where
  Inv := G.Inv
  Rel := C.Rel
  Known := G.Known
  Made _ _ := True
  Val _ _ := True
  Fit _ _ := True
  Fault := G.Fault
  refl := C.refl
  trans := C.trans
  val_of_made _ := trivial
  val_mono _ _ := trivial
  fault_cycle := G.fault_cycle
  known_source := G.known_source
  known_material _ hm _ _ hn := by
    obtain ⟨key, -, hk⟩ := Option.bind_eq_some_iff.mp hm
    exact G.known_tree hk hn
  known_object _ _ hk hn := G.known_tree hk hn
  literal _ _ _ := trivial
  transform _ := trivial
  objects _ := trivial
  default _ := trivial
  node _ _ := trivial
  object _ _ := trivial
  override _ _ := trivial
  synthesized _ _ := trivial
  select_own _ _ _ _ := trivial
  select_passed _ _ _ _ := trivial
  fit_plugin _ _ _ _ _ := trivial
  fit_texture _ _ _ := trivial
  fit_weight _ _ _ := trivial
  fit_brdf _ _ _ := trivial
  fit_multi _ _ := trivial
  reported hi h := ⟨G.lasts (C.note h) hi, C.note h⟩
  emission hi hb hl hn _ :=
    G.ends hi (C.emission hb hl hn) (fun _ _ => G.fault_emission hi) fun _ _ _ => trivial
  geometry hi :=
    G.ends hi (C.geometry _) (fun _ _ => G.fault_geometry hi) fun _ _ _ _ _ => trivial
  hide hi h ho _ := ⟨G.lasts (C.hide h ho) hi, C.hide h ho⟩
  synthesize hi _ _ h hr _ _ :=
    ⟨G.lasts (C.synthesize _ h hr) hi, C.synthesize _ h hr, trivial⟩
  mark := G.mark
  finish hi _ h hr _ _ := ⟨G.lasts (C.finish _ h hr) hi, C.finish _ h hr, trivial⟩
  abandon hi h hr := ⟨C.abandon h hr, fun _ => G.lasts (C.abandon h hr) hi⟩
  enter := G.enter
  leave hi h ho _ hr _ _ :=
    ⟨G.lasts (C.leave _ h ho hr) hi, C.leave _ h ho hr, fun _ _ => trivial⟩
  quit hi h ho _ hr := ⟨C.quit h ho hr, fun _ _ => G.lasts (C.quit h ho hr) hi⟩

/-- A guard that asks for nothing. -/
def empty (C : Comparison pass) : Guard C where
  Inv _ := True
  Known _ _ := True
  Fault _ := True
  lasts _ _ := trivial
  mark _ _ _ := trivial
  enter _ _ := trivial
  known_source _ _ := trivial
  known_tree _ _ := trivial
  fault_cycle _ _ := trivial
  fault_emission _ _ := trivial
  fault_geometry _ _ := trivial

end Guard

/-! ### What a pass is made of -/

namespace Contract

variable {K : Contract pass}

/-- A contract that the override may be chosen under is kept when it is chosen. -/
theorem keeps_writeOverride (hc : K.Compiles pass.compiler)
    (h : ∀ s token, K.Inv s → K.Val s (.reference token) →
      K.Inv { s with overrideToken := some token } ∧
        K.Rel s { s with overrideToken := some token }) :
    K.Keeps (fun _ => True) pass.writeOverride fun _ _ => True := by
  unfold Pass.writeOverride
  cases pass.settings.overrideMaterial with
  | none => exact keeps_pure fun _ _ => trivial
  | some material =>
    simp only
    cases hm : pass.scene.materialTree? material with
    | none => exact keeps_report rfl
    | some tree =>
      refine (keeps_writeMaterialTree hc (meets_materialTree hm)).bind fun token => ?_
      refine (((keeps_report (P := fun _ => True) rfl).carry (stable_token token)).imp
        (fun s hs => ⟨trivial, hs⟩) fun _ _ h => h).bind fun _ s hi hs => ?_
      have ho := h s token hi hs.2
      exact ⟨ho.1, ho.2, trivial⟩

/-- A contract is kept by every material and every object of a pass. -/
theorem keeps_item (hc : K.Compiles pass.compiler) {item : Compile Unit} (h : item ∈ pass.items) :
    K.Keeps (fun _ => True) item fun _ _ => True := by
  rcases List.mem_append.mp h with h | h
  · obtain ⟨material, -, rfl⟩ := List.mem_map.mp h
    unfold Pass.writeMaterial
    cases hm : pass.scene.materialTree? material with
    | none => exact keeps_pure fun _ _ => trivial
    | some tree =>
      exact (keeps_writeMaterialTree hc (meets_materialTree hm)).bind fun _ =>
        keeps_pure fun _ _ => trivial
  · obtain ⟨object, -, rfl⟩ := List.mem_map.mp h
    exact (keeps_writeObject hc object).bind fun _ => keeps_pure fun _ _ => trivial

theorem keeps_items (hc : K.Compiles pass.compiler) (index : Nat) :
    K.Keeps (fun _ => True) ((pass.items.take index).forM id) fun _ _ => True :=
  keeps_forM fun _ hi => keeps_item hc (List.mem_of_mem_take hi)

end Contract

namespace Comparison

/-- The contract that a comparison is. -/
def contract (C : Comparison pass) : Contract pass := (Guard.empty C).contract

variable {c : Compile α} {Q : α → PassState → Prop}

/-- A step that keeps a comparison leaves a state that compares with the one before. -/
theorem rel_of_keeps (h : C.contract.Keeps (fun _ => True) c Q) (s : PassState) :
    C.Rel s (c.runOn s).2 := by
  have h := h s trivial trivial
  generalize c.runOn s = o at h ⊢
  rcases o with ⟨_ | _, t⟩
  · exact h.1
  · exact h.2.1

theorem compiles_walk (C : Comparison pass) (depth : Nat) : C.contract.Compiles (pass.walk depth) :=
  C.contract.walk trivial depth

theorem rel_trans (C : Comparison pass) (s t u : PassState) (h : C.Rel s t) (k : C.Rel t u) :
    C.Rel s u := C.trans h k

theorem rel_writeMaterialTree (C : Comparison pass) (depth : Nat) (tree : NodeTree) (s : PassState) :
    C.Rel s ((writeMaterialTree (pass.walk depth) tree).runOn s).2 :=
  rel_of_keeps (Contract.keeps_writeMaterialTree (C.compiles_walk depth)
    fun _ _ _ _ _ _ _ => trivial) s

theorem rel_writeObject (C : Comparison pass) (depth : Nat) (object : String) (s : PassState) :
    C.Rel s ((pass.writeObject (pass.walk depth) object).runOn s).2 :=
  rel_of_keeps (Contract.keeps_writeObject (C.compiles_walk depth) object) s

/-- A comparison that the override does not matter to is kept when it is chosen. -/
theorem rel_writeOverride (C : Comparison pass)
    (h : ∀ s token, C.Rel s { s with overrideToken := some token }) (s : PassState) :
    C.Rel s (pass.writeOverride.runOn s).2 :=
  rel_of_keeps (Contract.keeps_writeOverride (C.compiles_walk _) fun s token _ _ =>
    ⟨trivial, h s token⟩) s

theorem rel_items (C : Comparison pass) (index : Nat) (s : PassState) :
    C.Rel s (((pass.items.take index).forM id).runOn s).2 :=
  rel_of_keeps (Contract.keeps_items (C.compiles_walk _) index) s

end Comparison

end ShadeNet
