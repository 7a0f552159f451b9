/-
# What lasts in a scope

A pass goes on from state to state, and what it has entered it does not take back: a node
or an object that is compiled keeps its value, a mesh that was handed out stays so, the
answer for the materials of an object is not changed once it is there, and no object is
entered that is not of the scene. This holds over every call, and also where a node is
marked or forgotten in between (`PassState.Lasts`).

Key definitions: `PassState.Remembers`, `lastingComparison`, `PassState.Lasts`.
Key theorems: `PassState.Lasts.of_rel`, `PassState.Lasts.mark`, `PassState.Lasts.abandon`.
-/
import ShadeNet.Proofs.Frame
import ShadeNet.Proofs.Spelled

namespace ShadeNet

variable {pass : Pass} {scene : Scene} {s t u : PassState} {key name : String}

/-! ### Answers and strangers -/

/-- The answers for the materials of objects that were there are there, and objects that are not
of the scene are as they were. -/
structure PassState.Remembers (scene : Scene) (s t : PassState) : Prop where
  synthesized : ∀ key token, s.ledger.synthesized? key = some token →
    t.ledger.synthesized? key = some token
  strangers : ∀ name, scene.object? name = none → t.ledger.object? name = s.ledger.object? name

namespace PassState.Remembers

theorem refl (scene : Scene) (s : PassState) : s.Remembers scene s :=
  ⟨fun _ _ h => h, fun _ _ => rfl⟩

theorem trans (h : s.Remembers scene t) (k : t.Remembers scene u) : s.Remembers scene u :=
  ⟨fun key token hs => k.synthesized key token (h.synthesized key token hs),
    fun name hn => (k.strangers name hn).trans (h.strangers name hn)⟩

theorem of_alike (h : s.Alike t) : s.Remembers scene t :=
  ⟨fun key _ hs => (h.synthesized? key).trans hs, fun name _ => h.object? name⟩

/-- An answer is entered where there was none. -/
theorem synthesize (hnone : s.ledger.synthesized? key = none) (h : s.Remembers scene t)
    (token : String) : s.Remembers scene (t.synthesize key token) where
  strangers := h.strangers
  synthesized k other hs := by
    refine (Ledger.synthesized?_setSynthesized _ _ _ _).trans ?_
    rw [if_neg]
    · exact h.synthesized k other hs
    · rintro rfl
      rw [hnone] at hs
      cases hs

/-- Objects of the scene are entered only. -/
theorem of_objects {object : SceneObject} (ho : scene.object? name = some object)
    (h : s.Remembers scene t) (hsynthesized : u.ledger.synthesized = t.ledger.synthesized)
    (hobjects : ∀ other, name ≠ other → u.ledger.object? other = t.ledger.object? other) :
    s.Remembers scene u where
  synthesized key token hs := by
    unfold Ledger.synthesized?
    rw [hsynthesized]
    exact h.synthesized key token hs
  strangers other hn := by
    rw [hobjects other fun heq => by rw [heq, hn] at ho; cases ho]
    exact h.strangers other hn

end PassState.Remembers

theorem remembers_enter {object : SceneObject} (ho : scene.object? name = some object)
    (s : PassState) : s.Remembers scene (s.enter name object) :=
  (PassState.Remembers.refl scene s).of_objects ho rfl fun _ hne =>
    (Ledger.object?_setObject _ _ _ _).trans (if_neg hne)

/-- What lasts over every call. -/
def lastingComparison (pass : Pass) : Comparison pass where
  Rel s t := s.Frame t ∧ s.Remembers pass.scene t
  refl s := ⟨.refl s, .refl _ s⟩
  trans h k := ⟨h.1.trans k.1, h.2.trans k.2⟩
  note h := ⟨(frameComparison pass).note h, .of_alike (alike_note _ _)⟩
  emission hb hl hn :=
    ⟨(frameComparison pass).emission hb hl hn, .of_alike (alike_claimAndEmit pass _ _ _ _)⟩
  geometry s := ⟨frame_writeGeometry pass s, .of_alike (alike_writeGeometry pass s)⟩
  hide h ho := ⟨(frameComparison pass).hide h ho, (PassState.Remembers.refl _ _).of_objects ho rfl
    fun _ hne => (Ledger.object?_setObject _ _ _ _).trans (if_neg hne)⟩
  synthesize token h hr := ⟨(frameComparison pass).synthesize token h hr.1, hr.2.synthesize h token⟩
  finish v h hr := ⟨(frameComparison pass).finish v h hr.1, hr.2.synthesized, hr.2.strangers⟩
  abandon h hr := ⟨(frameComparison pass).abandon h hr.1, hr.2.synthesized, hr.2.strangers⟩
  leave token h ho hr := ⟨(frameComparison pass).leave token h ho hr.1,
    ((remembers_enter ho _).trans hr.2).of_objects ho rfl fun _ hne =>
      (Ledger.object?_setObject _ _ _ _).trans (if_neg hne)⟩
  quit h ho hr := ⟨(frameComparison pass).quit h ho hr.1,
    ((remembers_enter ho _).trans hr.2).of_objects ho rfl fun _ hne =>
      (Ledger.object?_abandonObject _ _ _).trans (if_neg hne)⟩

/-! ### What lasts -/

/-- What a state has that comes later in the same scope, whatever is being compiled in the one
or the other. -/
structure PassState.Lasts (scene : Scene) (s t : PassState) : Prop where
  scope : t.scope = s.scope
  nodes : ∀ key name value, s.ledger.node? key name = some (.done value) →
    t.ledger.node? key name = some (.done value)
  objects : ∀ name token, s.ledger.object? name = some (.done token) →
    t.ledger.object? name = some (.done token)
  meshes : s.ledger.meshes ⊆ t.ledger.meshes
  remembers : s.Remembers scene t

namespace PassState.Lasts

theorem refl (scene : Scene) (s : PassState) : s.Lasts scene s :=
  ⟨rfl, fun _ _ _ h => h, fun _ _ h => h, List.Subset.refl _, .refl scene s⟩

theorem trans (h : s.Lasts scene t) (k : t.Lasts scene u) : s.Lasts scene u :=
  ⟨k.scope.trans h.scope, fun key name v hs => k.nodes key name v (h.nodes key name v hs),
    fun name token hs => k.objects name token (h.objects name token hs),
    List.Subset.trans h.meshes k.meshes, h.remembers.trans k.remembers⟩

theorem of_alike (h : s.Alike t) : s.Lasts scene t where
  scope := h.scope
  nodes key name _ hn := (h.node? key name).trans hn
  objects name _ ho := (h.object? name).trans ho
  meshes := h.meshes
  remembers := .of_alike h

/-- What lasts over a call. -/
theorem of_rel (h : (lastingComparison pass).Rel s t) : s.Lasts pass.scene t :=
  ⟨h.1.scope, fun key name v => h.1.ledger.nodes.done (key, name) v, h.1.ledger.objects.done,
    h.1.ledger.meshes, h.2⟩

theorem treeKey (h : s.Lasts scene t) (tree : String) : t.treeKey tree = s.treeKey tree := by
  unfold PassState.treeKey
  rw [h.scope]

/-- What is marked had no value. -/
theorem mark (h : ∀ value, s.ledger.node? key name ≠ some (.done value)) :
    s.Lasts scene (s.mark key name) :=
  { refl scene s with
    nodes := fun k n v hs => by
      refine (Ledger.node?_setNode _ _ _ _ _ _).trans ?_
      rw [if_neg]
      · exact hs
      · rintro ⟨⟩
        exact h v hs
    remembers := ⟨fun _ _ h => h, fun _ _ => rfl⟩ }

/-- What is forgotten had no value. -/
theorem abandon (h : s.ledger.node? key name = some .resolving) :
    s.Lasts scene (s.abandon key name) :=
  { refl scene s with
    nodes := fun k n v hs => by
      refine (Ledger.node?_abandonNode _ _ _ _ _).trans ?_
      rw [if_neg]
      · exact hs
      · rintro ⟨⟩
        rw [h] at hs
        cases hs
    remembers := ⟨fun _ _ h => h, fun _ _ => rfl⟩ }

end PassState.Lasts

end ShadeNet
