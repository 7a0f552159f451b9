/-
# What is given is given again

A value is entered where it is made: under the node, the object or the mesh it comes from,
or under the name of an object for its materials. So a node that gave a value gives the
same value at any later time in the same scope, and nothing is done for it but to report
what is out of place.

Key definitions: `Compile.Repeats`, `Pass.Recalls`.
Key theorems: `recalls_once`, `recalls_select`, `recalls_writeObjectMaterial`, `recalls_walk`.
-/
import ShadeNet.Proofs.Lasting
import ShadeNet.Proofs.OwnMaterial

namespace ShadeNet

open Compile

variable {α β : Type} {pass : Pass} {scene : Scene} {s t u f : PassState}

/-! ### Reports alone -/

/-- A state with more reports. -/
def PassState.notes (s : PassState) (lines : List LogLine) : PassState :=
  { s with log := s.log ++ lines }

theorem PassState.notes_nil (s : PassState) : s.notes [] = s := by
  unfold PassState.notes
  rw [List.append_nil]

theorem PassState.notes_notes (s : PassState) (lines more : List LogLine) :
    (s.notes lines).notes more = s.notes (lines ++ more) := by
  unfold PassState.notes
  rw [List.append_assoc]

/-- Reports are not looked at. -/
theorem PassState.Lasts.notes (h : s.Lasts scene t) (lines : List LogLine) :
    s.Lasts scene (t.notes lines) :=
  { h with remembers := ⟨h.remembers.synthesized, h.remembers.strangers⟩ }

namespace Compile

/-- A step has the given result, and does nothing but to report. -/
def Repeats (c : Compile α) (r : Except Failure α) (f : PassState) : Prop :=
  ∃ lines, c.runOn f = (r, f.notes lines)

variable {c : Compile α} {g : α → Compile β} {a : α} {r : Except Failure α}
  {o : Except Failure β}

theorem Repeats.of_unchanged (h : c.runOn f = (r, f)) : c.Repeats r f :=
  ⟨[], by rw [h, f.notes_nil]⟩

theorem repeats_report (line : LogLine) (f : PassState) :
    (report line).Repeats (.ok ()) f := ⟨[line], rfl⟩

theorem Repeats.bind (hc : c.Repeats (.ok a) f) (hg : ∀ lines, (g a).Repeats o (f.notes lines)) :
    (c >>= g).Repeats o f := by
  obtain ⟨lines, hc⟩ := hc
  obtain ⟨more, hg⟩ := hg lines
  exact ⟨lines ++ more, by rw [runOn_bind_ok hc, hg, f.notes_notes]⟩

theorem Repeats.bind_pure (hc : c.Repeats (.ok a) f) (g : α → β) :
    (c >>= fun a => pure (g a)).Repeats (.ok (g a)) f :=
  hc.bind fun _ => .of_unchanged rfl

theorem repeats_report_pure (line : LogLine) (a : α) (f : PassState) :
    (report line >>= fun _ => pure a).Repeats (.ok a) f :=
  (repeats_report line f).bind_pure fun _ => a

theorem Repeats.bind_error {e : Failure} (hc : c.Repeats (.error e) f) (g : α → Compile β) :
    (c >>= g).Repeats (.error e) f := by
  obtain ⟨lines, hc⟩ := hc
  exact ⟨lines, runOn_bind_error hc g⟩

theorem Repeats.attempt {g : Except Failure α → Compile β} (hc : c.Repeats r f)
    (hg : ∀ lines, (g r).Repeats o (f.notes lines)) : (ShadeNet.attempt c >>= g).Repeats o f := by
  obtain ⟨lines, hc⟩ := hc
  have hattempt : (ShadeNet.attempt c).Repeats (.ok r) f :=
    ⟨lines, by rw [runOn_attempt, hc]⟩
  exact hattempt.bind hg

end Compile

/-! ### Steps that recall -/

/-- A step changes a state only in ways that last. -/
def Pass.Lasting (pass : Pass) (c : Compile α) : Prop :=
  ∀ s, (lastingComparison pass).Rel s (c.runOn s).2

theorem Pass.Lasting.lasts {c : Compile α} {r : Except Failure α} (h : pass.Lasting c)
    (hrun : c.runOn s = (r, t)) : s.Lasts pass.scene t := by
  have hrel := h s
  rw [hrun] at hrel
  exact .of_rel hrel

theorem Pass.Lasting.bind {c : Compile α} {g : α → Compile β} (hc : pass.Lasting c)
    (hg : ∀ a, pass.Lasting (g a)) : pass.Lasting (c >>= g) :=
  fun s => rel_bind (lastingComparison pass).rel_trans (hc s) hg

theorem lasting_pure (a : α) : pass.Lasting (pure a) := (lastingComparison pass).refl

section Lasting

variable (pass)

theorem lasting_walk (depth : Nat) (tree : NodeTree) (node : Node) (useLiterals : Bool) :
    pass.Lasting (pass.walk depth tree node useLiterals) :=
  Comparison.rel_of_keeps ((lastingComparison pass).compiles_walk depth _ _ _ trivial)

theorem lasting_writeObjectMaterial (depth : Nat) :
    pass.Lasting (pass.writeObjectMaterial (pass.walk depth)) :=
  Comparison.rel_of_keeps
    (Contract.keeps_writeObjectMaterial ((lastingComparison pass).compiles_walk depth))

end Lasting

theorem Pass.Lasting.collect {g : α → Compile (Option β)} {l : List α}
    (h : ∀ a ∈ l, pass.Lasting (g a)) : pass.Lasting (ShadeNet.collect g l) := by
  induction l with
  | nil => exact lasting_pure _
  | cons a rest ih =>
    unfold ShadeNet.collect
    exact (h a List.mem_cons_self).bind fun _ =>
      (ih fun b hb => h b (List.mem_cons_of_mem a hb)).bind fun _ => lasting_pure _

/-- Where a step gave a result that counts, it gives the same one at any later time, and
does nothing but to report. -/
def Pass.Recalls (pass : Pass) (P : α → Prop) (c : Compile α) : Prop :=
  ∀ s t f a, c.runOn s = (.ok a, t) → P a → t.Lasts pass.scene f → c.Repeats (.ok a) f

theorem recalls_pure (P : α → Prop) (a : α) : pass.Recalls P (pure a) := by
  rintro s t f _ hrun - -
  cases hrun
  exact .of_unchanged rfl

theorem recalls_report_pure (P : α → Prop) (line : LogLine) (a : α) :
    pass.Recalls P (report line >>= fun _ => pure a) := by
  rintro s t f _ hrun - -
  cases hrun
  exact repeats_report_pure line a f

theorem Pass.Recalls.bind_pure {P : α → Prop} {Q : β → Prop} {c : Compile α}
    (h : pass.Recalls P c) (g : α → β) (hQ : ∀ a, Q (g a) → P a) :
    pass.Recalls Q (c >>= fun a => pure (g a)) := by
  intro s t f b hrun hb hlasts
  obtain ⟨a, u, hc, hpure⟩ := of_runOn_bind_ok hrun
  cases hpure
  exact (h s t f a hc (hQ a hb) hlasts).bind_pure g

theorem Pass.Recalls.collect {g : α → Compile (Option β)} {l : List α}
    (h : ∀ a ∈ l, pass.Recalls (fun _ => True) (g a)) (hl : ∀ a ∈ l, pass.Lasting (g a)) :
    pass.Recalls (fun _ => True) (ShadeNet.collect g l) := by
  induction l with
  | nil => exact recalls_pure _ _
  | cons a rest ih =>
    intro s t f bs hrun _ hlasts
    have hrest : ∀ b ∈ rest, pass.Lasting (g b) := fun b hb => hl b (List.mem_cons_of_mem a hb)
    obtain ⟨first, u, hfirst, hrun⟩ := of_runOn_bind_ok hrun
    obtain ⟨others, w, hothers, hpure⟩ := of_runOn_bind_ok hrun
    cases hpure
    have hlater := ((Pass.Lasting.collect hrest).lasts hothers).trans hlasts
    refine (h a List.mem_cons_self s u f first hfirst trivial hlater).bind fun lines => ?_
    refine Repeats.bind_pure ?_ fun others => first.toList ++ others
    exact ih (fun b hb => h b (List.mem_cons_of_mem a hb)) hrest u t _ others hothers trivial
      (hlasts.notes lines)

/-! ### Nodes, objects and meshes -/

/-- A node that is built once keeps its value. -/
theorem recalls_once {tree : NodeTree} {node : Node} {build : Compile (Option Resolved)}
    (hl : pass.Lasting (once tree node build)) :
    pass.Recalls (fun r => r.isSome = true) (once tree node build) := by
  intro s t f r hrun hsome hlasts
  obtain ⟨value, rfl⟩ := Option.isSome_iff_exists.mp hsome
  have hkey : f.treeKey tree.name = s.treeKey tree.name :=
    ((hl.lasts hrun).trans hlasts).treeKey _
  -- whichever way the value was come by, the node is entered with it in the end
  have hdone : t.ledger.node? (s.treeKey tree.name) node.name = some (.done value) := by
    rw [once_runOn] at hrun
    cases hn : s.ledger.node? (s.treeKey tree.name) node.name with
    | some progress =>
      rw [hn] at hrun
      cases progress <;> cases hrun
      exact hn
    | none =>
      rw [hn] at hrun
      simp only at hrun
      generalize build.runOn _ = o at hrun
      rcases o with ⟨e | _ | built, u⟩ <;> cases hrun
      exact (Ledger.node?_setNode _ _ _ _ _ _).trans (if_pos rfl)
  refine .of_unchanged ?_
  rw [once_runOn, hkey, hlasts.nodes _ _ _ hdone]

/-- What came of an object that is not being compiled is entered, or the object is not of the
scene. -/
theorem writeObject_ok {compile : NodeCompiler} {name : String} {token : Option String}
    (hfree : s.ledger.object? name ≠ some .resolving)
    (h : (pass.writeObject compile name).runOn s = (.ok token, t)) :
    t.ledger.object? name = some (.done token) ∨
      token = none ∧ pass.scene.object? name = none ∧ t.ledger.object? name = none := by
  rw [writeObject_runOn] at h
  cases hl : s.ledger.object? name with
  | some progress =>
    rw [hl] at h hfree
    cases progress with
    | resolving => exact absurd rfl hfree
    | done value =>
      cases h
      exact Or.inl hl
  | none =>
    rw [hl] at h
    cases ho : pass.scene.object? name with
    | none =>
      rw [ho] at h
      cases h
      exact Or.inr ⟨rfl, rfl, hl⟩
    | some object =>
      rw [ho] at h
      simp only at h
      have hentered : ∀ (l : Ledger) (value : Option String),
          (l.setObject name (.done value)).object? name = some (.done value) :=
        fun l value => (Ledger.object?_setObject _ _ _ _).trans (if_pos rfl)
      split at h
      · generalize (pass.buildObject compile name object).runOn _ = o at h
        rcases o with ⟨e | value, u⟩ <;> cases h
        exact Or.inl (hentered _ _)
      · cases h
        exact Or.inl (hentered _ _)

/-- What a selector was given for an object is entered, or the object is not of the scene. -/
theorem selectMember_ok {compile : NodeCompiler} {tree : NodeTree} {node : Node} {name : String}
    {token : Option String}
    (h : (pass.selectMember compile tree node name).runOn s = (.ok token, t)) :
    t.ledger.object? name = some (.done token) ∨
      token = none ∧ pass.scene.object? name = none ∧ t.ledger.object? name = none := by
  unfold Pass.selectMember at h
  rw [runOn_bind_ok (runOn_get s)] at h
  split at h
  · cases h
  · exact writeObject_ok ‹_› h

theorem recalls_selectMember (compile : NodeCompiler) (tree : NodeTree) (node : Node)
    (name : String) : pass.Recalls (fun _ => True) (pass.selectMember compile tree node name) := by
  intro s t f token hrun _ hlasts
  have hf : f.ledger.object? name = some (.done token) ∨
      token = none ∧ pass.scene.object? name = none ∧ f.ledger.object? name = none := by
    rcases selectMember_ok hrun with h | ⟨hnone, hscene, h⟩
    · exact Or.inl (hlasts.objects _ _ h)
    · exact Or.inr ⟨hnone, hscene, (hlasts.remembers.strangers _ hscene).trans h⟩
  refine .of_unchanged ?_
  unfold Pass.selectMember
  rw [runOn_bind_ok (runOn_get f)]
  rcases hf with h | ⟨rfl, hscene, h⟩
  · rw [if_neg (by rw [h]; exact nofun), writeObject_runOn, h]
  · rw [if_neg (by rw [h]; exact nofun), writeObject_runOn, h, hscene]

theorem lasting_selectMember (depth : Nat) (tree : NodeTree) (node : Node) (name : String) :
    pass.Lasting (pass.selectMember (pass.walk depth) tree node name) := by
  intro s
  unfold Pass.selectMember
  rw [runOn_bind_ok (runOn_get s)]
  split
  · exact (lastingComparison pass).refl s
  · exact (lastingComparison pass).rel_writeObject depth name s

theorem recalls_select (depth : Nat) (tree : NodeTree) (node : Node) (names : List String) :
    pass.Recalls (fun _ => True) (pass.select (pass.walk depth) tree node names) :=
  (Pass.Recalls.collect (fun name _ => recalls_selectMember _ tree node name) fun name _ =>
    lasting_selectMember depth tree node name).bind_pure _ fun _ h => h

/-- A mesh that was handed out is so for good. -/
theorem recalls_writeGeometry (pass : Pass) :
    pass.Recalls (fun _ => True) pass.writeGeometry := by
  intro s t f value hrun _ hlasts
  have hlater : f.scope = s.scope := by
    have h := (alike_writeGeometry pass s).scope
    rw [hrun] at h
    exact hlasts.scope.trans h
  unfold Compile.Repeats
  rw [writeGeometry_runOn, hlater]
  cases hscope : s.scope with
  | none =>
    rw [writeGeometry_runOn, hscope] at hrun
    cases hrun
    exact ⟨_, rfl⟩
  | some scope =>
    simp only
    cases hmesh : scope.mesh with
    | none =>
      rw [writeGeometry_runOn, hscope] at hrun
      simp only [hmesh] at hrun
      cases hrun
      exact ⟨_, rfl⟩
    | some mesh =>
      simp only
      obtain ⟨rfl, hmem⟩ := writeGeometry_meshed hscope hmesh hrun
      rw [if_neg]
      · exact ⟨[], by rw [f.notes_nil]⟩
      · intro hnew
        obtain ⟨hauto, hnew⟩ := Bool.and_eq_true_iff.mp hnew
        simp [Ledger.hasMesh, hlasts.meshes (hmem hauto)] at hnew

/-- What came of the materials of an object is kept for it. -/
theorem recalls_writeObjectMaterial (depth : Nat) :
    pass.Recalls (fun _ => True) (pass.writeObjectMaterial (pass.walk depth)) := by
  intro s t f token hrun _ hlasts
  have hlater : f.scope = s.scope :=
    (((lasting_writeObjectMaterial pass depth).lasts hrun).trans hlasts).scope
  cases hscope : s.scope with
  | none =>
    unfold Pass.writeObjectMaterial at hrun ⊢
    rw [runOn_bind_ok (runOn_get s)] at hrun
    simp only [hscope] at hrun
    cases hrun
    unfold Compile.Repeats
    rw [runOn_bind_ok (runOn_get f)]
    simp only [hlater, hscope]
    exact ⟨_, rfl⟩
  | some scope =>
    cases ho : pass.scene.object? scope.name with
    | none =>
      unfold Pass.writeObjectMaterial at hrun ⊢
      rw [runOn_bind_ok (runOn_get s)] at hrun
      simp only [hscope, ho] at hrun
      cases hrun
      refine .of_unchanged ?_
      rw [runOn_bind_ok (runOn_get f)]
      simp only [hlater, hscope, ho]
      rfl
    | some object =>
      refine .of_unchanged (writeObjectMaterial_recalled (hlater.trans hscope) ho ?_)
      refine hlasts.remembers.synthesized _ _ ?_
      cases hmemo : s.ledger.synthesized? (multiMaterialName scope.name) with
      | some known =>
        rw [writeObjectMaterial_recalled hscope ho hmemo] at hrun
        cases hrun
        exact hmemo
      | none =>
        obtain ⟨tokens, u, w, -, -, rfl⟩ := writeObjectMaterial_gathered hscope ho hmemo hrun
        exact (Ledger.synthesized?_setSynthesized _ _ _ _).trans (if_pos rfl)

/-! ### The walk -/

theorem recalls_resolveSocket {compile : NodeCompiler}
    (hc : ∀ tree node useLiterals,
      pass.Recalls (fun r => r.isSome = true) (compile tree node useLiterals))
    (tree : NodeTree) (node : Node) (socket : Socket) (useLiterals : Bool) :
    pass.Recalls (fun r => r.isSome = true)
      (resolveSocket compile tree node socket useLiterals) := by
  unfold resolveSocket
  split
  · exact recalls_pure _ _
  · split
    · exact recalls_report_pure _ _ _
    · exact (hc _ _ _).bind_pure _ fun r hr => by simpa using hr

theorem recalls_resolveInput {compile : NodeCompiler}
    (hc : ∀ tree node useLiterals,
      pass.Recalls (fun r => r.isSome = true) (compile tree node useLiterals))
    (tree : NodeTree) (node : Node) (name : String) (useLiterals : Bool) :
    pass.Recalls (fun r => r.isSome = true)
      (resolveInput compile tree node name useLiterals) := by
  unfold resolveInput
  split
  · exact recalls_report_pure _ _ _
  · exact recalls_resolveSocket hc _ _ _ _

/-- **What is given is given again.** Where a node gave a value, it gives the same value at
any later time in the same scope, and nothing is done for it. -/
theorem recalls_walk (pass : Pass) : ∀ (depth : Nat) (tree : NodeTree) (node : Node)
    (useLiterals : Bool),
    pass.Recalls (fun r => r.isSome = true) (pass.walk depth tree node useLiterals)
  | 0, _, _, _ => fun _ _ _ _ hrun => by cases hrun
  | depth + 1, tree, node, useLiterals => by
    have hl := lasting_walk pass (depth + 1) tree node useLiterals
    have hc := recalls_walk pass depth
    show pass.Recalls _ (pass.compileNode (pass.walk depth) tree node useLiterals)
    change pass.Lasting (pass.compileNode (pass.walk depth) tree node useLiterals) at hl
    unfold Pass.compileNode at hl ⊢
    cases hkind : node.kind with
    | plugin | layeredTexture | layeredBrdf =>
      simp only [hkind] at hl
      exact recalls_once hl
    | unset => exact recalls_pure _ _
    | selectObject => exact (recalls_select _ _ _ _).bind_pure _ fun _ _ => trivial
    | selectGroup => exact (recalls_select _ _ _ _).bind_pure _ fun _ _ => trivial
    | objectGeometry => exact fun s t f a hrun _ => recalls_writeGeometry pass s t f a hrun trivial
    | objectMaterial => exact (recalls_writeObjectMaterial _).bind_pure _ fun _ _ => trivial
    | materialOutput => exact recalls_resolveInput hc _ _ _ _
    | objectOutput => exact recalls_resolveInput hc _ _ _ _

end ShadeNet
