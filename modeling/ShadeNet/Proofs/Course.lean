/-
# The course of a pass

A pass forgets what the last one compiled, writes its head and its defaults, and
then compiles one material or object after another. The materials and objects are
one list of items here, so that a pass can be cut between any two of them.

Key definitions: `Pass.headed`, `Pass.opening`, `Pass.items`, `Pass.body`,
`Pass.before`.
Key theorems: `Pass.run_eq_before`, `Pass.run_runOn`, `Pass.before_runOn`.
-/
import ShadeNet.Proofs.Step

namespace ShadeNet

open Compile

namespace Pass

variable (pass : Pass)

/-- The comment at the head of the pass. -/
def header : Entry := .remark (headerText pass.scene.name pass.frame)

/-- The state in which a pass has written its head and has compiled nothing. -/
def headed (s : PassState) : PassState :=
  { s.note (.exporting pass.scene.name pass.frame) with
    ledger := {}
    scope := none
    overrideToken := none
    sink := (s.sink.write pass.header).1 }

/-- The default material and the override. -/
def opening : Compile Unit := do
  pass.writeDefaults
  pass.writeOverride

/-- What a pass compiles, in order. -/
def items : List (Compile Unit) :=
  pass.scene.materials.keys.map pass.writeMaterial ++
    pass.scene.objects.keys.map pass.writeSceneObject

/-- What a pass does behind its head, up to the item at place `index`. -/
def body (index : Nat) : Compile Unit := do
  pass.opening
  (pass.items.take index).forM id

/-- The start of a pass up to the item at place `index`. -/
def before (index : Nat) : Compile Unit := do
  report (.exporting pass.scene.name pass.frame)
  modify fun s => { s with ledger := {}, scope := none, overrideToken := none }
  writeEntry pass.header
  pass.body index

/-- The end of a pass. -/
def closing : Compile Summary := do
  let s ← get
  let summary : Summary := ⟨pass.frame, s.ledger.records, s.ledger.compiledNodes⟩
  report (.exported summary.frame summary.records summary.nodes)
  return summary

theorem writeScene_eq : pass.writeScene =
    (do writeEntry pass.header; pass.opening; pass.items.forM id) := by
  unfold writeScene writeRemark opening items header
  simp only [List.forM_eq_forM, List.forM_append, List.forM_map, bind_assoc, id]

/-- A pass goes on after any of its items with those that are left. -/
theorem run_eq_before (index : Nat) :
    pass.run = (do pass.before index; (pass.items.drop index).forM id; pass.closing) := by
  have hsplit : (pass.items.forM id : Compile Unit) =
      ((pass.items.take index).forM id >>= fun _ => (pass.items.drop index).forM id) := by
    rw [List.forM_eq_forM, ← List.forM_append, List.take_append_drop]
  unfold run before body closing
  rw [writeScene_eq, hsplit]
  simp only [bind_assoc]

/-- A pass ends at its head if there is no room for it. -/
def afterHead (s : PassState) (c : Compile α) : Except Failure α × PassState :=
  if (s.sink.write pass.header).2 then c.runOn (pass.headed s)
  else (.error .sinkFull, pass.headed s)

theorem before_bind_runOn (index : Nat) (f : Unit → Compile α) (s : PassState) :
    (pass.before index >>= f).runOn s = pass.afterHead s (pass.body index >>= f) := by
  unfold before
  simp only [bind_assoc]
  rw [runOn_bind_ok (runOn_report _ s), runOn_bind_ok (runOn_modify _ _), runOn_bind,
    writeEntry_runOn]
  unfold afterHead headed PassState.note
  by_cases h : (s.sink.write pass.header).2 = true
  · simp only [h, if_true]
  · simp only [h]
    rfl

theorem before_runOn (index : Nat) (s : PassState) :
    (pass.before index).runOn s = pass.afterHead s (pass.body index) := by
  have h := pass.before_bind_runOn index pure s
  rwa [bind_pure, bind_pure] at h

theorem run_runOn (s : PassState) :
    pass.run.runOn s = pass.afterHead s (do pass.body pass.items.length; pass.closing) := by
  rw [run_eq_before pass pass.items.length, List.drop_length]
  simpa using pass.before_bind_runOn pass.items.length (fun _ => pass.closing) s

/-- A pass whose head is taken ends as what is behind the head does. -/
theorem run_of_head {s : PassState} (h : (s.sink.write pass.header).2 = true) :
    pass.run.runOn s = match (pass.body pass.items.length).runOn (pass.headed s) with
      | (.error e, t) => (.error e, t)
      | (.ok _, t) => (.ok ⟨pass.frame, t.ledger.records, t.ledger.compiledNodes⟩,
        t.note (.exported pass.frame t.ledger.records t.ledger.compiledNodes)) := by
  rw [run_runOn, afterHead, if_pos h, runOn_bind]
  rcases Compile.runOn _ _ with ⟨e | _, t⟩ <;> rfl

/-- All that a pass does behind its head. -/
theorem body_all : pass.body pass.items.length = (do
    pass.opening
    pass.scene.materials.keys.forM pass.writeMaterial
    pass.scene.objects.keys.forM pass.writeSceneObject) := by
  unfold body
  rw [List.take_length]
  unfold items
  simp only [List.forM_eq_forM, List.forM_append, List.forM_map, id]

/-- What relates the head to the state behind the body relates it to the state behind
the pass. -/
theorem rel_afterHead {Rel : PassState → PassState → Prop} {s : PassState} {c : Compile α}
    (hrefl : Rel (pass.headed s) (pass.headed s))
    (hc : Rel (pass.headed s) (c.runOn (pass.headed s)).2) :
    Rel (pass.headed s) (pass.afterHead s c).2 := by
  unfold afterHead
  split
  · exact hc
  · exact hrefl

end Pass

end ShadeNet
