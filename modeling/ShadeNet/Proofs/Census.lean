/-
# One record for each compiled node

Every node that a pass has compiled was built by one call, which wrote one record for it,
and the node is entered with the name of that record. A call that finds its node entered
builds nothing, and one that nothing comes of writes none of its own but the weights of its
layers. So the number of compiled nodes is the number of records that were written for nodes,
at any point at which a call returns.

Key definitions: `PassState.Grows`, `PassState.Built`, `Pass.builtBy`, `Visit.entry?`,
`Pass.Reaches`.
Key theorems: `Journey.built`, `compiled_once`.
-/
import ShadeNet.Proofs.Distinct
import ShadeNet.Proofs.Settlement
import ShadeNet.Proofs.TreeKey

namespace ShadeNet

open Compile

/-! ### Counting -/

namespace Ledger

variable (l : Ledger) (key node : String)

/-- The number of compiled nodes with another entry for a node. -/
theorem compiledNodes_setNode (progress : Progress Resolved) :
    (l.setNode key node progress).compiledNodes +
        (l.node? key node).toList.countP (·.isDone) =
      l.compiledNodes + [progress].countP (·.isDone) :=
  OrderedMap.countP_insert _ _ _ _

/-- The number of compiled nodes without the entry for a node. -/
theorem compiledNodes_abandonNode :
    (l.abandonNode key node).compiledNodes + (l.node? key node).toList.countP (·.isDone) =
      l.compiledNodes :=
  OrderedMap.countP_erase _ _ _

end Ledger

variable {pass : Pass} {c : Option Visit} {s t u w x inner : PassState} {v : Visit}
  {vs ws : List Visit} {r : Record} {records : List Record}

theorem PassState.Alike.compiledNodes (h : s.Alike t) :
    t.ledger.compiledNodes = s.ledger.compiledNodes := by
  unfold Ledger.compiledNodes
  rw [h.nodes]

/-! ### What grows -/

/-- What a later state of a pass has of an earlier one, whatever is being compiled in the one
or the other: compiled nodes, records and names. -/
structure PassState.Grows (s t : PassState) : Prop where
  precedes : s.Precedes t
  appends : s.Appends t
  names : s.ledger.names ⊆ t.ledger.names

namespace PassState.Grows

theorem refl (s : PassState) : s.Grows s := ⟨.refl s, .of_eq rfl rfl, List.Subset.refl _⟩

theorem trans (h : s.Grows t) (k : t.Grows u) : s.Grows u :=
  ⟨h.precedes.trans k.precedes, appends_trans s t u h.appends k.appends,
    List.Subset.trans h.names k.names⟩

theorem of_alike (h : s.Alike t) (hnames : s.ledger.names ⊆ t.ledger.names) : s.Grows t :=
  ⟨.of_alike h, h.appends, hnames⟩

theorem sent (h : s.Grows t) : s.sent <+: t.sent := h.precedes.sent

end PassState.Grows

namespace Pass

theorem Brackets.grows_inner (hb : pass.Brackets v inner vs u) : v.state.Grows inner := by
  refine ⟨hb.precedes_inner, ?_, hb.names.1 ▸ List.Subset.refl _⟩
  cases hb <;> exact .of_eq rfl rfl

theorem Brackets.grows_run (hb : pass.Brackets v inner vs u)
    (hj : pass.Journey (some v) inner vs u) : u.Grows (v.run pass).2 := by
  refine ⟨hb.precedes_run hj, ?_, hb.names.2⟩
  cases hb with
  | passed => exact .of_eq rfl rfl
  | built _ _ hw hrun => rw [hrun]; exact hw.alike.appends
  | gathered _ _ _ _ _ _ _ hcombine hrun =>
    rw [hrun]
    exact (alike_combineMaterials hcombine).1.appends
  | dropped _ _ hrun | hidden _ _ hrun | left _ _ _ _ hrun | quit _ _ _ hrun =>
    rw [hrun]
    exact .of_eq rfl rfl

/-- The states of a journey grow, from where it begins through each visit to where it ends. -/
theorem Journey.grows (h : pass.Journey c s vs t) :
    s.Grows t ∧ ∀ v ∈ vs, s.Grows v.state ∧ (v.run pass).2.Grows t :=
  h.relates PassState.Grows .refl (fun _ _ _ => .trans) (fun _ _ => .of_alike)
    (fun _ _ => ⟨⟨fun _ _ _ hd => hd, List.prefix_refl _⟩, .of_eq rfl rfl, List.Subset.refl _⟩)
    (fun _ _ _ _ hb => hb.grows_inner) fun _ _ _ _ hb hj => hb.grows_run hj

/-- A visit of a journey grows from where it begins to where it ends. -/
theorem Journey.grows_visit (h : pass.Journey c s vs t) (hv : v ∈ vs) :
    v.state.Grows (v.run pass).2 := by
  obtain ⟨inner, ws, u, hb, hj⟩ := h.call_of_mem hv
  exact (hb.grows_inner.trans hj.grows.1).trans (hb.grows_run hj)

end Pass

/-! ### The bracket of a build -/

/-- The node that a call is of, by the key of its tree and its name. -/
def Visit.entry? (v : Visit) : Option (String × String) :=
  match v.call with
  | .node tree node _ => some (v.state.treeKey tree.name, node.name)
  | _ => none

namespace Pass

/-- A call that builds writes a record, enters its name for the node, and gives it. Any other
call enters no node and leaves the number of compiled nodes as it was. -/
theorem Brackets.of_built? (hb : pass.Brackets v inner vs u)
    (hj : pass.Journey (some v) inner vs u) :
    (pass.built? v = none ∧ (v.run pass).2.ledger.compiledNodes = u.ledger.compiledNodes ∧
        ∀ key node value, (v.run pass).2.ledger.node? key node = some (.done value) →
          u.ledger.node? key node = some (.done value)) ∨
      ∃ r w key node, pass.built? v = some r ∧ v.entry? = some (key, node) ∧
        v.state.ledger.node? key node = none ∧ u.Writes r w ∧
        v.run pass = (.ok (some (.reference r.name)), w.finish key node (.reference r.name)) ∧
        (v.run pass).2.ledger.compiledNodes = u.ledger.compiledNodes + 1 := by
  have hother : (∀ tree node useLiterals, v.call ≠ .node tree node useLiterals) →
      pass.built? v = none :=
    fun h => built?_of_call fun tree node useLiterals hcall => absurd hcall (h _ _ _)
  cases hb with
  | passed _ _ hnothing => exact Or.inl ⟨hnothing, rfl, fun _ _ _ hd => hd⟩
  | @built tree node useLiterals _ _ w r hcall hnone hw hrun hkind =>
    refine Or.inr ⟨r, w, _, _, built?_of_writes hcall hkind hnone hw hrun, ?_, hnone, hw, hrun, ?_⟩
    · unfold Visit.entry?
      rw [hcall]
    · have hmark := (hw.alike.node? _ _).trans (hj.node_resolving (mark_resolving _ _ _))
      have hcount := w.ledger.compiledNodes_setNode (v.state.treeKey tree.name) node.name
        (.done (.reference r.name))
      rw [hmark] at hcount
      rw [hrun, ← hw.alike.compiledNodes]
      exact hcount
  | @dropped tree node useLiterals _ _ hcall hnone hrun hnothing =>
    refine Or.inl ⟨built?_of_run hnothing, ?_, fun key node value hd =>
      Ledger.done_abandonNode (hrun ▸ hd)⟩
    have hcount := u.ledger.compiledNodes_abandonNode (v.state.treeKey tree.name) node.name
    rw [hj.node_resolving (mark_resolving _ _ _)] at hcount
    rw [hrun]
    exact hcount
  | gathered hcall _ _ _ _ _ _ hcombine hrun =>
    obtain ⟨halike, -⟩ := alike_combineMaterials hcombine
    refine Or.inl ⟨hother (by simp [hcall]), ?_, ?_⟩ <;> rw [hrun]
    · exact halike.compiledNodes
    · exact fun key node value hd => (halike.holds (.node key node value)).mp hd
  | hidden hcall _ hrun | left hcall _ _ _ hrun | quit hcall _ _ hrun =>
    refine Or.inl ⟨hother (by simp [hcall]), ?_, ?_⟩ <;> rw [hrun]
    · rfl
    · exact fun _ _ _ hd => hd

/-- Where a bracket opens, as many nodes are compiled and the same is written as before. -/
theorem Brackets.inner_eq (hb : pass.Brackets v inner vs u) :
    inner.ledger.compiledNodes = v.state.ledger.compiledNodes ∧
      inner.ledger.names = v.state.ledger.names ∧ inner.sink = v.state.sink ∧
      inner.sent = v.state.sent := by
  have hmark : ∀ {key node : String}, v.state.ledger.node? key node = none →
      (v.state.mark key node).ledger.compiledNodes = v.state.ledger.compiledNodes := by
    intro key node hnone
    have hcount := v.state.ledger.compiledNodes_setNode key node .resolving
    rw [hnone] at hcount
    exact hcount
  cases hb with
  | built _ hnone | dropped _ hnone => exact ⟨hmark hnone, rfl, rfl, rfl⟩
  | passed | gathered | hidden | left | quit => exact ⟨rfl, rfl, rfl, rfl⟩

end Pass

/-! ### The records of nodes -/

/-- On the way from a state to a later one, these records were written for nodes: as many as
nodes were compiled, whole, and under names of their own that were free before. -/
structure PassState.Built (s : PassState) (records : List Record) (t : PassState) : Prop where
  compiled : t.ledger.compiledNodes = s.ledger.compiledNodes + records.length
  nodup : (records.map Record.name).Nodup
  fresh : ∀ r ∈ records, r.name ∉ s.ledger.names
  taken : ∀ r ∈ records, r.name ∈ t.ledger.names
  received : ∀ r ∈ records, s.sink.Received t.sink r
  sent : ∀ r ∈ records, r ∈ t.sent.drop s.sent.length

/-- What is sent between two states is sent on the way past them. -/
theorem mem_drop_mono {earlier earlier' later later' : List Record} (h : earlier' <+: earlier)
    (h' : earlier <+: later) (h'' : later <+: later') (hr : r ∈ later.drop earlier.length) :
    r ∈ later'.drop earlier'.length := by
  obtain ⟨a, rfl⟩ := h
  obtain ⟨b, rfl⟩ := h'
  obtain ⟨c, rfl⟩ := h''
  rw [List.drop_left] at hr
  simp only [List.append_assoc, List.drop_left]
  simp [hr]

namespace PassState.Built

theorem nil (hcompiled : t.ledger.compiledNodes = s.ledger.compiledNodes) : s.Built [] t :=
  ⟨hcompiled, by simp, by simp, by simp, by simp, by simp⟩

/-- What was written on the way is written on a longer way. -/
theorem mono (h : t.Built records u) (hs : s.Grows t) (ht : t.Grows u) (hu : u.Grows x) :
    (∀ r ∈ records, r.name ∉ s.ledger.names) ∧ (∀ r ∈ records, r.name ∈ x.ledger.names) ∧
      (∀ r ∈ records, s.sink.Received x.sink r) ∧ ∀ r ∈ records, r ∈ x.sent.drop s.sent.length := by
  obtain ⟨-, arrived, -, -, hsink⟩ := hs.appends
  obtain ⟨-, arrived', -, -, hsink'⟩ := hu.appends
  refine ⟨fun r hr hname => h.fresh r hr (hs.names hname), fun r hr => hu.names (h.taken r hr),
    fun r hr => ?_, fun r hr => mem_drop_mono hs.sent ht.sent hu.sent (h.sent r hr)⟩
  have hreceived := h.received r hr
  rw [hsink] at hreceived
  rw [hsink']
  exact (hreceived.earlier _).later _

/-- One part of the way after another. -/
theorem append {more : List Record} (h : s.Built records t) (k : t.Built more u) (hs : s.Grows t)
    (ht : t.Grows u) : s.Built (records ++ more) u := by
  obtain ⟨-, htaken, hreceived, hsent⟩ := h.mono (.refl s) hs ht
  obtain ⟨hfresh', -, hreceived', hsent'⟩ := k.mono hs ht (.refl u)
  have hforall : ∀ {P : Record → Prop}, (∀ r ∈ records, P r) → (∀ r ∈ more, P r) →
      ∀ r ∈ records ++ more, P r :=
    fun h h' r hr => (List.mem_append.mp hr).elim (h r) (h' r)
  refine ⟨?_, ?_, hforall h.fresh hfresh', hforall htaken k.taken, hforall hreceived hreceived',
    hforall hsent hsent'⟩
  · rw [k.compiled, h.compiled, List.length_append]
    omega
  · rw [List.map_append, List.nodup_append]
    refine ⟨h.nodup, k.nodup, fun a ha b hb hab => ?_⟩
    obtain ⟨q, hq, rfl⟩ := List.mem_map.mp ha
    obtain ⟨r, hr, rfl⟩ := List.mem_map.mp hb
    exact k.fresh r hr (hab ▸ h.taken q hq)

/-- A node is entered with the name of its record. -/
theorem finish {key node : String} (hw : u.Writes r w)
    (hcompiled : (w.finish key node (.reference r.name)).ledger.compiledNodes =
      u.ledger.compiledNodes + 1) :
    u.Built [r] (w.finish key node (.reference r.name)) := by
  have hone : ∀ {P : Record → Prop}, P r → ∀ q ∈ [r], P q :=
    fun h q hq => List.mem_singleton.mp hq ▸ h
  have hreceived : u.sink.Received w.sink r := hw.sink ▸ Sink.Received.write hw.whole [] rfl
  have hsent : r ∈ w.sent.drop u.sent.length := by simp [hw.sent]
  exact ⟨hcompiled, by simp, hone hw.fresh, hone hw.taken, hone hreceived, hone hsent⟩

/-- The order in which the records are listed does not matter. -/
theorem perm {more : List Record} (h : s.Built records t) (hp : records.Perm more) :
    s.Built more t :=
  ⟨hp.length_eq ▸ h.compiled, (hp.map _).nodup_iff.mp h.nodup,
    fun r hr => h.fresh r (hp.mem_iff.mpr hr), fun r hr => h.taken r (hp.mem_iff.mpr hr),
    fun r hr => h.received r (hp.mem_iff.mpr hr), fun r hr => h.sent r (hp.mem_iff.mpr hr)⟩

end PassState.Built

/-- The records that visits have written for nodes by a state: a builder writes its record when
all of its calls have returned, so these are the records of the visits that have returned. -/
def Pass.builtBy (pass : Pass) (visits : List Visit) (x : PassState) : List Record :=
  (visits.filter fun v => decide ((v.run pass).2.sent <+: x.sent)).filterMap pass.built?

namespace Pass

theorem builtBy_append (vs ws : List Visit) (x : PassState) :
    pass.builtBy (vs ++ ws) x = pass.builtBy vs x ++ pass.builtBy ws x := by
  unfold builtBy
  rw [List.filter_append, List.filterMap_append]

/-- By a state behind a journey all of its visits have returned. -/
theorem Journey.builtBy_end (h : pass.Journey c s vs t) (hx : t.sent <+: x.sent) :
    pass.builtBy vs x = vs.filterMap pass.built? := by
  unfold builtBy
  rw [List.filter_eq_self.mpr]
  exact fun v hv => decide_eq_true ((h.grows.2 v hv).2.sent.trans hx)

/-- A visit that builds has not returned while it is being built. -/
theorem Brackets.not_returned (hb : pass.Brackets v inner vs u)
    (hj : pass.Journey (some v) inner vs u) (hbuilt : pass.built? v ≠ none) :
    ¬ (v.run pass).2.sent <+: u.sent := by
  rcases hb.of_built? hj with ⟨hnone, -⟩ | ⟨r, w, key, node, -, -, -, hw, hrun, -⟩
  · exact absurd hnone hbuilt
  · intro hpre
    have hlen := hpre.length_le
    rw [hrun] at hlen
    have hsent : (w.finish key node (.reference r.name)).sent = u.sent ++ [r] := hw.sent
    rw [hsent, List.length_append, List.length_singleton] at hlen
    omega

/-- By a state before a journey no visit that builds has returned. -/
theorem Journey.builtBy_before (h : pass.Journey c s vs t) (hx : x.sent <+: s.sent) :
    pass.builtBy vs x = [] := by
  unfold builtBy
  rw [List.filterMap_eq_nil_iff]
  intro v hv
  obtain ⟨hv, hreturned⟩ := List.mem_filter.mp hv
  obtain ⟨inner, ws, u, hb, hj⟩ := h.call_of_mem hv
  by_contra hbuilt
  have hbegin := (h.grows.2 v hv).1.trans (hb.grows_inner.trans hj.grows.1)
  exact hb.not_returned hj hbuilt (((of_decide_eq_true hreturned).trans hx).trans hbegin.sent)

/-- **What is compiled is written.** At the end of a journey, and where any of its visits
returns, the records of nodes that were written since it began are as many as nodes were
compiled since. -/
theorem Journey.built (h : pass.Journey c s vs t) :
    s.Built (vs.filterMap pass.built?) t ∧
      ∀ v ∈ vs, s.Built (pass.builtBy vs (v.run pass).2) (v.run pass).2 := by
  induction h with
  | quiet halike => exact ⟨.nil halike.compiledNodes, by simp⟩
  | chosen _ _ ih =>
    exact ⟨⟨ih.1.compiled, ih.1.nodup, ih.1.fresh, ih.1.taken, ih.1.received, ih.1.sent⟩, ih.2⟩
  | @append c s t u vs ws hj hj' ih ih' =>
    rw [List.filterMap_append]
    refine ⟨ih.1.append ih'.1 hj.grows.1 hj'.grows.1, fun v hv => ?_⟩
    rw [builtBy_append]
    rcases List.mem_append.mp hv with hv | hv
    · rw [hj'.builtBy_before (hj.grows.2 v hv).2.sent, List.append_nil]
      exact ih.2 v hv
    · have hlater := (hj'.grows.2 v hv).1.trans (hj'.grows_visit hv)
      rw [hj.builtBy_end hlater.sent]
      exact ih.1.append (ih'.2 v hv) hj.grows.1 hlater
  | @call c v inner vs u hcalls hb hj ih =>
    obtain ⟨hcompiled, hnames, hsink, hsent⟩ := hb.inner_eq
    -- the bracket opens with what there was before
    have hopen : ∀ {records x}, inner.Built records x → v.state.Built records x := fun h =>
      ⟨hcompiled ▸ h.compiled, h.nodup, hnames ▸ h.fresh, h.taken, hsink ▸ h.received,
        hsent ▸ h.sent⟩
    have hjourney : pass.Journey c v.state (v :: vs) (v.run pass).2 := .call hcalls hb hj
    have hend : v.state.Built ((v :: vs).filterMap pass.built?) (v.run pass).2 := by
      have hinner := hopen ih.1
      have hgrows := hb.grows_inner.trans hj.grows.1
      rcases hb.of_built? hj with
        ⟨hnone, hsame, -⟩ | ⟨r, w, key, node, hsome, -, -, hw, hrun, hone⟩
      · rw [List.filterMap_cons_none hnone]
        simpa using hinner.append (.nil hsame) hgrows (hb.grows_run hj)
      · rw [List.filterMap_cons_some hsome]
        have hrest := hb.grows_run hj
        rw [hrun] at hone hrest ⊢
        exact (hinner.append (.finish hw hone) hgrows hrest).perm (List.perm_append_singleton _ _)
    refine ⟨hend, fun w hw => ?_⟩
    rcases List.mem_cons.mp hw with rfl | hw
    · rwa [hjourney.builtBy_end (List.prefix_refl _)]
    · -- the visit around has not returned if it builds
      have haround : pass.builtBy (v :: vs) (w.run pass).2 = pass.builtBy vs (w.run pass).2 := by
        unfold builtBy
        rw [List.filter_cons]
        split
        · rename_i hreturned
          refine List.filterMap_cons_none (by_contra fun hbuilt => ?_)
          exact hb.not_returned hj hbuilt
            ((of_decide_eq_true hreturned).trans (hj.grows.2 w hw).2.sent)
        · rfl
      rw [haround]
      exact hopen (ih.2 w hw)

/-! ### The entries of nodes -/

/-- What a visit that builds has entered is there when any other one returns later. -/
theorem Journey.returned_grows (h : pass.Journey c s vs t) {w : Visit} (hw : w ∈ vs) (hv : v ∈ vs)
    (hbuilt : pass.built? w ≠ none) (hreturned : (w.run pass).2.sent <+: (v.run pass).2.sent) :
    (w.run pass).2.Grows (v.run pass).2 := by
  induction h with
  | quiet => simp at hw
  | chosen _ _ ih => exact ih hw hv
  | append hj hj' ih ih' =>
    rcases List.mem_append.mp hw with hw | hw <;> rcases List.mem_append.mp hv with hv | hv
    · exact ih hw hv
    · exact ((hj.grows.2 w hw).2.trans (hj'.grows.2 v hv).1).trans (hj'.grows_visit hv)
    · -- the one that builds has begun when the other one has returned
      obtain ⟨inner, ws, u, hb, hjw⟩ := hj'.call_of_mem hw
      have hbegin := ((hj.grows.2 v hv).2.trans (hj'.grows.2 w hw).1).trans
        (hb.grows_inner.trans hjw.grows.1)
      exact absurd (hreturned.trans hbegin.sent) (hb.not_returned hjw hbuilt)
    · exact ih' hw hv
  | call _ hb hj ih =>
    rcases List.mem_cons.mp hw with rfl | hw' <;> rcases List.mem_cons.mp hv with rfl | hv'
    · exact .refl _
    · exact absurd (hreturned.trans (hj.grows.2 v hv').2.sent) (hb.not_returned hj hbuilt)
    · exact (hj.grows.2 w hw').2.trans (hb.grows_run hj)
    · exact ih hw' hv'

/-- What a state says of a node was said before, or was entered by a visit that built it and
has returned. -/
def BuiltFrom (pass : Pass) (s : PassState) (visits : List Visit) (x : PassState) : Prop :=
  ∀ key node value, x.ledger.node? key node = some (.done value) →
    s.ledger.node? key node = some (.done value) ∨
      ∃ v ∈ visits, ∃ r, v.entry? = some (key, node) ∧ pass.built? v = some r ∧
        value = .reference r.name ∧ (v.run pass).2.sent <+: x.sent

theorem BuiltFrom.mono (h : pass.BuiltFrom s vs x) (hsub : vs ⊆ ws) : pass.BuiltFrom s ws x := by
  intro key node value hd
  exact (h key node value hd).imp id fun ⟨v, hv, hrest⟩ => ⟨v, hsub hv, hrest⟩

theorem BuiltFrom.trans (h : pass.BuiltFrom s vs t) (k : pass.BuiltFrom t ws x)
    (hx : t.sent <+: x.sent) : pass.BuiltFrom s (vs ++ ws) x := by
  intro key node value hd
  rcases k key node value hd with hmid | ⟨v, hv, hrest⟩
  · rcases h key node value hmid with hold | ⟨v, hv, r, hentry, hbuilt, hvalue, hreturned⟩
    · exact Or.inl hold
    · exact Or.inr ⟨v, List.mem_append_left _ hv, r, hentry, hbuilt, hvalue, hreturned.trans hx⟩
  · exact Or.inr ⟨v, List.mem_append_right _ hv, hrest⟩

/-- Whatever is said of a node in the end of a journey, or where a visit returns, was said
before the journey or was entered by a visit that built it. -/
theorem Journey.builtFrom (h : pass.Journey c s vs t) :
    pass.BuiltFrom s vs t ∧ ∀ v ∈ vs, pass.BuiltFrom s vs (v.run pass).2 := by
  induction h with
  | quiet halike =>
    exact ⟨fun key node value hd => Or.inl ((halike.holds (.node key node value)).mp hd), by simp⟩
  | chosen _ _ ih => exact ⟨ih.1, ih.2⟩
  | append hj hj' ih ih' =>
    refine ⟨ih.1.trans ih'.1 hj'.grows.1.sent, fun v hv => ?_⟩
    rcases List.mem_append.mp hv with hv | hv
    · exact (ih.2 v hv).mono (List.subset_append_left _ _)
    · exact ih.1.trans (ih'.2 v hv) ((hj'.grows.2 v hv).1.trans (hj'.grows_visit hv)).sent
  | @call c v inner vs u _ hb hj ih =>
    have hsub : vs ⊆ v :: vs := List.subset_cons_self v vs
    have hopen : ∀ {x}, pass.BuiltFrom inner vs x → pass.BuiltFrom v.state (v :: vs) x :=
      fun h key node value hd =>
        (h.mono hsub key node value hd).imp (hb.holds_inner (.node key node value)) id
    have hend : pass.BuiltFrom v.state (v :: vs) (v.run pass).2 := by
      intro key node value hd
      have hinside : u.ledger.node? key node = some (.done value) →
          v.state.ledger.node? key node = some (.done value) ∨
            ∃ w ∈ v :: vs, ∃ r, w.entry? = some (key, node) ∧ pass.built? w = some r ∧
              value = .reference r.name ∧ (w.run pass).2.sent <+: (v.run pass).2.sent := fun hu =>
        (hopen ih.1 key node value hu).imp id fun ⟨w, hw, r, hentry, hbuilt, hvalue, hreturned⟩ =>
          ⟨w, hw, r, hentry, hbuilt, hvalue, hreturned.trans (hb.grows_run hj).sent⟩
      rcases hb.of_built? hj with ⟨-, -, hsame⟩ | ⟨r, w, k, n, hsome, hentry, -, hw, hrun, -⟩
      · exact hinside (hsame key node value hd)
      · rw [hrun] at hd
        rcases PassState.Holds.of_finish (m := .node key node value) hd with heq | hold
        · cases heq
          exact Or.inr ⟨v, List.mem_cons_self, r, hentry, hsome, rfl, List.prefix_refl _⟩
        · exact hinside ((hw.alike.holds (.node key node value)).mp hold)
    refine ⟨hend, fun w hw => ?_⟩
    rcases List.mem_cons.mp hw with rfl | hw
    · exact hend
    · exact hopen (ih.2 w hw)

end Pass

/-! ### Lists whose members have keys of their own -/

theorem filter_key_eq {α κ : Type} [DecidableEq κ] {f : α → κ} : ∀ {l : List α} {a : α},
    (l.map f).Nodup → a ∈ l → l.filter (f · = f a) = [a]
  | first :: rest, a, hnodup, ha => by
    rw [List.map_cons, List.nodup_cons] at hnodup
    rcases List.mem_cons.mp ha with rfl | ha
    · rw [List.filter_cons_of_pos (by simp), List.filter_eq_nil_iff.mpr]
      intro b hb hkey
      exact hnodup.1 (of_decide_eq_true hkey ▸ List.mem_map_of_mem hb)
    · rw [List.filter_cons_of_neg, filter_key_eq hnodup.2 ha]
      simpa using fun hkey : f first = f a => hnodup.1 (hkey ▸ List.mem_map_of_mem ha)

/-- Two members that a list is read off by to one key are one. -/
theorem eq_of_filterMap_key {α β κ : Type} {g : α → Option β} {f : β → κ} {a a' : α} {b b' : β}
    (hb : g a = some b) (hb' : g a' = some b') (hkey : f b = f b') : ∀ {l : List α},
    ((l.filterMap g).map f).Nodup → a ∈ l → a' ∈ l → a = a'
  | first :: rest, hnodup, ha, ha' => by
    have hmem : ∀ {c d}, c ∈ rest → g c = some d → d ∈ rest.filterMap g :=
      fun hc hd => List.mem_filterMap.mpr ⟨_, hc, hd⟩
    rcases List.mem_cons.mp ha with rfl | hrest <;> rcases List.mem_cons.mp ha' with rfl | hrest'
    · rfl
    · rw [List.filterMap_cons_some hb, List.map_cons, List.nodup_cons] at hnodup
      exact absurd (hkey ▸ List.mem_map_of_mem (hmem hrest' hb')) hnodup.1
    · rw [List.filterMap_cons_some hb', List.map_cons, List.nodup_cons] at hnodup
      exact absurd (hkey ▸ List.mem_map_of_mem (hmem hrest hb)) hnodup.1
    · refine eq_of_filterMap_key hb hb' hkey ?_ hrest hrest'
      rw [List.filterMap_cons] at hnodup
      split at hnodup
      · exact hnodup
      · rw [List.map_cons, List.nodup_cons] at hnodup
        exact hnodup.2

/-! ### Passes -/

/-- A state in which a call of a pass returns, or in which the pass ends. -/
def Pass.Reaches (pass : Pass) (s t : PassState) : Prop :=
  t = (pass.run.runOn s).2 ∨ ∃ v ∈ pass.visits s, t = (v.run pass).2

namespace Pass.Reaches

theorem built (h : pass.Reaches s t) :
    (pass.headed s).Built (pass.builtBy (pass.visits s) t) t := by
  have hj := journey_pass pass s
  rcases h with rfl | ⟨v, hv, rfl⟩
  · rw [hj.builtBy_end (List.prefix_refl _)]
    exact hj.built.1
  · exact hj.built.2 v hv

theorem builtFrom (h : pass.Reaches s t) : pass.BuiltFrom (pass.headed s) (pass.visits s) t := by
  rcases h with rfl | ⟨v, hv, rfl⟩
  · exact (journey_pass pass s).builtFrom.1
  · exact (journey_pass pass s).builtFrom.2 v hv

theorem grows (h : pass.Reaches s t) : (pass.headed s).Grows t ∧ t.Grows (pass.run.runOn s).2 := by
  have hj := journey_pass pass s
  rcases h with rfl | ⟨v, hv, rfl⟩
  · exact ⟨hj.grows.1, .refl _⟩
  · exact ⟨(hj.grows.2 v hv).1.trans (hj.grows_visit hv), (hj.grows.2 v hv).2⟩

/-- The entry that a visit made when it returned is there. -/
theorem entered (h : pass.Reaches s t) {key node : String} (hv : v ∈ pass.visits s)
    (hentry : v.entry? = some (key, node)) (hbuilt : pass.built? v = some r)
    (hreturned : (v.run pass).2.sent <+: t.sent) :
    t.ledger.node? key node = some (.done (.reference r.name)) := by
  have hj := journey_pass pass s
  have hsome : pass.built? v ≠ none := by rw [hbuilt]; exact nofun
  have hgrows : (v.run pass).2.Grows t := by
    rcases h with rfl | ⟨w, hw, rfl⟩
    · exact (hj.grows.2 v hv).2
    · exact hj.returned_grows hv hw hsome hreturned
  refine hgrows.precedes.nodes _ _ _ ?_
  obtain ⟨inner, ws, u, hb, hjv⟩ := hj.call_of_mem hv
  rcases hb.of_built? hjv with ⟨hnone, -⟩ | ⟨r', w, k, n, hsame, hentry', -, -, hrun, -⟩
  · exact absurd hnone hsome
  · cases hsame.symm.trans hbuilt
    cases hentry'.symm.trans hentry
    rw [hrun]
    exact (Ledger.node?_setNode _ _ _ _ _ _).trans (if_pos rfl)

/-- Records of a pass have names of their own at any point of it, if meshes have. -/
theorem names_nodup (h : pass.Reaches s t) (hg : pass.geometry.WritesAtMostOne) :
    ((t.sent.drop s.sent.length).map Record.name).Nodup := by
  obtain ⟨tried, -, hsent, -, hd, -⟩ := named_run hg s
  obtain ⟨later, hlater⟩ := h.grows.2.sent
  obtain ⟨since, hsince⟩ := h.grows.1.sent
  have hstart : (pass.headed s).sent = s.sent := rfl
  rw [hstart] at hsent hsince
  rw [← hlater, ← hsince, List.append_assoc] at hsent
  have htried : since ++ later = tried := List.append_cancel_left hsent
  rw [← hsince, List.drop_left]
  refine hd.nodup.sublist (List.Sublist.map _ ?_)
  rw [← htried]
  exact List.sublist_append_left _ _

end Pass.Reaches

/-- **A compiled node has one record.** Wherever a call of a pass returns, and in the end of the
pass, however it ends:
no two nodes are entered with one value;
the value of a node is the name of a record that the sink took whole, which the visit that built
the node wrote, the only one that built it, and no other record of a node, or of anything if the
geometry exporter keeps to the names it is given, has that name;
a call for a node that is entered, or is being built, does nothing;
a call that builds a node writes one record, when all is written that its calls and the weights
of its layers come to, and enters its name, or it writes none and the node is forgotten;
nothing else is written in a call than by it and its calls, but for meshes;
and as many nodes are compiled as builders have written records for. -/
theorem compiled_once (pass : Pass) (s t : PassState) (ht : pass.Reaches s t) :
    (∀ key node key' node' value, t.ledger.node? key node = some (.done value) →
      t.ledger.node? key' node' = some (.done value) → key = key' ∧ node = node') ∧
    (∀ key node value, t.ledger.node? key node = some (.done value) →
      ∃ r, value = .reference r.name ∧ s.sink.Received t.sink r ∧
        (∃ v ∈ pass.visits s, v.entry? = some (key, node) ∧ pass.built? v = some r ∧
          (v.run pass).2.sent <+: t.sent ∧
          ∀ w ∈ pass.visits s, w.entry? = some (key, node) → pass.built? w ≠ none →
            (w.run pass).2.sent <+: t.sent → w = v) ∧
        (pass.builtBy (pass.visits s) t).filter (·.name = r.name) = [r] ∧
        (pass.geometry.WritesAtMostOne →
          (t.sent.drop s.sent.length).filter (·.name = r.name) = [r])) ∧
    (∀ v ∈ pass.visits s, ∀ tree node useLiterals, v.call = .node tree node useLiterals →
      node.kind.isBuilt = true →
      (∀ progress,
        v.state.ledger.node? (v.state.treeKey tree.name) node.name = some progress →
        pass.built? v = none ∧ (v.run pass).2 = v.state ∧
          ∀ value, progress = .done value → v.depth ≠ 0 → (v.run pass).1 = .ok (some value)) ∧
      (v.state.ledger.node? (v.state.treeKey tree.name) node.name = none →
        pass.Completes v (v.state.treeKey tree.name) node.name (pass.built? v))) ∧
    (∀ v ∈ pass.visits s, pass.Balances (Survives (v.run pass).1) v.state
      (pass.ownRecords v ++ (v.calls pass).flatMap pass.ownRecords) (v.run pass).2) ∧
    t.ledger.compiledNodes = (pass.builtBy (pass.visits s) t).length := by
  have hbuilt := ht.built
  have hfrom : ∀ key node value, t.ledger.node? key node = some (.done value) →
      ∃ v ∈ pass.visits s, ∃ r, v.entry? = some (key, node) ∧ pass.built? v = some r ∧
        value = .reference r.name ∧ (v.run pass).2.sent <+: t.sent := fun key node value hd =>
    (ht.builtFrom key node value hd).resolve_left nofun
  have hreturned : ∀ {v}, v ∈ pass.visits s → (v.run pass).2.sent <+: t.sent →
      v ∈ (pass.visits s).filter fun v => decide ((v.run pass).2.sent <+: t.sent) :=
    fun hv hsent => List.mem_filter.mpr ⟨hv, decide_eq_true hsent⟩
  refine ⟨fun key node key' node' value hd hd' => ?_, fun key node value hd => ?_,
    fun v hv tree node useLiterals hcall hkind => ⟨fun progress hp => ?_, fun hnone => ?_⟩,
    fun v _ => settles pass v, ?_⟩
  · obtain ⟨v, hv, r, hentry, hr, hvalue, hsent⟩ := hfrom key node value hd
    obtain ⟨v', hv', r', hentry', hr', hvalue', hsent'⟩ := hfrom key' node' value hd'
    have hname : r.name = r'.name := Resolved.reference.inj (hvalue.symm.trans hvalue')
    obtain rfl := eq_of_filterMap_key hr hr' hname hbuilt.nodup (hreturned hv hsent)
      (hreturned hv' hsent')
    cases hentry.symm.trans hentry'
    exact ⟨rfl, rfl⟩
  · obtain ⟨v, hv, r, hentry, hr, hvalue, hsent⟩ := hfrom key node value hd
    have hmem : r ∈ pass.builtBy (pass.visits s) t :=
      List.mem_filterMap.mpr ⟨v, hreturned hv hsent, hr⟩
    refine ⟨r, hvalue, (hbuilt.received r hmem).earlier [pass.header],
      ⟨v, hv, hentry, hr, hsent, fun w hw hentry' hne hsent' => ?_⟩,
      filter_key_eq hbuilt.nodup hmem, fun hg => ?_⟩
    · obtain ⟨r', hr'⟩ := Option.ne_none_iff_exists'.mp hne
      have hd' := ht.entered hw hentry' hr' hsent'
      rw [hd, hvalue] at hd'
      have hname : r'.name = r.name :=
        (Resolved.reference.inj (Progress.done.inj (Option.some.inj hd'))).symm
      exact eq_of_filterMap_key hr' hr hname hbuilt.nodup (hreturned hw hsent')
        (hreturned hv hsent)
    · exact filter_key_eq (ht.names_nodup hg) (hbuilt.sent r hmem)
  · refine ⟨built?_of_reached hcall (by rw [hp]; exact nofun), ?_⟩
    obtain ⟨call, depth, state⟩ := v
    obtain rfl : call = .node tree node useLiterals := hcall
    cases depth with
    | zero => exact ⟨rfl, fun _ _ hdepth => absurd rfl hdepth⟩
    | succ depth =>
      have hp : state.ledger.node? (state.treeKey tree.name) node.name = some progress := hp
      obtain ⟨build, hbuild⟩ := exists_once pass hkind depth tree useLiterals
      rw [Visit.run_node, hbuild, once_runOn, hp]
      cases progress with
      | resolving => exact ⟨rfl, nofun⟩
      | done own => exact ⟨rfl, fun value heq _ => by cases heq; rfl⟩
  · exact completes_of_node hcall hkind hnone
  · rw [hbuilt.compiled]
    exact Nat.zero_add _

/-- The tree of a material with one shading model under a weight. -/
def varnishTree : NodeTree :=
  .ofParts "Varnish"
    [{ name := "End", kind := .materialOutput false,
        inputs := [⟨"Material", .input, .material, none, none⟩] },
      { name := "Mix", kind := .layeredBrdf false,
        inputs := [⟨"BRDF 1", .input, .brdf, none, none⟩,
          ⟨"Weight 1", .input, .floatTexture, none, none⟩] },
      { name := "Paint", kind := .plugin .brdf "BRDFDiffuse" }]
    [⟨⟨1⟩, ⟨"Mix", "Out"⟩, ⟨"End", "Material"⟩⟩, ⟨⟨2⟩, ⟨"Paint", "Out"⟩, ⟨"Mix", "BRDF 1"⟩⟩]

/-- The pass over the varnish. -/
def varnishPass : Pass :=
  ⟨⟨(({} : Scene).addTree varnishTree).addMaterial "Varnish" ⟨some "Varnish"⟩, Catalog.builtin, {}⟩,
    { geometry := .bare }, 1⟩

/-- Of the five records of the varnish two are for nodes; the default material and the weight are
not counted. -/
theorem compiled_once_varnish :
    let last := (varnishPass.run.runOn {}).2
    varnishPass.Reaches {} last ∧ varnishPass.geometry.WritesAtMostOne ∧
    last.sent.map (·.plugin) =
      ["BRDFDiffuse", "MtlSingleBRDF", "BRDFDiffuse", "TexAColor", "BRDFLayered"] ∧
    last.ledger.compiledNodes = 2 ∧
    (varnishPass.builtBy (varnishPass.visits {}) last).length = 2 ∧
    ∃ r, r.name = "NTVarnishNMix" ∧ (Sink.records {}).Received last.sink r ∧
      last.sent.filter (·.name = r.name) = [r] := by
  intro last
  have hreaches : varnishPass.Reaches {} last := Or.inl rfl
  have hcompiled : last.ledger.compiledNodes = 2 := by decide +kernel
  have hdone : last.ledger.node? "Varnish" "Mix" = some (.done (.reference "NTVarnishNMix")) := by
    decide +kernel
  obtain ⟨-, hentries, -, -, hcount⟩ := compiled_once varnishPass {} last hreaches
  obtain ⟨r, hvalue, hreceived, -, -, hone⟩ := hentries "Varnish" "Mix" _ hdone
  exact ⟨hreaches, bare_writesAtMostOne, by decide +kernel, hcompiled, hcount ▸ hcompiled, r,
    (Resolved.reference.inj hvalue).symm, hreceived, hone bare_writesAtMostOne⟩

end ShadeNet
