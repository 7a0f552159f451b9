/-
# What the calls of a pass account for

The ledger counts the records that the pass itself writes, and enters a node where its record
is written. The geometry exporter writes behind its back, and a node that is given up on a
cycle leaves the weights of its layers behind. So the books are kept by the calls: a record is
a mesh's, or a single call writes it for itself. Steps one after another add up.

Key definitions: `Writing`, `GeometryExporter.records`, `Pass.Balances`, `Pass.weights`,
`Pass.combined?`, `Pass.plain?`, `Pass.ownRecords`, `Pass.Accounts`.
Key theorems: `Balances.trans`, `balance_claimAndEmit`, `balance_writeGeometry`,
`Accounts.bind`, `Accounts.attempt`, `Accounts.call`.
-/
import ShadeNet.Proofs.PlainObject

namespace ShadeNet

open Compile

variable {α β : Type}

/-! ### What a step writes -/

/-- The records that a step writes, from the state it is run on. -/
abbrev Writing := PassState → List Record

namespace Writing

/-- Nothing is written. -/
def none : Writing := fun _ => []

/-- What two parts of a step write, from the state that the step is run on. -/
def plus (first rest : Writing) : Writing := fun s => first s ++ rest s

/-- What a step writes, and what is written with its result. -/
def bind (c : Compile α) (first : Writing) (rest : α → Writing) : Writing := fun s =>
  first s ++ match c.runOn s with
    | (.ok a, t) => rest a t
    | (.error _, _) => []

/-- What a step writes for each member of a list. -/
def collect (f : α → Compile β) (first : α → Writing) : List α → Writing
  | [] => none
  | a :: rest => bind (f a) (first a) fun _ => collect f first rest

/-- The last record there is behind a step that gives something. -/
def last (c : Compile (Option β)) : Writing := fun s =>
  match c.runOn s with
  | (.ok (some _), t) => t.sent.getLast?.toList
  | _ => []

/-- The record of a step that gives its token, unless the step fails. -/
def named (step : Compile String) (record : String → Record) : Writing :=
  bind step none fun token _ => [record token]

theorem bind_none (c : Compile α) (first : Writing) :
    bind c first (fun _ => .none) = first := by
  funext s
  unfold bind
  rcases c.runOn s with ⟨e | a, t⟩ <;> exact List.append_nil _

theorem collect_none (f : α → Compile β) (l : List α) :
    collect f (fun _ => .none) l = .none := by
  induction l with
  | nil => rfl
  | cons a rest ih =>
    unfold collect
    rw [ih, bind_none]

theorem bind_last (c : Compile α) (first : Writing) (f : α → Compile (Option β)) :
    bind c first (fun a => last (f a)) = plus first (last (c >>= f)) := by
  funext s
  unfold last bind plus
  beta_reduce
  rw [runOn_bind]
  rcases c.runOn s with ⟨e | a, t⟩ <;> rfl

theorem last_of_none {c : Compile (Option β)} {s : PassState}
    (h : ∀ value, (c.runOn s).1 ≠ .ok (some value)) : last c s = [] := by
  unfold last
  split
  · exact absurd (congrArg Prod.fst ‹_›) (h _)
  · rfl

theorem last_bind (c : Compile α) (f : α → Compile (Option β)) :
    last (c >>= f) = bind c none fun a => last (f a) :=
  (bind_last c none f).symm

/-- What is written for a node that is built once. -/
def once (tree : NodeTree) (node : Node) (build : Writing) : Writing := fun s =>
  match s.ledger.node? (s.treeKey tree.name) node.name with
  | some _ => []
  | Option.none => build (s.mark (s.treeKey tree.name) node.name)

theorem once_none (tree : NodeTree) (node : Node) (s : PassState) :
    once tree node none s = [] := by
  unfold once
  split <;> rfl

end Writing

/-- What a geometry exporter writes for requests, one after another, that come after earlier
ones. -/
def GeometryExporter.records (exporter : GeometryExporter) (earlier : List MeshRequest) :
    List MeshRequest → List Record
  | [] => []
  | request :: rest =>
    (exporter.answer earlier request).records ++ exporter.records (earlier ++ [request]) rest

theorem GeometryExporter.records_append (exporter : GeometryExporter)
    (earlier requests more : List MeshRequest) :
    exporter.records earlier (requests ++ more) =
      exporter.records earlier requests ++ exporter.records (earlier ++ requests) more := by
  induction requests generalizing earlier with
  | nil => simp [records]
  | cons request rest ih => simp [records, ih, List.append_assoc]

/-! ### The books of two states -/

/-- Between two states the records listed are written and counted, and those of the meshes
that were handed out are written. If the way is not whole, the meshes may be broken off, and one
record more may be refused. -/
structure Pass.Balance (pass : Pass) (whole : Prop) (s : PassState) (records : List Record)
    (t : PassState) (taken handed refused : List Record) (requests : List MeshRequest) :
    Prop where
  sent : t.sent = s.sent ++ (taken ++ refused)
  meshes : t.meshes = s.meshes ++ requests
  entered : taken.Perm (records ++ handed)
  begun : handed <+: pass.geometry.records s.meshes requests
  counted : t.ledger.records = s.ledger.records + records.length
  received : t.sink.recordCount = s.sink.recordCount + taken.length
  atMostOne : refused.length ≤ 1
  complete : whole → refused = [] ∧ handed = pass.geometry.records s.meshes requests

variable (pass : Pass) in
/-- The books of two states balance if the records listed are entered. -/
def Pass.Balances (whole : Prop) (s : PassState) (records : List Record) (t : PassState) : Prop :=
  ∃ taken handed refused requests, pass.Balance whole s records t taken handed refused requests

section Books

variable {pass : Pass} {s t u : PassState} {records more : List Record} {whole : Prop}

namespace Pass.Balances

/-- A change that touches neither records nor meshes. -/
theorem of_same (hsent : t.sent = s.sent) (hmeshes : t.meshes = s.meshes)
    (hcounted : t.ledger.records = s.ledger.records) (hsink : t.sink = s.sink) :
    pass.Balances whole s [] t :=
  ⟨[], [], [], [], by simpa using hsent, by simpa using hmeshes, .refl _, List.nil_prefix,
    hcounted, by rw [hsink, List.length_nil, Nat.add_zero], Nat.zero_le 1, fun _ => ⟨rfl, rfl⟩⟩

theorem refl (s : PassState) : pass.Balances whole s [] s := .of_same rfl rfl rfl rfl

/-- Whole books balance, and less may be asked for. -/
theorem imp {whole' : Prop} (h : pass.Balances whole s records t) (hw : whole' → whole) :
    pass.Balances whole' s records t := by
  obtain ⟨taken, handed, refused, requests, h⟩ := h
  exact ⟨taken, handed, refused, requests, { h with complete := fun k => h.complete (hw k) }⟩

/-- The way behind a whole one. -/
theorem trans (h : pass.Balances True s records t) (k : pass.Balances whole t more u) :
    pass.Balances whole s (records ++ more) u := by
  obtain ⟨taken, handed, refused, requests, h⟩ := h
  obtain ⟨taken', handed', refused', requests', k⟩ := k
  obtain ⟨rfl, rfl⟩ := h.complete trivial
  have hmeshes : pass.geometry.records s.meshes (requests ++ requests') =
      pass.geometry.records s.meshes requests ++ pass.geometry.records t.meshes requests' := by
    rw [pass.geometry.records_append, h.meshes]
  refine ⟨taken ++ taken', pass.geometry.records s.meshes requests ++ handed', refused',
    requests ++ requests', ?_, ?_, ?_, ?_, ?_, ?_, k.atMostOne, fun hw => ?_⟩
  · rw [k.sent, h.sent, List.append_nil, List.append_assoc, List.append_assoc]
  · rw [k.meshes, h.meshes, List.append_assoc]
  · rw [List.perm_iff_count]
    intro r
    have hr := h.entered.count_eq r
    have hr' := k.entered.count_eq r
    simp only [List.count_append] at hr hr' ⊢
    omega
  · rw [hmeshes]
    exact (List.prefix_append_right_inj _).mpr k.begun
  · rw [k.counted, h.counted, List.length_append, Nat.add_assoc]
  · rw [k.received, h.received, List.length_append, Nat.add_assoc]
  · obtain ⟨hrefused, hhanded⟩ := k.complete hw
    exact ⟨hrefused, by rw [hmeshes, hhanded]⟩

/-- The order in which the records are listed does not matter. -/
theorem perm (h : pass.Balances whole s records t) (hp : records.Perm more) :
    pass.Balances whole s more t := by
  obtain ⟨taken, handed, refused, requests, h⟩ := h
  exact ⟨taken, handed, refused, requests,
    { h with
      entered := h.entered.trans (hp.append_right _)
      counted := hp.length_eq ▸ h.counted }⟩

/-- What comes before the way touches neither records nor meshes. -/
theorem behind (h : pass.Balances whole t records u) (hs : pass.Balances True s [] t) :
    pass.Balances whole s records u := hs.trans h

/-- What comes behind the way touches neither records nor meshes. -/
theorem before (h : pass.Balances whole s records t) (hsent : u.sent = t.sent)
    (hmeshes : u.meshes = t.meshes) (hcounted : u.ledger.records = t.ledger.records)
    (hsink : u.sink = t.sink) : pass.Balances whole s records u := by
  obtain ⟨taken, handed, refused, requests, h⟩ := h
  exact ⟨taken, handed, refused, requests,
    { h with
      sent := hsent.trans h.sent
      meshes := hmeshes.trans h.meshes
      counted := hcounted.trans h.counted
      received := (congrArg Sink.recordCount hsink).trans h.received }⟩

end Pass.Balances

/-- A write that goes through counts if it is a record, and one that does not does not count. -/
theorem recordCount_write (sink : Sink) (e : Entry) :
    (sink.write e).1.recordCount =
      sink.recordCount + if (sink.write e).2 && e.isRecord then 1 else 0 := by
  rcases sink with sink | ⟨text, rest, count, room⟩
  · cases e
    · exact List.length_append
    · rfl
  · cases room with
    | none => rfl
    | some room =>
      by_cases hfits : e.text.utf8ByteSize ≤ room
      · simp only [Sink.write, TextSink.write, if_pos hfits, Bool.true_and]
        rfl
      · simp [Sink.write, TextSink.write, hfits, Sink.recordCount]

/-- A record is written, or it is refused and the step fails. -/
theorem writeRecord_ends (pass : Pass) (r : Record) (s : PassState) :
    ((pass.writeRecord r).runOn s = (.ok (), s.receive r) ∧
      (s.receive r).sink.recordCount = s.sink.recordCount + 1) ∨
    ∃ sink, sink.recordCount = s.sink.recordCount ∧ (pass.writeRecord r).runOn s =
      (.error .sinkFull, { s with sent := s.sent ++ [r], sink := sink }) := by
  have hcount := recordCount_write s.sink (.record r)
  rw [writeRecord_runOn]
  split
  · exact Or.inr ⟨s.sink, rfl, rfl⟩
  · split
    · rename_i hwhole
      rw [hwhole] at hcount
      exact Or.inl ⟨rfl, hcount⟩
    · rename_i hcut
      rw [Bool.not_eq_true] at hcut
      rw [hcut] at hcount
      exact Or.inr ⟨_, hcount, rfl⟩

/-- A record that is refused is the only one, and is not taken. -/
theorem balances_refused {r : Record} {sink : Sink}
    (hsink : sink.recordCount = s.sink.recordCount) :
    pass.Balances False s [] { s with sent := s.sent ++ [r], sink := sink } :=
  ⟨[], [], [r], [], rfl, (List.append_nil _).symm, .refl _, List.nil_prefix, rfl, hsink,
    Nat.le_refl 1, False.elim⟩

/-- A record that is emitted is counted. -/
theorem balance_emit {r : Record} {token : String} (h : (pass.emit r).runOn s = (.ok token, t)) :
    pass.Balances True s [r] t := by
  rcases writeRecord_ends pass r s with ⟨hw, hcount⟩ | ⟨sink, -, hw⟩
  · rw [emit_runOn_ok hw] at h
    cases h
    exact ⟨[r], [], [], [], rfl, (List.append_nil _).symm, .refl _, List.nil_prefix, rfl, hcount,
      Nat.zero_le 1, fun _ => ⟨rfl, rfl⟩⟩
  · rw [emit_runOn_error hw] at h
    cases h

/-- A record that is not emitted is refused. -/
theorem balance_emit_error {r : Record} {e : Failure} (h : (pass.emit r).runOn s = (.error e, t)) :
    pass.Balances False s [] t := by
  rcases writeRecord_ends pass r s with ⟨hw, -⟩ | ⟨sink, hsink, hw⟩
  · rw [emit_runOn_ok hw] at h
    cases h
  · rw [emit_runOn_error hw] at h
    cases h
    exact balances_refused hsink

/-- A record that gets a name of its own is counted. -/
theorem balance_claimAndEmit {base : String} {reports : List LogLine} {record : String → Record}
    (hn : ∀ name, (record name).name = name) {token : String}
    (h : (pass.claimAndEmit base reports record).runOn s = (.ok token, t)) :
    pass.Balances True s [record token] t := by
  rw [claimAndEmit_runOn] at h
  have htoken : token = freeName s.ledger.names base := by rw [emit_token h, hn]
  rw [← htoken] at h
  exact (balance_emit h).behind (.of_same rfl rfl rfl rfl)

theorem balance_claimAndEmit_error {base : String} {reports : List LogLine}
    {record : String → Record} {e : Failure}
    (h : (pass.claimAndEmit base reports record).runOn s = (.error e, t)) :
    pass.Balances False s [] t := by
  rw [claimAndEmit_runOn] at h
  exact (balance_emit_error h).behind (.of_same rfl rfl rfl rfl)

/-- What the exporter writes is written behind the back of the ledger, up to what is refused. -/
theorem sent_writeOut (entries : List Entry) (s : PassState) :
    let o := (entries.forM pass.writeOut).runOn s
    ∃ taken refused, o.2.sent = s.sent ++ (taken ++ refused) ∧ taken <+: recordsOf entries ∧
      o.2.meshes = s.meshes ∧ o.2.ledger = s.ledger ∧
      o.2.sink.recordCount = s.sink.recordCount + taken.length ∧ refused.length ≤ 1 ∧
      (o.1 = .ok () → refused = [] ∧ taken = recordsOf entries) := by
  induction entries generalizing s with
  | nil => exact ⟨[], [], (List.append_nil _).symm, List.prefix_refl _, rfl, rfl, rfl,
      Nat.zero_le 1, fun _ => ⟨rfl, rfl⟩⟩
  | cons e rest ih =>
    intro o
    have ho : o = (pass.writeOut e >>= fun _ => rest.forM pass.writeOut).runOn s := rfl
    clear_value o
    cases e with
    | remark text =>
      have hcount := recordCount_write s.sink (.remark text)
      rw [Bool.and_comm] at hcount
      have hcomment : (s.comment text).sink.recordCount = s.sink.recordCount := hcount
      rw [runOn_bind, Pass.writeOut_remark, writeRemark_runOn] at ho
      by_cases hw : (s.sink.write (.remark text)).2 = true
      · rw [if_pos hw] at ho
        subst ho
        obtain ⟨taken, refused, hsent, htaken, hmeshes, hledger, hreceived, hrest⟩ :=
          ih (s.comment text)
        exact ⟨taken, refused, hsent, htaken, hmeshes, hledger, hcomment ▸ hreceived, hrest⟩
      · rw [if_neg hw] at ho
        subst ho
        exact ⟨[], [], (List.append_nil _).symm, List.nil_prefix, rfl, rfl, hcomment,
          Nat.zero_le 1, nofun⟩
    | record r =>
      rw [runOn_bind, Pass.writeOut_record] at ho
      rcases writeRecord_ends pass r s with ⟨hw, hcount⟩ | ⟨sink, hsink, hw⟩ <;>
        rw [hw] at ho <;> subst ho
      · obtain ⟨taken, refused, hsent, htaken, hmeshes, hledger, hreceived, hrefused, hok⟩ :=
          ih (s.receive r)
        refine ⟨r :: taken, refused, hsent.trans (List.append_assoc _ [r] _),
          (List.prefix_cons_inj r).mpr htaken, hmeshes, hledger, ?_, hrefused, fun h => ?_⟩
        · rw [hreceived, hcount, List.length_cons]
          omega
        · exact ⟨(hok h).1, congrArg (r :: ·) (hok h).2⟩
      · exact ⟨[], [r], rfl, List.nil_prefix, rfl, rfl, hsink, Nat.le_refl 1, nofun⟩

/-- The records of a mesh are not counted. -/
theorem balance_writeGeometry {value : Option Resolved}
    (h : pass.writeGeometry.runOn s = (.ok value, t)) : pass.Balances True s [] t := by
  rcases writeGeometry_ok h with
    ⟨-, line, rfl⟩ | ⟨scope, mesh, -, -, -, ⟨-, rfl⟩ | ⟨answer, rfl, -, hrun⟩⟩
  · exact .of_same rfl rfl rfl rfl
  · exact .refl t
  · obtain ⟨taken, refused, hsent, -, hmeshes, hledger, hreceived, hrefused, hok⟩ :=
      @sent_writeOut pass _ (s.handOut ⟨scope.name, mesh, meshName mesh⟩)
    rw [hrun] at hsent hmeshes hledger hreceived hok
    obtain ⟨rfl, rfl⟩ := hok rfl
    have hanswer : recordsOf
        (pass.geometry.answer s.meshes ⟨scope.name, mesh, meshName mesh⟩).entries =
        pass.geometry.records s.meshes [⟨scope.name, mesh, meshName mesh⟩] :=
      (List.append_nil _).symm
    rw [hanswer] at hsent hreceived
    refine ⟨_, _, [], [⟨scope.name, mesh, meshName mesh⟩], hsent, hmeshes, .refl _,
      List.prefix_refl _, ?_, hreceived, Nat.zero_le 1, fun _ => ⟨rfl, rfl⟩⟩
    rw [hledger]
    rfl

/-- A mesh may be broken off. -/
theorem balances_writeGeometry (s : PassState) :
    pass.Balances False s [] (pass.writeGeometry.runOn s).2 := by
  refine writeGeometry_state (.refl s) (.of_same rfl rfl rfl rfl)
    (fun _ => .of_same rfl rfl rfl rfl) fun scope mesh _ _ _ => ?_
  obtain ⟨taken, refused, hsent, htaken, hmeshes, hledger, hreceived, hrefused, -⟩ :=
    @sent_writeOut pass (pass.geometry.answer s.meshes ⟨scope.name, mesh, meshName mesh⟩).entries
      (s.handOut ⟨scope.name, mesh, meshName mesh⟩)
  refine ⟨taken, taken, refused, [⟨scope.name, mesh, meshName mesh⟩], hsent, hmeshes, .refl _,
    htaken.trans (List.prefix_append _ []), ?_, hreceived, hrefused, False.elim⟩
  rw [hledger]
  rfl

end Books

/-! ### Kinds of records -/

section Kinds

variable {pass : Pass} {P : Record → Prop}

/-- Whatever is written is of this kind. -/
def Writing.All (P : Record → Prop) (x : Writing) : Prop := ∀ s, ∀ r ∈ x s, P r

namespace Writing.All

theorem none : All P .none := nofun

theorem bind {c : Compile α} {first : Writing} {rest : α → Writing} (h : All P first)
    (hrest : ∀ a, All P (rest a)) : All P (.bind c first rest) := by
  intro s r hr
  unfold Writing.bind at hr
  rcases hc : c.runOn s with ⟨e | a, t⟩ <;> rw [hc] at hr
  · exact h s r (by simpa using hr)
  · exact (List.mem_append.mp hr).elim (h s r) (hrest a t r)

theorem collect {f : α → Compile β} {first : α → Writing} {l : List α}
    (h : ∀ a, All P (first a)) : All P (.collect f first l) := by
  induction l with
  | nil => exact none
  | cons a rest ih => exact (h a).bind fun _ => ih

theorem once {tree : NodeTree} {node : Node} {x : Writing} (h : All P x) :
    All P (.once tree node x) := by
  intro s r hr
  unfold Writing.once at hr
  cases hnode : s.ledger.node? (s.treeKey tree.name) node.name with
  | some progress =>
    rw [hnode] at hr
    cases hr
  | none =>
    rw [hnode] at hr
    exact h _ r hr

theorem claimAndEmit {base : String} {reports : List LogLine} {record : String → Record}
    (hn : ∀ name, (record name).name = name) (g : String → β) (h : ∀ name, P (record name)) :
    All P (.last (pass.claimAndEmit base reports record >>= fun token =>
      pure (some (g token)))) := by
  intro s r hr
  unfold Writing.last at hr
  rw [runOn_bind] at hr
  rcases hrun : (pass.claimAndEmit base reports record).runOn s with ⟨e | token, t⟩ <;>
    rw [hrun] at hr
  · cases hr
  · obtain ⟨q, rfl, -, hwrites⟩ := claimAndEmit_writes hn hrun
    have hlast : t.sent.getLast? = some (record token) := by
      rw [hwrites.sent, List.getLast?_concat]
    simp only [runOn_pure, hlast, Option.toList_some, List.mem_singleton] at hr
    exact hr ▸ h token

end Writing.All

end Kinds

/-! ### Records of calls -/

namespace Pass

variable (pass : Pass)

/-- The weight that a layer of a shading model writes: the layer has a model, and nothing is
linked to its weight. -/
def writtenWeight (compile : NodeCompiler) (tree : NodeTree) (node : Node) (layer : Nat) :
    Writing :=
  match node.input? ("BRDF " ++ toString layer) with
  | none => .none
  | some socket =>
    if tree.isLinked ⟨node.name, socket.name⟩ then
      .bind (resolveSocket compile tree node socket true) .none fun value =>
        match value.bind (·.token?) with
        | none => .none
        | some brdf =>
          .bind (linkedWeight compile tree node ("Weight " ++ toString layer)) .none fun weight =>
            match weight with
            | some _ => .none
            | none =>
              let weight := layerWeight (node.input? ("Weight " ++ toString layer))
              .named (pass.writeWeight (nodeName tree.name node.name) brdf layer weight)
                fun token => pass.weightRecord token weight
    else .none

/-- The weights that the build of a node writes, whether or not anything comes of the build:
those of the layers of a layered shading model. -/
def nodeWeights (compile : NodeCompiler) (tree : NodeTree) (node : Node) : Writing :=
  match node.kind with
  | .layeredBrdf _ => .collect (pass.brdfLayer compile tree node)
      (pass.writtenWeight compile tree node) (List.range' 1 (node.inputs.length / 2))
  | _ => .none

/-- The weights that a call writes, which builds a node. -/
def weights (v : Visit) : List Record :=
  match v.call, v.depth with
  | .node tree node _, depth + 1 =>
    Writing.once tree node (pass.nodeWeights (pass.walk depth) tree node) v.state
  | _, _ => []

/-- The record that a call writes for the materials of the object in scope, if there are
several. -/
def combined? (v : Visit) : Option Record :=
  v.state.scope.bind fun scope => pass.gathered? scope.name v

/-- The record that a call writes for an object without a tree. -/
def plain? (v : Visit) : Option Record :=
  match v.call with
  | .object name =>
    if (pass.scene.object? name).any (·.tree.isNone) then pass.plainRecord? name v else none
  | _ => none

/-- The records that a call writes itself, and not by the calls that it makes. -/
def ownRecords (v : Visit) : List Record :=
  pass.weights v ++ (pass.built? v).toList ++ (pass.combined? v).toList ++ (pass.plain? v).toList

end Pass

section Records

variable {pass : Pass} {v : Visit} {r : Record} {depth : Nat} {tree : NodeTree} {node : Node}

theorem combined?_of_call (h : v.call ≠ .ownMaterial) :
    pass.combined? v = none := by
  unfold Pass.combined?
  cases v.state.scope with
  | none => rfl
  | some scope => exact gathered?_of_call h scope.name

variable (pass depth) in
/-- The materials of an object, one after another, and the record of them. -/
theorem combined?_gathered {scope : ObjectScope} {object : SceneObject} {s : PassState}
    (hscope : s.scope = some scope) (ho : pass.scene.object? scope.name = some object)
    (hnone : s.ledger.synthesized? (multiMaterialName scope.name) = none) :
    (pass.combined? ⟨.ownMaterial, depth, s⟩).toList =
      Writing.bind (collect (pass.slotMaterial (pass.walk depth)) object.slots) .none
        (fun materials => .bind (pass.combineMaterials (multiMaterialName scope.name) materials)
          .none fun token _ =>
            if 2 ≤ materials.length then [Pass.multiMaterialRecord token materials] else []) s := by
  have hrun := Visit.run_ownMaterial pass depth s
  unfold Pass.writeObjectMaterial at hrun
  rw [runOn_bind_ok (runOn_get s)] at hrun
  simp only [hscope, ho, hnone] at hrun
  unfold Pass.combined? Pass.gathered?
  simp only [hscope, ho, hnone, Option.bind_some, hrun, true_and]
  unfold Writing.bind Writing.none
  rw [runOn_bind]
  rcases (collect (pass.slotMaterial (pass.walk depth)) object.slots).runOn s with
    ⟨e | materials, u⟩
  · rfl
  · simp only
    rw [runOn_bind]
    rcases (pass.combineMaterials (multiMaterialName scope.name) materials).runOn u with
      ⟨e | token, w⟩
    · rfl
    · have hlast : ((do
          modifyLedger (·.setSynthesized (multiMaterialName scope.name) token)
          return token : Compile String).runOn w).1 = .ok token := rfl
      simp only [hlast, Except.map]
      split <;> rfl

variable (pass depth) in
theorem plain?_object (name : String) (s : PassState) :
    pass.plain? ⟨.object name, depth, s⟩ =
      if (pass.scene.object? name).any (·.tree.isNone) then
        pass.plainRecord? name ⟨.object name, depth, s⟩
      else none := rfl

variable (pass depth) in
/-- An object that is in the ledger has its record. -/
theorem plain?_of_reached {name : String} {s : PassState} (h : s.ledger.object? name ≠ none) :
    pass.plain? ⟨.object name, depth, s⟩ = none := by
  have hnone : pass.plainRecord? name ⟨.object name, depth, s⟩ = none := by
    unfold Pass.plainRecord?
    split
    · exact absurd ‹_› h
    · rfl
  rw [plain?_object, hnone, ite_self]

variable (pass depth) in
theorem plain?_of_tree {name : String} {s : PassState}
    (h : ∀ object, pass.scene.object? name = some object → object.tree ≠ none) :
    pass.plain? ⟨.object name, depth, s⟩ = none := by
  have htree : (pass.scene.object? name).any (·.tree.isNone) = false := by
    cases ho : pass.scene.object? name with
    | none => rfl
    | some object =>
      exact Option.isNone_eq_false_iff.mpr (Option.isSome_iff_ne_none.mpr (h object ho))
  exact if_neg (by simp [htree])

theorem plain?_of_run {name : String} {s : PassState}
    (h : (Visit.run pass ⟨.object name, depth, s⟩).1 = .ok none) :
    pass.plain? ⟨.object name, depth, s⟩ = none := by
  have hnone : pass.plainRecord? name ⟨.object name, depth, s⟩ = none := by
    unfold Pass.plainRecord?
    rw [h]
    split
    · cases ‹Except.ok none = _›
    · rfl
  rw [plain?_object, hnone, ite_self]

variable (pass depth) in
/-- The record of an object without a tree is the last one that its build writes. -/
theorem plain?_opened {name : String} {object : SceneObject} {s : PassState}
    (hnone : s.ledger.object? name = none) (ho : pass.scene.object? name = some object)
    (hvisible : object.visible = true) (htree : object.tree = none) :
    (pass.plain? ⟨.object name, depth, s⟩).toList =
      Writing.last (pass.buildObject (pass.walk depth) name object) (s.enter name object) := by
  have hrun := Visit.run_object pass name depth s
  rw [writeObject_runOn] at hrun
  simp only [hnone, ho, hvisible, if_true] at hrun
  have htrue : (pass.scene.object? name).any (·.tree.isNone) = true := by
    rw [ho]
    exact Option.isNone_iff_eq_none.mpr htree
  rw [plain?_object, if_pos htrue]
  unfold Pass.plainRecord? Writing.last
  simp only [hnone, hrun]
  rcases (pass.buildObject (pass.walk depth) name object).runOn (s.enter name object) with
    ⟨e | _ | token, t⟩
  · rfl
  · rfl
  · exact congrArg Option.toList (if_pos rfl)

/-! ### What a call accounts for -/

/-- A call of a node that is built once accounts for its weights and its record. -/
theorem ownRecords_once {build : Compile (Option Resolved)} {x : Writing} {useLiterals : Bool}
    {s : PassState}
    (hwalk : pass.walk (depth + 1) tree node useLiterals = once tree node build)
    (hkind : node.kind.isBuilt = true)
    (hweights : pass.nodeWeights (pass.walk depth) tree node = x) :
    pass.ownRecords ⟨.node tree node useLiterals, depth + 1, s⟩ =
      Writing.once tree node (.plus x (.last build)) s := by
  subst hweights
  set v : Visit := ⟨.node tree node useLiterals, depth + 1, s⟩ with hv
  have hrun : v.run pass = (once tree node build).runOn s := by rw [← hwalk]; rfl
  have hcombined : pass.combined? v = none := combined?_of_call (by simp [hv])
  have hplain : pass.plain? v = none := rfl
  have hweights : pass.weights v =
    Writing.once tree node (pass.nodeWeights (pass.walk depth) tree node) s := rfl
  unfold Pass.ownRecords
  rw [hcombined, hplain, hweights]
  unfold Writing.once
  cases hnode : s.ledger.node? (s.treeKey tree.name) node.name with
  | some progress =>
    rw [built?_of_reached (v := v) rfl (by rw [hv, hnode]; exact nofun)]
    rfl
  | none =>
    have hopen : (node.kind.isBuilt &&
        decide (s.ledger.node? (s.treeKey tree.name) node.name = none)) = true := by
      simp [hkind, hnode]
    have hbuilt : pass.built? v = _ := if_pos hopen
    rw [hbuilt, hrun, once_runOn]
    simp only [hnode, Writing.plus, Writing.last]
    generalize build.runOn _ = o
    rcases o with ⟨e | _ | value, t⟩ <;> simp [onceEnd, PassState.finish]

/-- A node without a record of its own writes nothing but by its calls. -/
theorem ownRecords_unbuilt {useLiterals : Bool} {s : PassState} (h : node.kind.isBuilt = false) :
    pass.ownRecords ⟨.node tree node useLiterals, depth, s⟩ = [] := by
  have hweights : pass.weights ⟨.node tree node useLiterals, depth, s⟩ = [] := by
    cases depth with
    | zero => rfl
    | succ depth =>
      show Writing.once tree node (pass.nodeWeights (pass.walk depth) tree node) s = []
      have hnone : pass.nodeWeights (pass.walk depth) tree node = .none := by
        unfold Pass.nodeWeights
        split
        · rename_i hkind
          rw [hkind] at h
          cases h
        · rfl
      rw [hnone, Writing.once_none]
  have hplain : pass.plain? ⟨.node tree node useLiterals, depth, s⟩ = none := rfl
  unfold Pass.ownRecords
  rw [hweights, hplain, combined?_of_call (by simp), built?_of_call (by simp [h])]
  rfl

/-- A walk that has come to its bound writes nothing. -/
theorem ownRecords_zero {useLiterals : Bool} {s : PassState} :
    pass.ownRecords ⟨.node tree node useLiterals, 0, s⟩ = [] := by
  have hbuilt : pass.built? ⟨.node tree node useLiterals, 0, s⟩ = none := built?_of_run nofun
  unfold Pass.ownRecords
  rw [hbuilt, combined?_of_call (by simp)]
  rfl

theorem ownRecords_material (tree : NodeTree) (depth : Nat) (s : PassState) :
    pass.ownRecords ⟨.material tree, depth, s⟩ = [] := by
  unfold Pass.ownRecords
  rw [combined?_of_call (by simp)]
  rfl

/-- The call for the material of the object in scope accounts for the record that gathers. -/
theorem ownRecords_ownMaterial (depth : Nat) (s : PassState) :
    pass.ownRecords ⟨.ownMaterial, depth, s⟩ =
      (pass.combined? ⟨.ownMaterial, depth, s⟩).toList := by
  have hbuilt : pass.built? ⟨.ownMaterial, depth, s⟩ = none := rfl
  have hplain : pass.plain? ⟨.ownMaterial, depth, s⟩ = none := rfl
  have hweights : pass.weights ⟨.ownMaterial, depth, s⟩ = [] := rfl
  unfold Pass.ownRecords
  rw [hbuilt, hplain, hweights]
  simp

/-- The call of an object accounts for its record if it has no tree. -/
theorem ownRecords_object (name : String) (depth : Nat) (s : PassState) :
    pass.ownRecords ⟨.object name, depth, s⟩ = (pass.plain? ⟨.object name, depth, s⟩).toList := by
  have hbuilt : pass.built? ⟨.object name, depth, s⟩ = none := rfl
  have hweights : pass.weights ⟨.object name, depth, s⟩ = [] := rfl
  unfold Pass.ownRecords
  rw [hbuilt, hweights, combined?_of_call (by simp)]
  simp

/-! ### What the records are -/

/-- The weight of a layer is a constant texture. -/
theorem all_writtenWeight (compile : NodeCompiler) (tree : NodeTree) (node : Node) (layer : Nat) :
    Writing.All (fun r => ∃ weight, r = pass.weightRecord r.name weight)
      (pass.writtenWeight compile tree node layer) := by
  unfold Pass.writtenWeight
  cases node.input? ("BRDF " ++ toString layer) with
  | none => exact .none
  | some socket =>
    simp only
    split
    · refine .bind .none fun value => ?_
      cases value.bind (·.token?) with
      | none => exact .none
      | some brdf =>
        refine .bind .none fun weight => ?_
        cases weight with
        | some weight => exact .none
        | none =>
          refine .bind .none fun token s r hr => ?_
          obtain rfl := List.mem_singleton.mp hr
          exact ⟨_, rfl⟩
    · exact .none

/-- The weights of a call are constant textures. -/
theorem of_weights (h : r ∈ pass.weights v) : ∃ weight, r = pass.weightRecord r.name weight := by
  have hnode : ∀ compile tree node, Writing.All
      (fun r => ∃ weight, r = pass.weightRecord r.name weight)
      (pass.nodeWeights compile tree node) := by
    intro compile tree node
    unfold Pass.nodeWeights
    split
    · exact .collect fun layer => all_writtenWeight compile tree node layer
    · exact .none
  unfold Pass.weights at h
  split at h
  · exact (hnode _ _ _).once _ r h
  · cases h

/-- What a call writes for several materials gathers them. -/
theorem of_combined? (h : pass.combined? v = some r) :
    ∃ materials, 2 ≤ materials.length ∧ r = Pass.multiMaterialRecord r.name materials := by
  obtain ⟨scope, -, hg⟩ := Option.bind_eq_some_iff.mp h
  obtain ⟨_, _, materials, token, -, -, -, -, -, hseveral, -, -, rfl⟩ := of_gathered? hg
  exact ⟨materials, hseveral, rfl⟩

/-- What the build of an object without a tree writes last is a node. -/
theorem all_buildObject {compile : NodeCompiler} {name : String} {object : SceneObject}
    (htree : object.tree = none) :
    Writing.All (fun r => ∃ desc supplied, pass.catalog.get? "Node" = some desc ∧
        r = pass.pluginRecord desc r.name ∅ supplied)
      (.last (pass.buildObject compile name object)) := by
  unfold Pass.buildObject
  simp only [htree]
  unfold Pass.writePlainObject
  cases pass.catalog.get? "Node" with
  | none => exact fun _ _ hr => nomatch hr
  | some desc =>
    simp only
    rw [Writing.last_bind]
    refine .bind .none fun geometry => ?_
    cases geometry with
    | none => exact fun _ _ hr => nomatch hr
    | some geometry =>
      simp only
      rw [Writing.last_bind]
      refine .bind .none fun material => ?_
      simp only [← bind_assoc, Contract.claimAndEmit_plugin]
      exact .claimAndEmit (fun _ => rfl) id fun _ => ⟨desc, _, rfl, rfl⟩

/-- What a call writes for an object without a tree is a node. -/
theorem of_plain? (h : pass.plain? v = some r) :
    ∃ desc supplied, pass.catalog.get? "Node" = some desc ∧
      r = pass.pluginRecord desc r.name ∅ supplied := by
  obtain ⟨call, depth, s⟩ := v
  cases call with
  | node | material | ownMaterial => cases h
  | object name =>
    have hnone : s.ledger.object? name = none := by
      by_contra hl
      rw [plain?_of_reached pass depth hl] at h
      cases h
    obtain ⟨object, ho, htree⟩ : ∃ object, pass.scene.object? name = some object ∧
        object.tree = none := by
      by_contra hnot
      push Not at hnot
      rw [plain?_of_tree pass depth hnot] at h
      cases h
    have hvisible : object.visible = true := by
      by_contra hhidden
      have hrun := congrArg Prod.fst (Visit.run_object pass name depth s)
      rw [writeObject_runOn] at hrun
      simp only [hnone, ho, if_neg hhidden] at hrun
      rw [plain?_of_run hrun] at h
      cases h
    have hlast := plain?_opened pass depth hnone ho hvisible htree
    rw [h, Option.toList_some] at hlast
    exact all_buildObject htree _ r (by rw [← hlast]; exact List.mem_singleton_self r)

variable (pass) in
/-- What calls account for, kind by kind. -/
theorem ownRecords_perm (vs : List Visit) : (vs.flatMap pass.ownRecords).Perm
    (vs.filterMap pass.built? ++ vs.flatMap pass.weights ++ vs.filterMap pass.combined? ++
      vs.filterMap pass.plain?) := by
  refine List.perm_iff_count.mpr fun r => ?_
  simp only [List.filterMap_eq_flatMap_toList]
  induction vs with
  | nil => rfl
  | cons v rest ih =>
    simp only [List.flatMap_cons, List.count_append, Pass.ownRecords] at ih ⊢
    omega

end Records

/-! ### Steps with accounts -/

/-- Whether a pass can go on after this: failures end it, but for cycles. -/
def Survives (r : Except Failure α) : Prop := ∀ e, r = .error e → e.isCycle = true

theorem survives_ok (a : α) : Survives (.ok a : Except Failure α) := nofun

theorem survives_error {e : Failure} :
    Survives (.error e : Except Failure α) ↔ e.isCycle = true :=
  ⟨fun h => h e rfl, fun h _ he => (by cases he; exact h)⟩

section Steps

variable {pass : Pass} {first : Trace} {x : Writing}

variable (pass) in
/-- A step has written what its visits account for, and something more. If it ends well or with
a cycle, that is all; otherwise a mesh may be broken off, and a record may be refused. -/
def Pass.Accounts (trace : Trace) (more : Writing) (step : Compile α) : Prop :=
  ∀ s, pass.Balances (Survives (step.runOn s).1) s ((trace s).flatMap pass.ownRecords ++ more s)
    (step.runOn s).2

variable (pass) in
/-- A build accounts for what it writes on the way and for its record, which is the last thing
that is written, or nothing comes of it. -/
structure Pass.Builds (trace : Trace) (more : Writing) (build : Compile (Option Resolved)) :
    Prop where
  accounts : pass.Accounts trace (.plus more (.last build)) build
  ends : ∀ s, (∃ u r w, pass.Balances True s ((trace s).flatMap pass.ownRecords ++ more s) u ∧
      u.Writes r w ∧ build.runOn s = (.ok (some (.reference r.name)), w)) ∨
    (∀ value, (build.runOn s).1 ≠ .ok (some value)) ∧
      pass.Balances (Survives (build.runOn s).1) s
        ((trace s).flatMap pass.ownRecords ++ more s) (build.runOn s).2

variable (pass) in
/-- The end of a build calls nothing, and writes the record or nothing. -/
structure Pass.Closes (step : Compile (Option Resolved)) : Prop where
  accounts : pass.Accounts .none (.last step) step
  concludes : Concludes step

namespace Pass.Accounts

variable {step : Compile α}

/-- The books of a step that ends well. -/
theorem of_ok {s t : PassState} {a : α} (h : pass.Accounts first x step)
    (hrun : step.runOn s = (.ok a, t)) :
    pass.Balances True s ((first s).flatMap pass.ownRecords ++ x s) t := by
  have hs := h s
  rw [hrun] at hs
  exact hs.imp fun _ => survives_ok a

theorem bind {f : α → Compile β} {rest : α → Trace} {y : α → Writing}
    (hc : pass.Accounts first x step) (hf : ∀ a, pass.Accounts (rest a) (y a) (f a)) :
    pass.Accounts (.bind step first rest) (.bind step x y) (step >>= f) := by
  intro s
  unfold Trace.bind Writing.bind
  rcases hrun : step.runOn s with ⟨e | a, t⟩
  · have h := hc s
    rw [hrun] at h
    rw [runOn_bind_error hrun]
    simpa using h.imp fun hs => survives_error.mpr (survives_error.mp hs)
  · rw [runOn_bind_ok hrun]
    refine ((hc.of_ok hrun).trans (hf a t)).perm (List.perm_iff_count.mpr fun r => ?_)
    simp only [List.flatMap_append, List.count_append]
    omega

/-- A step before one that writes nothing but by its calls. -/
theorem next {f : α → Compile β} {rest : α → Trace} (hc : pass.Accounts first x step)
    (hf : ∀ a, pass.Accounts (rest a) .none (f a)) :
    pass.Accounts (.bind step first rest) x (step >>= f) := by
  have h := hc.bind hf
  rwa [Writing.bind_none] at h

/-- A step with calls before one that calls nothing. -/
theorem followed {f : α → Compile β} {y : α → Writing} (hc : pass.Accounts first x step)
    (hf : ∀ a, pass.Accounts .none (y a) (f a)) :
    pass.Accounts first (.bind step x y) (step >>= f) := by
  have h := hc.bind hf
  rwa [Trace.bind_none] at h

/-- A step with calls before one that neither calls nor writes. -/
theorem before {f : α → Compile β} (hc : pass.Accounts first x step)
    (hf : ∀ a, pass.Accounts .none .none (f a)) : pass.Accounts first x (step >>= f) := by
  have h := hc.followed hf
  rwa [Writing.bind_none] at h

/-- A step before one that calls nothing and gives its record. -/
theorem behind {f : α → Compile (Option β)} (hc : pass.Accounts first x step)
    (hf : ∀ a, pass.Accounts .none (.last (f a)) (f a)) :
    pass.Accounts first (.plus x (.last (step >>= f))) (step >>= f) := by
  have h := hc.followed hf
  rwa [Writing.bind_last] at h

/-- A step that calls nodes before the end of the build. -/
theorem builds {f : α → Compile (Option Resolved)} (hc : pass.Accounts first x step)
    (hf : ∀ a, pass.Closes (f a)) : pass.Builds first x (step >>= f) := by
  refine ⟨hc.behind fun a => (hf a).accounts, fun s => ?_⟩
  rcases hstep : step.runOn s with ⟨e | a, t⟩
  · have h := hc s
    rw [hstep] at h
    rw [runOn_bind_error hstep]
    exact Or.inr ⟨nofun, h.imp fun hs => survives_error.mpr (survives_error.mp hs)⟩
  · rw [runOn_bind_ok hstep]
    rcases (hf a).concludes t with ⟨r, w, hw, hrun⟩ | ⟨hnone, -⟩
    · exact Or.inl ⟨t, r, w, hc.of_ok hstep, hw, hrun⟩
    · refine Or.inr ⟨hnone, ?_⟩
      have h := (hc.of_ok hstep).trans ((hf a).accounts t)
      rw [Writing.last_of_none hnone] at h
      simpa [Trace.none] using h

theorem attempt {g : Except Failure α → Compile β} (hc : pass.Accounts first x step)
    (hg : ∀ r, pass.Accounts .none .none (g r))
    (hrest : ∀ f, f.isCycle = false → g (.error f) = throw f) :
    pass.Accounts first x (ShadeNet.attempt step >>= g) := by
  intro s
  have hrun : (ShadeNet.attempt step >>= g).runOn s =
      (g (step.runOn s).1).runOn (step.runOn s).2 := runOn_bind_ok (runOn_attempt step s) g
  rw [hrun]
  have h := hc s
  generalize step.runOn s = o at h ⊢
  obtain ⟨r, t⟩ := o
  by_cases hs : Survives r
  · simpa [Trace.none, Writing.none] using (h.imp fun _ => hs).trans (hg r t)
  · obtain ⟨e, rfl, hcycle⟩ : ∃ e, r = .error e ∧ e.isCycle = false := by
      simpa [Survives] using hs
    rw [hrest e hcycle]
    exact h.imp fun hs' => survives_error.mpr (survives_error.mp hs')

theorem collect {f : α → Compile (Option β)} {first : α → Trace} {x : α → Writing} {l : List α}
    (h : ∀ a ∈ l, pass.Accounts (first a) (x a) (f a)) :
    pass.Accounts (.collect f first l) (.collect f x l) (ShadeNet.collect f l) := by
  induction l with
  | nil => exact fun s => .refl s
  | cons a rest ih =>
    have hrest := ih fun b hb => h b (List.mem_cons_of_mem a hb)
    exact (h a List.mem_cons_self).bind fun _ => hrest.before fun _ s => .refl s

/-- Steps that write nothing themselves. -/
theorem collect_plain {f : α → Compile (Option β)} {first : α → Trace} {l : List α}
    (h : ∀ a ∈ l, pass.Accounts (first a) .none (f a)) :
    pass.Accounts (.collect f first l) .none (ShadeNet.collect f l) := by
  have hall := collect h
  rwa [Writing.collect_none] at hall

theorem forM {f : α → Compile Unit} {first : α → Trace} {l : List α}
    (h : ∀ a ∈ l, pass.Accounts (first a) .none (f a)) :
    pass.Accounts (.collect f first l) .none (l.forM f) := by
  induction l with
  | nil => exact fun s => .refl s
  | cons a rest ih =>
    exact (h a List.mem_cons_self).next fun _ => ih fun b hb => h b (List.mem_cons_of_mem a hb)

/-- A call accounts for what is written beyond its calls. -/
theorem call {call : Call} {depth : Nat} (h : pass.Accounts first x step)
    (hown : ∀ s, pass.ownRecords ⟨call, depth, s⟩ = x s) :
    pass.Accounts (.call call depth first) .none step := by
  intro s
  refine (h s).perm ?_
  unfold Trace.call Writing.none
  rw [List.flatMap_cons, hown, List.append_nil]
  exact List.perm_append_comm

end Pass.Accounts

theorem accounts_pure (a : α) : pass.Accounts .none .none (pure a) := fun s => .refl s

theorem accounts_throw (f : Failure) : pass.Accounts .none .none (throw f : Compile α) :=
  fun s => .refl s

theorem accounts_report_pure (line : LogLine) (a : α) :
    pass.Accounts .none .none (report line >>= fun _ => pure a) :=
  fun _ => .of_same rfl rfl rfl rfl

/-- A pass does not survive a failure that is no cycle. -/
theorem not_survives {e : Failure} (h : e.isCycle = false)
    (hs : Survives (.error e : Except Failure α)) : False := by
  rw [survives_error.mp hs] at h
  cases h

theorem accounts_emit (r : Record) :
    pass.Accounts .none (.named (pass.emit r) fun _ => r) (pass.emit r) := by
  intro s
  unfold Writing.named Writing.bind
  rcases hrun : (pass.emit r).runOn s with ⟨e | token, t⟩
  · exact (balance_emit_error hrun).imp (not_survives (emit_error hrun ▸ rfl))
  · exact (balance_emit hrun).imp fun _ => trivial

theorem accounts_claimAndEmit {base : String} {reports : List LogLine} {record : String → Record}
    (hn : ∀ name, (record name).name = name) :
    pass.Accounts .none (.named (pass.claimAndEmit base reports record) record)
      (pass.claimAndEmit base reports record) := by
  intro s
  unfold Writing.named Writing.bind
  rcases hrun : (pass.claimAndEmit base reports record).runOn s with ⟨e | token, t⟩
  · have hemit := hrun
    rw [claimAndEmit_runOn] at hemit
    exact (balance_claimAndEmit_error hrun).imp (not_survives (emit_error hemit ▸ rfl))
  · exact (balance_claimAndEmit hn hrun).imp fun _ => trivial

/-- The weight of a layer is all that its writing adds. -/
theorem accounts_writeWeight (base brdf : String) (layer : Nat) (weight : Single) :
    pass.Accounts .none
      (.named (pass.writeWeight base brdf layer weight) fun token => pass.weightRecord token weight)
      (pass.writeWeight base brdf layer weight) := by
  unfold Pass.writeWeight
  rw [Contract.claimAndEmit_plain]
  exact accounts_claimAndEmit fun _ => rfl

/-- A record that is the last thing a build writes. -/
theorem accounts_claimAndEmit_last {base : String} {reports : List LogLine}
    {record : String → Record} (hn : ∀ name, (record name).name = name) (g : String → β) :
    pass.Accounts .none (.last (pass.claimAndEmit base reports record >>= fun token =>
        pure (some (g token))))
      (pass.claimAndEmit base reports record >>= fun token => pure (some (g token))) := by
  have hclaim : pass.Accounts .none _ (pass.claimAndEmit base reports record) :=
    accounts_claimAndEmit hn
  have h := hclaim.before fun token => accounts_pure (some (g token))
  intro s
  refine (h s).perm (.of_eq (congrArg _ ?_))
  unfold Writing.named Writing.bind Writing.last
  rw [runOn_bind]
  rcases hrun : (pass.claimAndEmit base reports record).runOn s with ⟨e | token, t⟩
  · rfl
  · obtain ⟨r, rfl, -, hwrites⟩ := claimAndEmit_writes hn hrun
    simp [Writing.none, hwrites.sent]

theorem closes_claimAndEmit {base : String} {reports : List LogLine} {record : String → Record}
    (hn : ∀ name, (record name).name = name) :
    pass.Closes (pass.claimAndEmit base reports record >>= fun token =>
      pure (some (.reference token))) :=
  ⟨accounts_claimAndEmit_last hn _, concludes_claimAndEmit pass base reports hn⟩

theorem accounts_report_none {step : Compile (Option β)} {line : LogLine}
    (h : step = report line >>= fun _ => pure none) : pass.Accounts .none (.last step) step := by
  subst h
  exact fun _ => .of_same rfl rfl rfl rfl

theorem closes_report (line : LogLine) : pass.Closes (report line >>= fun _ => pure none) :=
  ⟨accounts_report_none rfl, concludes_report line⟩

theorem accounts_writeGeometry : pass.Accounts .none .none pass.writeGeometry := by
  intro s
  rcases hrun : pass.writeGeometry.runOn s with ⟨e | value, t⟩
  · obtain ⟨message, rfl⟩ := writeGeometry_error hrun
    have h : pass.Balances False s [] (pass.writeGeometry.runOn s).2 := balances_writeGeometry s
    rw [hrun] at h
    exact h.imp (not_survives rfl)
  · exact (balance_writeGeometry hrun).imp fun _ => trivial

theorem accounts_materialToken (tree : NodeTree) (r : Except Failure (Option Resolved)) :
    pass.Accounts .none .none (materialToken tree r) := by
  unfold materialToken
  split
  · exact accounts_pure _
  · exact accounts_report_pure _ _
  · exact accounts_report_pure _ _
  · exact accounts_throw _

theorem accounts_objectToken (r : Except Failure (Option Resolved)) :
    pass.Accounts .none .none (objectToken r) := by
  unfold objectToken
  split
  · exact accounts_pure _
  · exact accounts_report_pure _ _
  · exact accounts_throw _

end Steps

end ShadeNet
