/-
# Scenes inject no records

The texts of a scene come into a file in three ways. Names are made into identifiers; strings and
paths are put in quotes; and the name of the scene stands in the comment at the head of a pass as
it is. So in a scene whose schema and outputs go by identifiers every record is sealed: a reader
finds the records that the pass gives to memory and no others. The name of the scene is the only
text that can get out of its place, and only if it has a second line.

Key definitions: `Job.Worded`, `GeometryExporter.WritesSealed`, `Resolved.Worded`,
`PassState.Worded`, `PassState.SendsSealed`, `sealedContract`.
Key theorems: `fit_plugin`, `sendsSealed_run`, `file_reads_back`, `second_line_injects`.
-/
import ShadeNet.Proofs.Comments
import ShadeNet.Proofs.PostOrder
import ShadeNet.Proofs.Provenance
import ShadeNet.Proofs.Spelled
import ShadeNet.Proofs.Spelling
import ShadeNet.Proofs.Transcript

namespace ShadeNet

open Compile

variable {pass : Pass} {s t u : PassState}

/-! ### Worded jobs -/

/-- A node of which no input has a text of its own, and the outputs of which go by identifiers. -/
structure Node.Worded (node : Node) : Prop where
  literals : ∀ socket ∈ node.inputs, ∀ v ∈ socket.literal, v.type ≠ .string
  outputs : ∀ socket ∈ node.outputs, ∀ attr ∈ socket.attr, isIdentifier attr = true

/-- A job whose plugins, parameters and outputs go by identifiers and whose inputs have no texts of
their own. All other names and texts may be anything. -/
structure Job.Worded (job : Job) : Prop where
  nodes : ∀ tree ∈ job.scene.trees.values, ∀ node ∈ tree.nodes.values, node.Worded
  plugins : ∀ desc ∈ job.catalog.toList, isIdentifier desc.id = true
  params : ∀ desc ∈ job.catalog.toList, ∀ param ∈ desc.params, isIdentifier param.attr = true

/-- For a mesh that goes by an identifier sealed records are written, and nothing else. -/
def GeometryExporter.WritesSealed (geometry : GeometryExporter) : Prop :=
  ∀ earlier request, isIdentifier request.name = true →
    ∀ e ∈ (geometry.answer earlier request).entries, ∃ r, e = .record r ∧ r.IsSealed

/-! ### Values -/

/-- A text of which every character is one of a token. -/
def IsTokenText (text : String) : Prop := ∀ c ∈ text.toList, isTokenChar c = true

instance (text : String) : Decidable (IsTokenText text) :=
  decidable_of_iff (text.toList.all isTokenChar = true) List.all_eq_true

theorem isTokenText_of_isIdentifier {text : String} (h : isIdentifier text = true) :
    IsTokenText text := fun c hc => isTokenChar_of_isWordChar (isWordChar_of_isIdentifier h c hc)

theorem IsTokenText.append {a b : String} (ha : IsTokenText a) (hb : IsTokenText b) :
    IsTokenText (a ++ b) := by
  intro c hc
  rw [String.toList_append] at hc
  exact (List.mem_append.mp hc).elim (ha c) (hb c)

/-- A value of which no text can stand without quotes, and whose tokens have the characters of
tokens. -/
def Resolved.Worded : Resolved → Prop
  | .literal v => v.type ≠ .string
  | .reference token => IsTokenText token
  | .objects tokens => ∀ token ∈ tokens, IsTokenText token

theorem isTokenText_outputSelector (kind : NodeKind) {attr : String}
    (h : isIdentifier attr = true) : IsTokenText (outputSelector kind attr) := by
  have hcolons : IsTokenText "::" := by decide
  unfold outputSelector
  split
  · decide
  · decide
  · decide
  · exact hcolons.append (isTokenText_of_isIdentifier h)

theorem Resolved.Worded.selectOutput {source : Node} {attr : Option String} {v : Resolved}
    (hattr : ∀ own ∈ attr, isIdentifier own = true) (h : v.Worded) :
    (selectOutput source attr v).Worded := by
  cases v with
  | literal | objects => exact h
  | reference token =>
    unfold ShadeNet.selectOutput
    cases attr with
    | none => exact h
    | some own =>
      simp only
      split
      · exact h
      · exact h.append (isTokenText_outputSelector source.kind (hattr own rfl))

/-- What a node is seen through are outputs of the node. -/
theorem Node.Worded.attr {node : Node} (h : node.Worded) (name : String) :
    ∀ own ∈ (node.output? name).bind (·.attr), isIdentifier own = true := by
  intro own hown
  obtain ⟨socket, hsocket, hattr⟩ := Option.bind_eq_some_iff.mp hown
  exact h.outputs socket (List.mem_of_find?_eq_some hsocket) own hattr

/-! ### Records -/

/-- A record that is sealed once it has a name. -/
structure Record.Fit (r : Record) : Prop where
  plugin : isIdentifier r.plugin = true
  attrs : ∀ a ∈ r.attrs, isIdentifier a.1 = true ∧ ShadeNet.IsSealed a.2

theorem Record.Fit.isSealed {r : Record} (h : r.Fit) (hname : isIdentifier r.name = true) :
    r.IsSealed := ⟨h.plugin, hname, h.attrs⟩

theorem IsSealed.animated {text : String} (h : IsSealed text) :
    IsSealed (pass.animatedText text) := by
  unfold Pass.animatedText
  split
  · exact h.interpolate _
  · exact h

theorem isSealed_tokens {tokens : List String} (h : ∀ token ∈ tokens, IsTokenText token) :
    IsSealed (listText .references tokens) :=
  isSealed_list _ fun token ht => isSealed_token (h token ht)

/-- The record of a plugin of the catalog is sealed if what it was supplied with is worded. -/
theorem fit_plugin {desc : PluginDesc} {params : OrderedMap String Value}
    {supplied : OrderedMap String Resolved} (hid : isIdentifier desc.id = true)
    (hd : ∀ param ∈ desc.params, isIdentifier param.attr = true)
    (hs : ∀ attr v, supplied.get? attr = some v → v.Worded) (name : String) :
    (pass.pluginRecord desc name params supplied).Fit := by
  refine ⟨hid, fun a ha => ?_⟩
  obtain ⟨param, hparam, hattr, hspells⟩ := spells_of_mem_attrs ha
  refine ⟨hattr ▸ hd param hparam, ?_⟩
  generalize a.2 = value at hspells
  cases hspells with
  | quoted s => exact isSealed_quote s
  | unquoted hv htext =>
    have hplain : Value.type _ ≠ .string := hs _ _ hv
    rcases htext with rfl | rfl <;> exact absurd rfl hplain
  | literal => exact (isSealed_literal _).animated
  | reference hv => exact isSealed_token (hs _ _ hv)
  | objects hv => exact isSealed_tokens (hs _ _ hv)

theorem fit_layeredTexture {layers : List (String × String)}
    (h : ∀ layer ∈ layers, IsTokenText layer.1 ∧ IsSealed layer.2) (name : String) :
    (pass.layeredTextureRecord name layers).Fit := by
  have hplugin : isIdentifier "TexLayered" = true := by decide
  have hattrs : isIdentifier "textures" = true ∧ isIdentifier "weights" = true := by decide
  refine ⟨hplugin, List.forall_mem_cons.mpr ⟨⟨hattrs.1, ?_⟩,
    List.forall_mem_singleton.mpr ⟨hattrs.2, ?_⟩⟩⟩
  · refine isSealed_tokens fun token ht => ?_
    obtain ⟨layer, hlayer, rfl⟩ := List.mem_map.mp ht
    exact (h layer (List.mem_reverse.mp hlayer)).1
  · refine (isSealed_list _ fun text ht => ?_).animated
    obtain ⟨layer, hlayer, rfl⟩ := List.mem_map.mp ht
    exact (h layer (List.mem_reverse.mp hlayer)).2

theorem fit_weight (name : String) (weight : Single) : (pass.weightRecord name weight).Fit :=
  have hplugin : isIdentifier "TexAColor" = true := by decide
  have hattr : isIdentifier "texture" = true := by decide
  ⟨hplugin, List.forall_mem_singleton.mpr ⟨hattr, (isSealed_literal _).animated⟩⟩

theorem fit_layeredBrdf {layers : List (String × String)} (additive : Bool)
    (h : ∀ layer ∈ layers, IsTokenText layer.1 ∧ IsTokenText layer.2) (name : String) :
    (pass.layeredBrdfRecord name layers additive).Fit := by
  have hplugin : isIdentifier "BRDFLayered" = true := by decide
  have hattrs : isIdentifier "brdfs" = true ∧ isIdentifier "weights" = true ∧
      isIdentifier "additive_mode" = true := by decide
  refine ⟨hplugin, List.forall_mem_cons.mpr ⟨⟨hattrs.1, ?_⟩, List.forall_mem_cons.mpr
    ⟨⟨hattrs.2.1, ?_⟩, List.forall_mem_singleton.mpr ⟨hattrs.2.2, ?_⟩⟩⟩⟩
  · refine isSealed_tokens fun token ht => ?_
    obtain ⟨layer, hlayer, rfl⟩ := List.mem_map.mp ht
    exact (h layer hlayer).1
  · refine isSealed_tokens fun token ht => ?_
    obtain ⟨layer, hlayer, rfl⟩ := List.mem_map.mp ht
    exact (h layer hlayer).2
  · exact (isSealed_literal _).animated

theorem fit_multiMaterial {materials : List String} (h : ∀ token ∈ materials, IsTokenText token)
    (name : String) : (Pass.multiMaterialRecord name materials).Fit := by
  have hplugin : isIdentifier "MtlMulti" = true := by decide
  have hattrs : isIdentifier "mtls_list" = true ∧ isIdentifier "ids_list" = true := by decide
  refine ⟨hplugin, List.forall_mem_cons.mpr ⟨⟨hattrs.1, isSealed_tokens h⟩,
    List.forall_mem_singleton.mpr ⟨hattrs.2, isSealed_list _ fun text ht => ?_⟩⟩⟩
  obtain ⟨index, -, rfl⟩ := List.mem_map.mp ht
  exact isSealed_nat index

theorem sealed_defaultBrdf : defaultBrdfRecord.IsSealed :=
  ⟨by decide, by decide, List.forall_mem_singleton.mpr ⟨by decide, isSealed_literal _⟩⟩

theorem sealed_defaultMaterial : defaultMaterialRecord.IsSealed :=
  ⟨by decide, by decide, List.forall_mem_singleton.mpr ⟨by decide, by decide⟩⟩

/-! ### States -/

/-- What a ledger says with tokens that have the characters of tokens. -/
def Memo.Worded : Memo → Prop
  | .node _ _ v => v.Worded
  | .object _ token => ∀ own ∈ token, IsTokenText own
  | .material _ token => IsTokenText token

/-- All values that a pass has at hand are worded. -/
structure PassState.Worded (s : PassState) : Prop where
  override : ∀ token ∈ s.overrideToken, IsTokenText token
  memo : ∀ m, s.Holds m → m.Worded

theorem PassState.Worded.congr (h : s.Worded) (ha : s.Alike t) : t.Worded where
  override := ha.overrideToken ▸ h.override
  memo m hm := h.memo m ((ha.holds m).mp hm)

/-- From a worded state another one is reached with the same override and, at most, an entry that
is worded. -/
theorem PassState.Worded.enter (h : s.Worded) (entry : Memo) (hentry : entry.Worded)
    (ho : t.overrideToken = s.overrideToken)
    (hm : ∀ m, t.Holds m → m = entry ∨ s.Holds m) : t.Worded where
  override := ho ▸ h.override
  memo m hold := by
    rcases hm m hold with rfl | hold
    · exact hentry
    · exact h.memo m hold

theorem PassState.Worded.forget (h : s.Worded) (ho : t.overrideToken = s.overrideToken)
    (hm : ∀ m, t.Holds m → s.Holds m) : t.Worded where
  override := ho ▸ h.override
  memo m hold := h.memo m (hm m hold)

/-- The records that were sent in between are sealed. -/
def PassState.SendsSealed (s t : PassState) : Prop :=
  ∃ tried, t.sent = s.sent ++ tried ∧ ∀ r ∈ tried, r.IsSealed

namespace PassState.SendsSealed

theorem of_eq (h : t.sent = s.sent) : s.SendsSealed t := ⟨[], by simpa using h, by simp⟩

theorem refl (s : PassState) : s.SendsSealed s := of_eq rfl

theorem trans (s t u : PassState) (h : s.SendsSealed t) (k : t.SendsSealed u) :
    s.SendsSealed u := by
  obtain ⟨tried, hs, ht⟩ := h
  obtain ⟨more, hs', ht'⟩ := k
  refine ⟨tried ++ more, by rw [hs', hs, List.append_assoc], fun r hr => ?_⟩
  exact (List.mem_append.mp hr).elim (ht r) (ht' r)

end PassState.SendsSealed

/-! ### Steps -/

theorem sendsSealed_writeRecord (pass : Pass) {r : Record} (h : r.IsSealed) (s : PassState) :
    s.SendsSealed ((pass.writeRecord r).runOn s).2 := by
  refine ⟨[r], ?_, by simpa using h⟩
  rcases writeRecord_cases pass r s with hw | ⟨sink, -, hw⟩ <;> rw [hw]
  · rfl

theorem sendsSealed_emit {r : Record} (h : r.IsSealed) (s : PassState) :
    s.SendsSealed ((pass.emit r).runOn s).2 :=
  emit_state (sendsSealed_writeRecord pass h s) fun _ ht => ht

theorem sendsSealed_claimAndEmit {base : String} {reports : List LogLine}
    {record : String → Record} (hb : OwnBase base) (hn : ∀ name, (record name).name = name)
    (hf : ∀ name, (record name).Fit) (s : PassState) :
    s.SendsSealed ((pass.claimAndEmit base reports record).runOn s).2 := by
  have hname := isIdentifier_of_isInstanceName (isInstanceName_freeName hb.fit.1 s.ledger.names)
  rw [claimAndEmit_runOn]
  exact sendsSealed_emit ((hf _).isSealed ((hn _).symm ▸ hname)) (s.claim base reports)

theorem sendsSealed_writeGeometry (hg : pass.geometry.WritesSealed) (s : PassState) :
    s.SendsSealed (pass.writeGeometry.runOn s).2 := by
  refine writeGeometry_state (.refl s) (.of_eq rfl) (fun _ => .of_eq rfl)
    fun scope mesh _ _ _ => ?_
  have hname := isIdentifier_of_isInstanceName (meshName_fit mesh).1
  refine rel_writeOut PassState.SendsSealed.refl PassState.SendsSealed.trans (fun r hr => ?_)
    (fun _ _ => .of_eq rfl) (s.handOut _)
  obtain ⟨e, he, hrecord⟩ := List.mem_filterMap.mp hr
  obtain ⟨q, rfl, hq⟩ := hg s.meshes ⟨scope.name, mesh, meshName mesh⟩ hname e he
  obtain rfl : q = r := Option.some.inj hrecord
  exact sendsSealed_writeRecord pass hq

theorem sendsSealed_writeDefaults (pass : Pass) (s : PassState) :
    s.SendsSealed (pass.writeDefaults.runOn s).2 :=
  rel_writeDefaults .refl .trans (sendsSealed_emit sealed_defaultBrdf)
    (sendsSealed_emit sealed_defaultMaterial) s

/-! ### The walk -/

/-- Every step of the walk keeps the values worded and the records sealed. -/
def sealedContract (hj : pass.toJob.Worded) (hg : pass.geometry.WritesSealed) : Contract pass where
  Inv := PassState.Worded
  Rel := PassState.SendsSealed
  Known tree node := node.Worded ∧ ∀ other ∈ tree.nodes.values, other.Worded
  Made _ v := v.Worded
  Val _ v := v.Worded
  Fit _ r := r.Fit
  Fault _ := True
  refl := .refl
  trans := .trans _ _ _
  val_of_made h := h
  val_mono _ h := h
  fault_cycle _ _ := trivial
  known_source hk hn := ⟨hk.2 _ (OrderedMap.mem_values_of_get? hn), hk.2⟩
  known_material _ hm _ _ hn := by
    obtain ⟨key, -, ht⟩ := Option.bind_eq_some_iff.mp hm
    have hnodes := hj.nodes _ (OrderedMap.mem_values_of_get? ht)
    exact ⟨hnodes _ hn, hnodes⟩
  known_object _ _ ht hn := by
    have hnodes := hj.nodes _ (OrderedMap.mem_values_of_get? ht)
    exact ⟨hnodes _ hn, hnodes⟩
  literal hk hs hv := hk.1.literals _ hs _ hv
  transform _ := nofun
  objects h := h
  default _ := isTokenText_of_isIdentifier (by decide)
  node h hn := h.memo (.node _ _ _) hn
  object h ho := h.memo (.object _ _) ho _ rfl
  override h ho := h.override _ ho
  synthesized h hs := h.memo (.material _ _) hs
  select_own hk _ h name := h.selectOutput (hk.1.attr name)
  select_passed hk _ h name := h.selectOutput (hk.1.attr name)
  fit_plugin name _ hd _ hs :=
    have hmem := OrderedMap.mem_values_of_get? hd
    fit_plugin (hj.plugins _ hmem) (hj.params _ hmem) hs name
  fit_texture name _ h := fit_layeredTexture (fun layer hl => by
    obtain ⟨htoken, socket, -, hweight⟩ := h layer hl
    exact ⟨htoken, hweight ▸ isSealed_number _⟩) name
  fit_weight name _ _ := fit_weight name _
  fit_brdf name additive h := fit_layeredBrdf additive h name
  fit_multi name h := fit_multiMaterial h name
  reported h _ := ⟨h.congr (alike_note _ _), .of_eq rfl⟩
  emission {s base reports record} h hb _ hn hf :=
    ends_claimAndEmit hb hn (h.congr (alike_claimAndEmit pass base reports record s))
      (sendsSealed_claimAndEmit hb hn hf s) trivial fun _ _ hname =>
        isTokenText_of_isIdentifier (isIdentifier_of_isInstanceName hname)
  geometry {s} h :=
    ends_writeGeometry (h.congr (alike_writeGeometry pass s)) (sendsSealed_writeGeometry hg s)
      (fun _ => trivial) (fun _ => nofun) fun mesh _ v hv => by
        cases hv
        exact isTokenText_of_isIdentifier (isIdentifier_of_isInstanceName (meshName_fit mesh).1)
  synthesize _ _ _ _ hr h hv :=
    ⟨h.enter (.material _ _) hv rfl fun _ hm => hm.of_synthesize, hr, hv⟩
  hide h _ _ _ :=
    ⟨h.enter (.object _ none) nofun rfl fun _ hm => hm.of_hide, .of_eq rfl⟩
  mark _ _ h := h.forget rfl fun _ hm => hm.of_mark
  finish _ _ _ hr h hv :=
    ⟨h.enter (.node _ _ _) hv rfl fun _ hm => hm.of_finish, hr, hv⟩
  abandon _ _ hr := ⟨hr, fun h => h.forget rfl fun _ hm => hm.of_abandon⟩
  enter h _ := h.forget rfl fun _ hm => hm.of_enter
  leave _ _ _ _ hr h hv :=
    ⟨h.enter (.object _ _) hv rfl fun _ hm => hm.of_leave, hr, hv⟩
  quit _ _ _ _ hr := ⟨hr, fun _ h => h.forget rfl fun _ hm => hm.of_quit⟩

/-! ### Passes -/

theorem worded_headed (pass : Pass) (s : PassState) : (pass.headed s).Worded :=
  ⟨nofun, fun m hm => absurd hm (not_holds_headed pass s m)⟩

/-- All records that a pass sends are sealed. -/
theorem sendsSealed_run (hj : pass.toJob.Worded) (hg : pass.geometry.WritesSealed)
    (s : PassState) : s.SendsSealed (pass.run.runOn s).2 := by
  let K := sealedContract hj hg
  have hc : K.Compiles pass.compiler := Contract.walk K trivial _
  have hdefaults : K.Keeps (fun _ => True) pass.writeDefaults fun _ _ => True := by
    intro u hu _
    have hworded := PassState.Worded.congr hu (alike_writeDefaults pass u)
    have hsends := sendsSealed_writeDefaults pass u
    generalize pass.writeDefaults.runOn u = o at hworded hsends
    rcases o with ⟨_ | _, t⟩
    · exact ⟨hsends, trivial, fun _ => hworded⟩
    · exact ⟨hworded, hsends, trivial⟩
  have hoverride : K.Keeps (fun _ => True) pass.writeOverride fun _ _ => True :=
    Contract.keeps_writeOverride hc fun u token hu hv =>
      ⟨⟨fun own ho => Option.some.inj ho ▸ hv, hu.memo⟩, .of_eq rfl⟩
  have hclosing : K.Keeps (fun _ => True) pass.closing fun _ _ => True :=
    fun u hu _ => ⟨PassState.Worded.congr hu (alike_note _ _), .of_eq rfl, trivial⟩
  have hbody := ((hdefaults.bind fun _ => hoverride).bind fun _ =>
    Contract.keeps_items hc pass.items.length).bind fun _ => hclosing
  have hends := hbody _ (worded_headed pass s) trivial
  have hafter : (pass.headed s).SendsSealed (pass.run.runOn s).2 := by
    rw [Pass.run_runOn]
    refine pass.rel_afterHead (.refl _) ?_
    unfold Pass.body Pass.opening
    generalize Compile.runOn _ _ = o at hends
    rcases o with ⟨_ | _, t⟩
    · exact hends.1
    · exact hends.2.1
  exact hafter

/-- All records that a pass gives to memory are sealed. -/
theorem sealed_memory (pass : Pass) (hj : pass.toJob.Worded) (hg : pass.geometry.WritesSealed)
    (s : PassState) :
    ∀ r ∈ (pass.run.runOn (s.into (.records {}))).2.sink.recordList, r.IsSealed := by
  obtain ⟨tried, arrived, hsent, hsub, hsink⟩ := sink_run pass (s.into (.records {}))
  obtain ⟨sealed, hsealed, hall⟩ := sendsSealed_run hj hg (s.into (.records {}))
  have htried : tried = sealed := List.append_cancel_left (hsent.symm.trans hsealed)
  have hrecords : (pass.run.runOn (s.into (.records {}))).2.sink.recordList =
      recordsOf arrived := by
    rw [hsink]
    exact Sink.recordList_writeAll {} (pass.header :: arrived)
  rw [hrecords]
  exact fun r hr => hall r (htried ▸ hsub.subset hr)

/-- The records that are read in a file are those that are in memory. -/
def ReadsBack (text : String) (records : List Record) : Prop :=
  readText text = some (records.map Record.block)

instance (text : String) (records : List Record) : Decidable (ReadsBack text records) :=
  inferInstanceAs (Decidable (readText text = some (records.map Record.block)))

/-- The text that a pass writes into a file. -/
def Job.file (job : Job) (outside : Surroundings) (frame : Int32) (s : PassState) : String :=
  ((job.exportFrame outside frame).runOn (s.into (.text {}))).2.sink.writtenText

/-- The records that a pass gives to memory. -/
def Job.memory (job : Job) (outside : Surroundings) (frame : Int32) (s : PassState) :
    List Record :=
  ((job.exportFrame outside frame).runOn (s.into (.records {}))).2.sink.recordList

/-- A file is the head of the pass and then the texts of the records in memory. -/
theorem file_eq (job : Job) {outside : Surroundings}
    (ha : ∀ index, outside.refuses index = false)
    (hg : outside.geometry.Gives (·.isRecord = true)) (frame : Int32) (s : PassState) :
    job.file outside frame s = headerText job.scene.name frame ++
      String.join ((job.memory outside frame s).map Record.text) := by
  obtain ⟨o, hw⟩ := writes_exportFrame job ha hg frame s
  have hfile := hw.file.2
  rw [passes_singleton, script_singleton, textOf_cons, textOf, List.map_map] at hfile
  exact hfile

/-- **Scenes inject no records.** The plugins and parameters of the schema and the outputs of the
nodes go by identifiers, no input has a text of its own, and meshes are written as sealed records.
All other names of the scene, and its strings and paths, are any texts. Then what a pass writes
into a file behind the head is read as exactly the records that the pass gives to memory, with
nothing added or lost. The whole file, without its comments, is read so if the name of the scene,
which stands in the head as it is, is on one line. -/
theorem file_reads_back (job : Job) (hj : job.Worded) (geometry : GeometryExporter)
    (hg : geometry.WritesSealed) (fileExists : String → Bool) (frame : Int32) (s : PassState) :
    let outside : Surroundings := { geometry := geometry, fileExists := fileExists }
    ∃ body, job.file outside frame s = headerText job.scene.name frame ++ body ∧
      ReadsBack body (job.memory outside frame s) ∧
      ('\n' ∉ job.scene.name.toList →
        ReadsBack (job.file outside frame s) (job.memory outside frame s)) := by
  intro outside
  have hsealed : ∀ r ∈ job.memory outside frame s, r.IsSealed :=
    sealed_memory { toJob := job, toSurroundings := outside, frame := frame } hj hg s
  have hgives : outside.geometry.Gives (·.isRecord = true) := by
    intro earlier object mesh e he
    have hname := isIdentifier_of_isInstanceName (meshName_fit mesh).1
    obtain ⟨r, rfl, -⟩ := hg earlier ⟨object, mesh, meshName mesh⟩ hname e he
    rfl
  have hfile := file_eq job (fun index => (rfl : outside.refuses index = false)) hgives frame s
  have hbody := readText_records hsealed
  refine ⟨_, hfile, hbody, fun hline => ?_⟩
  unfold ReadsBack
  rw [hfile, readText_headed hline]
  exact hbody

theorem builtin_identifiers :
    (∀ desc ∈ Catalog.builtin.toList, isIdentifier desc.id = true) ∧
      ∀ desc ∈ Catalog.builtin.toList, ∀ param ∈ desc.params, isIdentifier param.attr = true :=
  ⟨by decide +kernel, by decide +kernel⟩

/-- A wall whose texture reads a file with an awkward path. -/
def awkwardTree : NodeTree := .ofParts "Wall;"
  [{ name := "End", kind := .materialOutput false,
      inputs := [⟨"Material", .input, .material, none, none⟩] },
    { name := "Paint // \"new\"", kind := .plugin .brdf "BRDFDiffuse",
      inputs := [⟨"Colour", .input, .texture, some "color_tex", none⟩],
      outputs := [⟨"Out", .output, .brdf, none, none⟩] },
    { name := "Bricks", kind := .plugin .texture "TexBitmap",
      inputs := [⟨"Bitmap", .input, .plugin, some "bitmap", none⟩],
      outputs := [⟨"Out", .output, .texture, some "out_color", none⟩] },
    { name := "File\n\x7d", kind := .plugin .texture "BitmapBuffer",
      params := .ofList [("file", .path "a.png\";\n\x7d\n// b\\")],
      outputs := [⟨"Out", .output, .plugin, some "bitmap", none⟩] }]
  [⟨⟨1⟩, ⟨"Paint // \"new\"", "Out"⟩, ⟨"End", "Material"⟩⟩, ⟨⟨2⟩, ⟨"Bricks", "Out"⟩,
      ⟨"Paint // \"new\"", "Colour"⟩⟩,
    ⟨⟨3⟩, ⟨"File\n\x7d", "Out"⟩, ⟨"Bricks", "Bitmap"⟩⟩]

/-- A scene in which every text looks like a piece of a file. -/
def awkwardJob : Job where
  scene := ((({ name := "Shot 1 \x7b \"// \x7d" } : Scene).addTree awkwardTree).addMaterial
    "\"Wall" ⟨some "Wall;"⟩).addObject
      "House \x7b\n" { mesh := some "//", slots := [some "\"Wall"] }
  catalog := Catalog.builtin
  settings := {}

theorem plainGeometry_writesSealed : plainGeometry.WritesSealed := by
  intro earlier request hname
  have hplugin : isIdentifier "GeomStaticMesh" = true := by decide
  exact List.forall_mem_singleton.mpr ⟨_, rfl, hplugin, hname, nofun⟩

/-- Seven records are written of the scene, and seven are read. -/
theorem file_reads_back_awkward :
    awkwardJob.Worded ∧ plainGeometry.WritesSealed ∧ '\n' ∉ awkwardJob.scene.name.toList ∧
      (awkwardJob.memory { geometry := plainGeometry } 1 {}).map Record.plugin =
        ["BRDFDiffuse", "MtlSingleBRDF", "BitmapBuffer", "TexBitmap", "BRDFDiffuse",
          "GeomStaticMesh", "Node"] ∧
      ReadsBack (awkwardJob.file { geometry := plainGeometry } 1 {})
        (awkwardJob.memory { geometry := plainGeometry } 1 {}) := by
  have hnodes : ∀ tree ∈ awkwardJob.scene.trees.values, ∀ node ∈ tree.nodes.values,
      (∀ socket ∈ node.inputs, ∀ v ∈ socket.literal, v.type ≠ .string) ∧
        ∀ socket ∈ node.outputs, ∀ attr ∈ socket.attr, isIdentifier attr = true := by decide
  have hworded : awkwardJob.Worded :=
    ⟨fun tree ht node hn => ⟨(hnodes tree ht node hn).1, (hnodes tree ht node hn).2⟩,
      builtin_identifiers.1, builtin_identifiers.2⟩
  have hline : '\n' ∉ awkwardJob.scene.name.toList := by decide
  obtain ⟨-, -, -, hreads⟩ := file_reads_back awkwardJob hworded plainGeometry
    plainGeometry_writesSealed (fun _ => false) 1 {}
  exact ⟨hworded, plainGeometry_writesSealed, hline, by decide +kernel, hreads hline⟩

/-- An empty scene whose name has three more lines. -/
def manyLinesJob : Job where
  scene := { name := "Shot\nTexChecker Evil \x7b\n\x7d\n//" }
  catalog := Catalog.builtin
  settings := {}

/-- To a reader of the file the second line of the name begins a record. -/
theorem second_line_injects :
    manyLinesJob.Worded ∧ GeometryExporter.external.WritesSealed ∧
      readText (manyLinesJob.file { geometry := .external } 1 {}) =
        some (⟨"TexChecker", "Evil", []⟩ ::
          (manyLinesJob.memory { geometry := .external } 1 {}).map Record.block) ∧
      ¬ ReadsBack (manyLinesJob.file { geometry := .external } 1 {})
        (manyLinesJob.memory { geometry := .external } 1 {}) := by
  have hworded : manyLinesJob.Worded := ⟨nofun, builtin_identifiers.1, builtin_identifiers.2⟩
  have hread : readText (manyLinesJob.file { geometry := .external } 1 {}) =
      some (⟨"TexChecker", "Evil", []⟩ ::
        (manyLinesJob.memory { geometry := .external } 1 {}).map Record.block) := by
    decide +kernel
  refine ⟨hworded, fun _ _ _ => nofun, hread, fun hback => ?_⟩
  unfold ReadsBack at hback
  rw [hread] at hback
  exact List.cons_ne_self _ _ (Option.some.inj hback)

end ShadeNet
