/-
# What a record refers to

A job is legible if its numbers are finite, no input has a text of its own, and outputs
go by identifiers. The record of a node of such a job refers to the records whose tokens
it was given, and to nothing else: a literal is no reference, however it is spelled.

Key definitions: `Job.Legible`, `IsWorth`, `IsOwn`, `ReadsOnly`, `RefersOnly`.
Key theorems: `IsOwn.selectOutput`, `refersOnly_plugin`, `refersOnly_layeredTexture`,
`refersOnly_layeredBrdf`, `refersOnly_multiMaterial`.
-/
import ShadeNet.Network.Walk
import ShadeNet.Proofs.Contract
import ShadeNet.Proofs.Reading
import ShadeNet.Proofs.Spelling

namespace ShadeNet

/-! ### Legible jobs -/

/-- A literal that is spelled without quotes and with digits. -/
def Value.IsPlain (v : Value) : Prop := v.isFinite = true ∧ v.type ≠ .string

/-- A node of a legible job. -/
structure Node.Legible (node : Node) : Prop where
  literals : ∀ socket ∈ node.inputs, ∀ v ∈ socket.literal, v.IsPlain
  params : ∀ v ∈ node.params.values, v.isFinite = true
  outputs : ∀ socket ∈ node.outputs, ∀ attr ∈ socket.attr, isIdentifier attr = true
  passing : node.kind.passesOn = true → ∀ socket ∈ node.outputs, socket.attr = none

/-- A job in whose texts references are told from everything else. -/
structure Job.Legible (job : Job) : Prop where
  nodes : ∀ tree ∈ job.scene.trees.values, ∀ node ∈ tree.nodes.values, node.Legible
  transforms : ∀ object ∈ job.scene.objects.values, object.transform.isFinite = true
  schema : ∀ desc ∈ job.catalog.toList, ∀ param ∈ desc.params, ∀ v ∈ param.literal,
    v.isFinite = true

theorem isFinite_scalar {v : Value} {x : Single} (hv : v.isFinite = true)
    (hx : v.scalar? = some x) : x.isFinite = true := by
  cases v with
  | bool b =>
    cases hx
    cases b <;> decide
  | int i =>
    obtain rfl : Single.ofInt i.toInt = x := Option.some.inj hx
    exact Single.isFinite_ofInt i
  | enum i =>
    obtain rfl : Single.ofInt i.toInt = x := Option.some.inj hx
    exact Single.isFinite_ofInt i
  | float y =>
    cases hx
    exact hv
  | color c => cases hx
  | aColor c a => cases hx
  | vector c => cases hx
  | transform t => cases hx
  | string s => cases hx
  | path s => cases hx

/-- The weight of a layer is one where its socket has no number. -/
theorem Node.Legible.isFinite_layerWeight {node : Node} (h : node.Legible) {socket : Option Socket}
    (hs : ∀ own ∈ socket, own ∈ node.inputs) : (layerWeight socket).isFinite = true := by
  unfold layerWeight
  cases hx : (socket.bind (·.literal)).bind (·.scalar?) with
  | none => decide
  | some x =>
    obtain ⟨v, hv, hx⟩ := Option.bind_eq_some_iff.mp hx
    obtain ⟨own, hown, hv⟩ := Option.bind_eq_some_iff.mp hv
    exact isFinite_scalar (h.literals own (hs own hown) v hv).1 hx

/-! ### Values -/

/-- A value whose tokens stand for records with a property, and whose literals are
spelled without a reference. -/
def IsWorth (P : String → Prop) : Resolved → Prop
  | .literal v => v.IsPlain
  | .reference token => IsToken token ∧ P (baseName token)
  | .objects tokens => ∀ token ∈ tokens, IsToken token ∧ P (baseName token)

theorem IsWorth.mono {P Q : String → Prop} (h : ∀ name, P name → Q name) {v : Resolved}
    (hv : IsWorth P v) : IsWorth Q v := by
  cases v with
  | literal v => exact hv
  | reference token => exact ⟨hv.1, h _ hv.2⟩
  | objects tokens => exact fun token ht => ⟨(hv token ht).1, h _ (hv token ht).2⟩

/-- What the value of a node is worth that is seen through none of the node's outputs:
its token is a name. -/
def IsOwn (P : String → Prop) : Resolved → Prop
  | .reference token => isIdentifier token = true ∧ P token
  | v => IsWorth P v

theorem IsOwn.worth {P : String → Prop} {v : Resolved} (h : IsOwn P v) : IsWorth P v := by
  cases v with
  | literal v => exact h
  | reference token =>
    refine ⟨isToken_of_isIdentifier h.1, ?_⟩
    rw [baseName_of_isIdentifier h.1]
    exact h.2
  | objects tokens => exact h

theorem IsOwn.mono {P Q : String → Prop} (h : ∀ name, P name → Q name) {v : Resolved}
    (hv : IsOwn P v) : IsOwn Q v := by
  cases v with
  | literal v => exact hv
  | reference token => exact ⟨hv.1, h _ hv.2⟩
  | objects tokens => exact fun token ht => ⟨(hv token ht).1, h _ (hv token ht).2⟩

theorem isSelector_outputSelector (kind : NodeKind) {attr : String}
    (h : isIdentifier attr = true) : IsSelector (outputSelector kind attr) := by
  unfold outputSelector
  split
  · exact Or.inr ⟨"Flame", by decide, Or.inr rfl⟩
  · exact Or.inr ⟨"Density", by decide, Or.inr rfl⟩
  · exact Or.inr ⟨"Fuel", by decide, Or.inr rfl⟩
  · exact Or.inr ⟨_, h, Or.inl rfl⟩

/-- An output of a node stands behind the node's name. -/
theorem IsOwn.selectOutput {P : String → Prop} {source : Node} {attr : Option String} {v : Resolved}
    (hattr : ∀ own ∈ attr, isIdentifier own = true) (hv : IsOwn P v) :
    IsWorth P (selectOutput source attr v) := by
  cases v with
  | literal v => exact hv
  | objects tokens => exact hv
  | reference token =>
    cases attr with
    | none => exact hv.worth
    | some own =>
      simp only [ShadeNet.selectOutput]
      split
      · exact hv.worth
      · have hs := isSelector_outputSelector source.kind (hattr own rfl)
        refine ⟨⟨token, _, hv.1, hs, rfl⟩, ?_⟩
        rw [baseName_append hv.1 hs]
        exact hv.2

/-- An output without an attribute is the value itself. -/
theorem selectOutput_none (source : Node) (v : Resolved) : selectOutput source none v = v := by
  cases v <;> rfl

/-! ### Texts -/

/-- All references in a text have a property. -/
def ReadsOnly (P : String → Prop) (text : String) : Prop :=
  ∃ read, Reads text read ∧ ∀ name ∈ read, P name

/-- All references of a record have a property. -/
def RefersOnly (P : String → Prop) (r : Record) : Prop := ∀ name ∈ r.references, P name

variable {P : String → Prop} {pass : Pass}

theorem readsOnly_plain {text : String} (h : Reads text []) : ReadsOnly P text := ⟨[], h, by simp⟩

theorem readsOnly_token {token : String} (h : IsWorth P (.reference token)) : ReadsOnly P token :=
  ⟨[baseName token], reads_token h.1, by simpa using h.2⟩

theorem readsOnly_tokenList {tokens : List String} (h : IsWorth P (.objects tokens)) :
    ReadsOnly P (listText .references tokens) := by
  refine ⟨tokens.map baseName, reads_tokenList fun token ht => (h token ht).1, fun name hn => ?_⟩
  obtain ⟨token, ht, rfl⟩ := List.mem_map.mp hn
  exact (h token ht).2

/-- A value that is keyed to a frame is read as the value alone. -/
theorem ReadsOnly.animated {text : String} (h : ReadsOnly P text) :
    ReadsOnly P (pass.animatedText text) := by
  obtain ⟨read, hread, hP⟩ := h
  unfold Pass.animatedText
  split
  · exact ⟨read, reads_interpolate hread _, hP⟩
  · exact ⟨read, hread, hP⟩

theorem readsOnly_literal {v : Value} (h : v.isFinite = true) : ReadsOnly P (pass.literalText v) :=
  (readsOnly_plain (reads_value h)).animated

/-- A record refers to what is read in its attributes. -/
theorem refersOnly_of_attrs {r : Record} (h : ∀ a ∈ r.attrs, ReadsOnly P a.2) :
    RefersOnly P r := by
  intro name hname
  obtain ⟨a, ha, hname⟩ := List.mem_flatMap.mp hname
  obtain ⟨read, hread, hP⟩ := h a ha
  rw [hread.references_eq] at hname
  exact hP name hname

/-! ### Records of plugins -/

/-- The record of a plugin refers to what it was supplied with. -/
theorem refersOnly_plugin {desc : PluginDesc} {params : OrderedMap String Value}
    {supplied : OrderedMap String Resolved}
    (hd : ∀ param ∈ desc.params, ∀ v, param.literal = some v → v.isFinite = true)
    (hp : ∀ attr v, params.get? attr = some v → v.isFinite = true)
    (hs : ∀ attr v, supplied.get? attr = some v → IsWorth P v) (name : String) :
    RefersOnly P (pass.pluginRecord desc name params supplied) := by
  refine refersOnly_of_attrs fun a ha => ?_
  obtain ⟨param, hparam, -, hspells⟩ := spells_of_mem_attrs ha
  generalize a.2 = value at hspells
  cases hspells with
  | quoted s => exact readsOnly_plain (reads_quote s)
  | unquoted hv htext =>
    have hplain := (hs _ _ hv).2
    rcases htext with rfl | rfl <;> exact absurd rfl hplain
  | literal _ hv =>
    refine readsOnly_literal ?_
    rcases hv with hv | hv
    · exact (hs _ _ hv).1
    · rcases Option.or_eq_some_iff.mp hv with hv | ⟨-, hv⟩
      · exact hp _ _ hv
      · exact hd param hparam _ hv
  | reference hv => exact readsOnly_token (hs _ _ hv)
  | objects hv => exact readsOnly_tokenList (hs _ _ hv)

/-! ### Other records -/

theorem refersOnly_layeredTexture {layers : List (String × String)}
    (h : ∀ layer ∈ layers, IsWorth P (.reference layer.1) ∧ Reads layer.2 []) (name : String) :
    RefersOnly P (pass.layeredTextureRecord name layers) := by
  refine refersOnly_of_attrs (List.forall_mem_cons.mpr ⟨?_, List.forall_mem_singleton.mpr ?_⟩)
  · refine readsOnly_tokenList fun token ht => ?_
    obtain ⟨layer, hlayer, rfl⟩ := List.mem_map.mp ht
    exact (h layer (List.mem_reverse.mp hlayer)).1
  · refine (readsOnly_plain (reads_plainList _ fun text ht => ?_)).animated
    obtain ⟨layer, hlayer, rfl⟩ := List.mem_map.mp ht
    exact (h layer (List.mem_reverse.mp hlayer)).2

theorem refersOnly_weight {weight : Single} (h : weight.isFinite = true) (name : String) :
    RefersOnly P (pass.weightRecord name weight) := by
  refine refersOnly_of_attrs (List.forall_mem_singleton.mpr ?_)
  have hfinite : (Value.aColor ⟨weight, weight, weight⟩ Single.one).isFinite = true := by
    simp only [Value.isFinite, Triple.isFinite, h, Bool.and_self]
    decide
  exact readsOnly_literal hfinite

theorem refersOnly_layeredBrdf {layers : List (String × String)} (additive : Bool)
    (h : ∀ layer ∈ layers, IsWorth P (.reference layer.1) ∧ IsWorth P (.reference layer.2))
    (name : String) : RefersOnly P (pass.layeredBrdfRecord name layers additive) := by
  refine refersOnly_of_attrs (List.forall_mem_cons.mpr ⟨?_, List.forall_mem_cons.mpr ⟨?_,
    List.forall_mem_singleton.mpr ?_⟩⟩)
  · refine readsOnly_tokenList fun token ht => ?_
    obtain ⟨layer, hlayer, rfl⟩ := List.mem_map.mp ht
    exact (h layer hlayer).1
  · refine readsOnly_tokenList fun token ht => ?_
    obtain ⟨layer, hlayer, rfl⟩ := List.mem_map.mp ht
    exact (h layer hlayer).2
  · exact readsOnly_literal rfl

theorem refersOnly_multiMaterial {materials : List String}
    (h : ∀ token ∈ materials, IsWorth P (.reference token)) (name : String) :
    RefersOnly P (Pass.multiMaterialRecord name materials) := by
  refine refersOnly_of_attrs (List.forall_mem_cons.mpr ⟨?_, List.forall_mem_singleton.mpr ?_⟩)
  · exact readsOnly_tokenList h
  · refine readsOnly_plain (reads_plainList _ fun text ht => ?_)
    obtain ⟨index, -, rfl⟩ := List.mem_map.mp ht
    exact reads_nat index

theorem refersOnly_defaultBrdf : RefersOnly P defaultBrdfRecord := by
  refine refersOnly_of_attrs (List.forall_mem_singleton.mpr ?_)
  exact readsOnly_plain (reads_value (by decide))

theorem refersOnly_defaultMaterial (h : P defaultBrdf) : RefersOnly P defaultMaterialRecord := by
  have hname : isIdentifier defaultBrdf = true := by decide
  refine refersOnly_of_attrs (List.forall_mem_singleton.mpr ?_)
  refine readsOnly_token ⟨isToken_of_isIdentifier hname, ?_⟩
  rwa [baseName_of_isIdentifier hname]

end ShadeNet
