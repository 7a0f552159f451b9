/-
# Which attributes the record of a plugin has

A record is written from the schema of its plugin, from the literals of a node and from what
the sockets of the node supply. Its attributes stand in strictly ascending order. An attribute
is written if something is supplied for it that is spelled, or nothing is supplied, the schema
does not ask for that, and the literal of the node, or else that of the schema, is spelled; what
is supplied and not spelled does not make room for the literal. Only what is empty is not
spelled. The order in which the schema and the two tables are written down is not seen.

Key definitions: `Value.IsBlank`, `Resolved.IsBlank`, `Pass.Fills`.
Key theorems: `ascending_sortedParams`, `sortedParams_congr`, `OrderedMap.get?_congr`,
`value?_spellLiteral`, `value?_spellResolved`, `value?_spellParam`, `mem_attrs_pluginRecord`,
`record_follows_schema`.
-/
import Mathlib.Data.String.Basic
import ShadeNet.Proofs.Step
import ShadeNet.Network.Attribute

namespace ShadeNet

/-! ### Parameters by name -/

namespace PluginDesc

variable {d e : PluginDesc} {p : ParamDesc} {ps : List ParamDesc}

theorem perm_insertParam (p : ParamDesc) : ∀ ps, (insertParam p ps).Perm (p :: ps)
  | [] => .refl _
  | q :: rest => by
    unfold insertParam
    by_cases h : p.attr ≤ q.attr
    · rw [if_pos h]
    · rw [if_neg h]
      exact ((perm_insertParam p rest).cons q).trans (.swap p q rest)

theorem perm_sortedParams (d : PluginDesc) : d.sortedParams.Perm d.params := by
  unfold sortedParams
  induction d.params with
  | nil => exact .nil
  | cons p rest ih => exact (perm_insertParam p _).trans (ih.cons p)

theorem pairwise_insertParam (h : ps.Pairwise fun p q => p.attr ≤ q.attr) :
    (insertParam p ps).Pairwise fun p q => p.attr ≤ q.attr := by
  induction ps with
  | nil => simp [insertParam]
  | cons q rest ih =>
    obtain ⟨hq, hrest⟩ := List.pairwise_cons.mp h
    unfold insertParam
    by_cases hpq : p.attr ≤ q.attr
    · rw [if_pos hpq]
      refine List.pairwise_cons.mpr ⟨fun r hr => ?_, h⟩
      rcases List.mem_cons.mp hr with rfl | hr
      · exact hpq
      · exact hpq.trans (hq r hr)
    · rw [if_neg hpq]
      have hqp : q.attr ≤ p.attr := le_of_not_ge hpq
      refine List.pairwise_cons.mpr ⟨fun r hr => ?_, ih hrest⟩
      rcases mem_insertParam.mp hr with rfl | hr
      · exact hqp
      · exact hq r hr

theorem pairwise_sortedParams (d : PluginDesc) :
    d.sortedParams.Pairwise fun p q => p.attr ≤ q.attr := by
  unfold sortedParams
  induction d.params with
  | nil => exact .nil
  | cons p rest ih => exact pairwise_insertParam ih

/-- Parameters with different names are sorted strictly. -/
theorem ascending_sortedParams (h : (d.params.map (·.attr)).Nodup) :
    d.sortedParams.Pairwise fun p q => p.attr < q.attr := by
  have hnodup : (d.sortedParams.map (·.attr)).Nodup := ((perm_sortedParams d).map _).nodup_iff.mpr h
  have hne : d.sortedParams.Pairwise fun p q => p.attr ≠ q.attr := List.pairwise_map.mp hnodup
  exact (d.pairwise_sortedParams.and hne).imp fun ⟨hle, hne⟩ => lt_of_le_of_ne hle hne

/-- Parameters with different names come to one order, however they are declared. -/
theorem sortedParams_congr (h : (d.params.map (·.attr)).Nodup) (hperm : e.params.Perm d.params) :
    e.sortedParams = d.sortedParams := by
  have he : (e.params.map (·.attr)).Nodup := (hperm.map _).nodup_iff.mpr h
  have hsame : e.sortedParams.Perm d.sortedParams :=
    (perm_sortedParams e).trans (hperm.trans (perm_sortedParams d).symm)
  apply List.Perm.eq_of_pairwise ?_ (ascending_sortedParams he) (ascending_sortedParams h) hsame
  intro p q _ _ hpq hqp
  exact absurd hpq (lt_asymm hqp)

end PluginDesc

/-- Look-up does not see the order of the entries. -/
theorem OrderedMap.get?_congr {κ α : Type} [DecidableEq κ] {m n : OrderedMap κ α}
    (h : m.entries.Perm n.entries) (key : κ) : m.get? key = n.get? key := by
  have hfinds : ∀ {m n : OrderedMap κ α}, m.entries.Perm n.entries → ∀ a,
      m.get? key = some a → n.get? key = some a := by
    intro m n h a ha
    exact get?_of_mem_entries (h.mem_iff.mp (mem_of_lookupEntry ha))
  exact Option.ext fun a => ⟨hfinds h a, hfinds h.symm a⟩

/-! ### What is spelled -/

/-- A literal that stands for no value: an empty text. -/
def Value.IsBlank (v : Value) : Prop := v = .string "" ∨ v = .path ""

/-- What a socket may supply that stands for no value. -/
def Resolved.IsBlank : Resolved → Prop
  | .literal v => v.IsBlank
  | .reference token => token = ""
  | .objects tokens => tokens = []

namespace Pass

variable {pass : Pass} {params params' : OrderedMap String Value}
  {supplied supplied' : OrderedMap String Resolved} {param : ParamDesc} {value : String}

/-- Where no path has to exist, a text is spelled unless it is empty. -/
theorem value?_spellText (h : pass.settings.checkPaths = false) (param : ParamDesc) (isPath : Bool)
    (text : String) : (pass.spellText param isPath text).value? = none ↔ text = "" := by
  unfold spellText
  by_cases htext : text = ""
  · simp [htext, Spelling.value?]
  by_cases hreference : param.type.isReference = true
  · simp [htext, hreference, Spelling.value?]
  by_cases hpath : (param.isPath || isPath) = true
  · simp [htext, hreference, hpath, h, Spelling.value?]
  · simp [htext, hreference, hpath, Spelling.value?]

theorem value?_spellLiteral (h : pass.settings.checkPaths = false) (param : ParamDesc) (v : Value) :
    (pass.spellLiteral param v).value? = none ↔ v.IsBlank := by
  cases v with
  | string text => simp [spellLiteral, value?_spellText h, Value.IsBlank]
  | path text => simp [spellLiteral, value?_spellText h, Value.IsBlank]
  | _ => simp [spellLiteral, Spelling.value?, Value.IsBlank]

theorem value?_spellResolved (h : pass.settings.checkPaths = false) (param : ParamDesc)
    (resolved : Resolved) :
    (pass.spellResolved param resolved).value? = none ↔ resolved.IsBlank := by
  cases resolved with
  | literal v => exact value?_spellLiteral h param v
  | reference token => by_cases ht : token = "" <;>
      simp [spellResolved, Resolved.IsBlank, Spelling.value?, ht]
  | objects tokens => by_cases ht : tokens = [] <;>
      simp [spellResolved, Resolved.IsBlank, Spelling.value?, ht]

/-- Where the value of a parameter comes from: from what is supplied for it, or, if nothing is
and the schema does not ask for that, from the literal of the node or else of the schema. -/
inductive Fills (pass : Pass) (params : OrderedMap String Value)
    (supplied : OrderedMap String Resolved) (param : ParamDesc) (value : String) : Prop
  | supplied {resolved : Resolved} : supplied.get? param.attr = some resolved →
      (pass.spellResolved param resolved).value? = some value →
      Fills pass params supplied param value
  | literal {v : Value} : supplied.get? param.attr = none → param.skip = false →
      param.type.needsValue = false → param.type.needsLink = false →
      (params.get? param.attr).or param.literal = some v →
      (pass.spellLiteral param v).value? = some value → Fills pass params supplied param value

/-- What is supplied for a parameter is its only source, also if it is not spelled. -/
theorem fills_of_supplied {resolved : Resolved} (hs : supplied.get? param.attr = some resolved) :
    pass.Fills params supplied param value ↔
      (pass.spellResolved param resolved).value? = some value := by
  refine ⟨fun h => ?_, .supplied hs⟩
  cases h with
  | supplied hs' hv =>
    rw [hs, Option.some.injEq] at hs'
    exact hs' ▸ hv
  | literal hs' =>
    rw [hs] at hs'
    cases hs'

/-- Without anything supplied, a literal is the source where one may be. -/
theorem fills_of_unsupplied (hs : supplied.get? param.attr = none) :
    pass.Fills params supplied param value ↔ param.needsSupply = false ∧
      ∃ v, (params.get? param.attr).or param.literal = some v ∧
        (pass.spellLiteral param v).value? = some value := by
  have hneeds : param.needsSupply = false ↔
      param.skip = false ∧ param.type.needsValue = false ∧ param.type.needsLink = false := by
    simp [ParamDesc.needsSupply, ParamDesc.isSkipped, and_assoc]
  constructor
  · intro h
    cases h with
    | supplied hs' =>
      rw [hs] at hs'
      cases hs'
    | literal _ hskip hvalue hlink hl hv =>
      exact ⟨hneeds.mpr ⟨hskip, hvalue, hlink⟩, _, hl, hv⟩
  · rintro ⟨hfree, v, hl, hv⟩
    obtain ⟨hskip, hvalue, hlink⟩ := hneeds.mp hfree
    exact .literal hs hskip hvalue hlink hl hv

/-- A parameter is written unless it is an output or has no source. -/
theorem value?_spellParam : (pass.spellParam params supplied param).value? = some value ↔
    param.type.isOutput = false ∧ pass.Fills params supplied param value := by
  unfold spellParam
  by_cases hout : param.type.isOutput = true
  · simp [hout, Spelling.value?]
  cases hs : supplied.get? param.attr with
  | some resolved => simp [hout, fills_of_supplied hs]
  | none =>
    rw [fills_of_unsupplied hs]
    by_cases hsupply : param.needsSupply = true
    · simp [hout, hsupply, Spelling.value?]
    · cases hl : (params.get? param.attr).or param.literal with
      | some v => simp [hout, hsupply]
      | none => simp [hout, hsupply, Spelling.value?]

/-! ### The record -/

variable {desc desc' : PluginDesc} {name : String}

theorem mem_attrs_pluginRecord {attr : String} :
    (attr, value) ∈ (pass.pluginRecord desc name params supplied).attrs ↔
      ∃ param ∈ desc.params, param.attr = attr ∧ param.type.isOutput = false ∧
        pass.Fills params supplied param value := by
  unfold pluginRecord
  simp only [List.mem_filterMap, PluginDesc.mem_sortedParams, Option.map_eq_some_iff,
    Prod.mk.injEq]
  constructor
  · rintro ⟨param, hp, v, hv, rfl, rfl⟩
    exact ⟨param, hp, rfl, value?_spellParam.mp hv⟩
  · rintro ⟨param, hp, rfl, hfills⟩
    exact ⟨param, hp, value, value?_spellParam.mpr hfills, rfl, rfl⟩

theorem ascending_attrs (h : (desc.params.map (·.attr)).Nodup) :
    (pass.pluginRecord desc name params supplied).attrs.Pairwise fun a b => a.1 < b.1 := by
  apply (PluginDesc.ascending_sortedParams h).filterMap
  intro p q hpq a ha b hb
  obtain ⟨v, -, rfl⟩ := Option.map_eq_some_iff.mp ha
  obtain ⟨w, -, rfl⟩ := Option.map_eq_some_iff.mp hb
  exact hpq

/-- A step that writes the record of a plugin does not see the order of what it is given. -/
theorem writePlugin_congr (h : (desc.params.map (·.attr)).Nodup) (hid : desc'.id = desc.id)
    (hcategory : desc'.category = desc.category) (hparams : desc'.params.Perm desc.params)
    (hliterals : params'.entries.Perm params.entries)
    (hsupplied : supplied'.entries.Perm supplied.entries) :
    pass.writePlugin desc' name params' supplied' = pass.writePlugin desc name params supplied := by
  have hsorted : desc'.sortedParams = desc.sortedParams := PluginDesc.sortedParams_congr h hparams
  have hspell : ∀ param,
      pass.spellParam params' supplied' param = pass.spellParam params supplied param := by
    intro param
    simp only [spellParam, OrderedMap.get?_congr hliterals, OrderedMap.get?_congr hsupplied]
  simp only [writePlugin, pluginReports, pluginRecord, hsorted, hspell, hid, hcategory]

theorem writePlugin_runOn (s : PassState) :
    (pass.writePlugin desc name params supplied).runOn s =
      (pass.emit (pass.pluginRecord desc name params supplied)).runOn
        { s with log := s.log ++ pass.pluginReports desc params supplied } :=
  Compile.runOn_bind_ok (runOn_reports _ s) _

/-- One record is sent, whatever becomes of it. -/
theorem sent_writePlugin (s : PassState) :
    ((pass.writePlugin desc name params supplied).runOn s).2.sent =
      s.sent ++ [pass.pluginRecord desc name params supplied] := by
  rw [writePlugin_runOn]
  rcases writeRecord_cases pass (pass.pluginRecord desc name params supplied)
    { s with log := s.log ++ pass.pluginReports desc params supplied } with hw | ⟨sink, -, hw⟩
  · rw [emit_runOn_ok hw]
    rfl
  · rw [emit_runOn_error hw]

/-- Where the destination takes the record, the step ends well, and the sink has it. -/
theorem writePlugin_taken {s : PassState} (hrefuses : pass.refuses s.sent.length = false)
    (hwhole : (s.sink.write (.record (pass.pluginRecord desc name params supplied))).2 = true) :
    ∃ t, (pass.writePlugin desc name params supplied).runOn s = (.ok name, t) ∧
      t.sink = (s.sink.write (.record (pass.pluginRecord desc name params supplied))).1 := by
  rw [writePlugin_runOn, emit_runOn, writeRecord_runOn, if_neg (by simp [hrefuses]), if_pos hwhole]
  exact ⟨_, rfl, rfl⟩

/-- **The record of a plugin follows its schema.** For a schema in which no attribute is
declared twice, where no path has to exist: exactly one record is sent, and if the destination
takes it, the step ends well and the sink has it. Its attributes stand in strictly ascending
order. A value is written for an attribute if and only if the attribute is declared, is no
output, and the value is spelled from what is supplied, or, when nothing is supplied and the
parameter is not skipped and needs neither a value nor a link, from the literal of the node, or
else of the schema. Only empty texts, references and lists of objects are not spelled. If the
parameters, the literals and what is supplied are listed in another order, everything is the
same. -/
theorem record_follows_schema (pass : Pass) (hpaths : pass.settings.checkPaths = false)
    (desc : PluginDesc) (hattrs : (desc.params.map (·.attr)).Nodup) (name : String)
    (params : OrderedMap String Value) (supplied : OrderedMap String Resolved) :
    let record := pass.pluginRecord desc name params supplied
    (∀ s, ((pass.writePlugin desc name params supplied).runOn s).2.sent = s.sent ++ [record]) ∧
    (∀ s, pass.refuses s.sent.length = false → (s.sink.write (.record record)).2 = true →
      ∃ t, (pass.writePlugin desc name params supplied).runOn s = (.ok name, t) ∧
        t.sink = (s.sink.write (.record record)).1) ∧
    record.attrs.Pairwise (fun a b => a.1 < b.1) ∧
    (∀ attr value, (attr, value) ∈ record.attrs ↔
      ∃ param ∈ desc.params, param.attr = attr ∧ param.type.isOutput = false ∧
        pass.Fills params supplied param value) ∧
    (∀ param, (∀ v, (pass.spellLiteral param v).value? = none ↔ v.IsBlank) ∧
      ∀ resolved, (pass.spellResolved param resolved).value? = none ↔ resolved.IsBlank) ∧
    ∀ desc' params' supplied', desc'.id = desc.id → desc'.category = desc.category →
      desc'.params.Perm desc.params → params'.entries.Perm params.entries →
      supplied'.entries.Perm supplied.entries →
      pass.pluginRecord desc' name params' supplied' = record ∧
        pass.writePlugin desc' name params' supplied' =
          pass.writePlugin desc name params supplied := by
  intro record
  refine ⟨sent_writePlugin, fun s hrefuses hwhole => writePlugin_taken hrefuses hwhole,
    ascending_attrs hattrs, fun attr value => mem_attrs_pluginRecord,
    fun param => ⟨value?_spellLiteral hpaths param, value?_spellResolved hpaths param⟩, ?_⟩
  intro desc' params' supplied' hid hcategory hparams hliterals hsupplied
  have hwrite : pass.writePlugin desc' name params' supplied' =
      pass.writePlugin desc name params supplied :=
    writePlugin_congr hattrs hid hcategory hparams hliterals hsupplied
  refine ⟨?_, hwrite⟩
  -- the record is the one thing that the step sends
  have hsent : ((pass.writePlugin desc' name params' supplied').runOn {}).2.sent =
      [pass.pluginRecord desc' name params' supplied'] := sent_writePlugin {}
  rw [hwrite, sent_writePlugin] at hsent
  simpa [record] using hsent.symm

/-- A schema with parameters of all sorts, not in the order of their names. -/
def marble : PluginDesc where
  id := "TexMarble"
  category := .texture
  params := [⟨"zoom", .int, none, false, none⟩, ⟨"amount", .int, none, false, some (.int 1)⟩,
    ⟨"color_tex", .texture, none, false, some (.int 4)⟩,
    ⟨"out_color", .outputTexture, none, false, none⟩, ⟨"layers", .list, none, false, none⟩,
    ⟨"hidden", .int, none, true, some (.int 5)⟩,
    ⟨"label", .string, none, false, some (.string "vein")⟩,
    ⟨"file", .string, some .file, false, none⟩]

/-- A pass over an empty scene. -/
def marblePass : Pass where
  scene := {}
  catalog := {}
  settings := {}
  geometry := .external
  frame := 1

/-- The literals of a node. The first two are there for attributes that take none. -/
def marbleLiterals : OrderedMap String Value :=
  .ofList [("out_color", .int 6), ("color_tex", .int 7), ("zoom", .int 2), ("label", .string "grain"),
    ("file", .path "//a\\b")]

/-- What the sockets supply. The empty text is there in place of a label. -/
def marbleSupply : OrderedMap String Resolved :=
  .ofList [("label", .literal (.string "")), ("out_color", .reference "Other"),
    ("layers", .objects ["OBCube", "OBBall"])]

theorem record_follows_schema_marble :
    marblePass.settings.checkPaths = false ∧ (marble.params.map (·.attr)).Nodup ∧
    let record := marblePass.pluginRecord marble "Marble" marbleLiterals marbleSupply
    record.attrs.map Prod.fst = ["amount", "file", "layers", "zoom"] ∧
      record.attrs.Pairwise (fun a b => a.1 < b.1) ∧
      (∃ t, (marblePass.writePlugin marble "Marble" marbleLiterals marbleSupply).runOn {} =
        (.ok "Marble", t) ∧ t.sink.recordList = [record]) ∧
      marblePass.pluginRecord { marble with params := marble.params.reverse } "Marble"
        (.ofList marbleLiterals.entries.reverse) (.ofList marbleSupply.entries.reverse) = record := by
  have hpaths : marblePass.settings.checkPaths = false := rfl
  have hattrs : (marble.params.map (·.attr)).Nodup := by decide
  obtain ⟨-, htaken, hascending, -, -, horder⟩ := record_follows_schema marblePass hpaths marble
    hattrs "Marble" marbleLiterals marbleSupply
  have hliterals : (OrderedMap.ofList marbleLiterals.entries.reverse).entries.Perm
      marbleLiterals.entries := by
    have hreverse : (OrderedMap.ofList marbleLiterals.entries.reverse).entries =
        marbleLiterals.entries.reverse := by decide
    exact hreverse ▸ List.reverse_perm _
  have hsupplied : (OrderedMap.ofList marbleSupply.entries.reverse).entries.Perm
      marbleSupply.entries := by
    have hreverse : (OrderedMap.ofList marbleSupply.entries.reverse).entries =
        marbleSupply.entries.reverse := by decide
    exact hreverse ▸ List.reverse_perm _
  refine ⟨hpaths, hattrs, by decide +kernel, hascending, ?_,
    (horder { marble with params := marble.params.reverse } _ _ rfl rfl (List.reverse_perm _)
      hliterals hsupplied).1⟩
  obtain ⟨t, ht, hsink⟩ := htaken {} rfl rfl
  refine ⟨t, ht, ?_⟩
  rw [hsink]
  rfl

end Pass

end ShadeNet
