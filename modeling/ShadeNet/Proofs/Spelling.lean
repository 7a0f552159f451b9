/-
# How the values of a plugin's record are spelled

A parameter is written with a string in quotes, with another literal, with a token or with a list
of tokens. A text stands without quotes only where a socket supplies it for a parameter that takes
references. All that is said about the attributes of a plugin's record goes back to these cases.

Key definitions: `Pass.Spells`.
Key theorems: `spells_of_written`, `spells_of_mem_attrs`.
-/
import ShadeNet.Network.Attribute

namespace ShadeNet

variable {pass : Pass} {params : OrderedMap String Value} {supplied : OrderedMap String Resolved}
  {param : ParamDesc} {value : String}

/-- Which text a parameter is written with, and what it is made of. -/
inductive Pass.Spells (pass : Pass) (params : OrderedMap String Value)
    (supplied : OrderedMap String Resolved) (param : ParamDesc) : String → Prop
  /-- A string in quotes, which may be a path. -/
  | quoted (s : String) : Spells pass params supplied param (quote s)
  /-- A text from a socket as it is, for a parameter that takes references. -/
  | unquoted {v : Value} {text : String} : supplied.get? param.attr = some (.literal v) →
    v = .string text ∨ v = .path text → param.type.isReference = true →
    Spells pass params supplied param text
  /-- A literal that is no text: from a socket, of the node or of the schema. -/
  | literal {v : Value} : v.type ≠ .string →
    supplied.get? param.attr = some (.literal v) ∨
      (params.get? param.attr).or param.literal = some v →
    Spells pass params supplied param (pass.literalText v)
  /-- The token that a socket supplies. -/
  | reference {token : String} : supplied.get? param.attr = some (.reference token) → token ≠ "" →
    Spells pass params supplied param token
  /-- The tokens that a socket supplies. -/
  | objects {tokens : List String} : supplied.get? param.attr = some (.objects tokens) →
    tokens ≠ [] → Spells pass params supplied param (listText .references tokens)

/-- A parameter that is written without a link is no reference. -/
theorem isReference_of_not_needsSupply (h : param.needsSupply = false) :
    param.type.isReference = false := by
  simp only [ParamDesc.needsSupply, ParamDesc.isSkipped, Bool.or_eq_false_iff] at h
  generalize param.type = type at h
  cases type <;> simp_all [ParamType.needsValue, ParamType.needsLink, ParamType.isReference]

/-- A text is quoted unless the parameter takes references. -/
theorem quoted_of_spellText {isPath : Bool} {text : String}
    (h : pass.spellText param isPath text = .written value) :
    (param.type.isReference = true ∧ value = text) ∨ ∃ s, value = quote s := by
  unfold Pass.spellText at h
  split at h
  · cases h
  · split at h
    · exact Or.inl ⟨‹_›, (Spelling.written.inj h).symm⟩
    · refine Or.inr ?_
      split at h
      · simp only at h
        split at h
        · cases h
        · exact ⟨_, (Spelling.written.inj h).symm⟩
      · exact ⟨_, (Spelling.written.inj h).symm⟩

/-- A literal that is a text is written as one, and any other as it is. -/
theorem literalText_of_spellLiteral {v : Value} (h : pass.spellLiteral param v = .written value) :
    (param.type.isReference = true ∧ (v = .string value ∨ v = .path value)) ∨
      (∃ s, value = quote s) ∨ v.type ≠ .string ∧ value = pass.literalText v := by
  unfold Pass.spellLiteral at h
  split at h
  · rcases quoted_of_spellText h with ⟨hreference, rfl⟩ | hquoted
    · exact Or.inl ⟨hreference, Or.inl rfl⟩
    · exact Or.inr (Or.inl hquoted)
  · rcases quoted_of_spellText h with ⟨hreference, rfl⟩ | hquoted
    · exact Or.inl ⟨hreference, Or.inr rfl⟩
    · exact Or.inr (Or.inl hquoted)
  · refine Or.inr (Or.inr ⟨?_, (Spelling.written.inj h).symm⟩)
    cases v <;> simp_all [Value.type]

/-- A parameter that is written is written in one of these ways. -/
theorem spells_of_written (h : pass.spellParam params supplied param = .written value) :
    pass.Spells params supplied param value := by
  unfold Pass.spellParam at h
  split at h
  · cases h
  · cases hs : supplied.get? param.attr with
    | some resolved =>
      simp only [hs] at h
      cases resolved with
      | literal v =>
        rcases literalText_of_spellLiteral h with ⟨hreference, hv⟩ | ⟨s, rfl⟩ | ⟨hv, rfl⟩
        · exact .unquoted hs hv hreference
        · exact .quoted s
        · exact .literal hv (Or.inl hs)
      | reference token =>
        simp only [Pass.spellResolved] at h
        split at h
        · cases h
        · cases h
          exact .reference hs ‹_›
      | objects tokens =>
        simp only [Pass.spellResolved] at h
        split at h
        · cases h
        · cases h
          exact .objects hs ‹_›
    | none =>
      simp only [hs] at h
      split at h
      · cases h
      · rename_i hneeds
        have hreference := isReference_of_not_needsSupply (by simpa using hneeds)
        split at h
        · rename_i v hv
          rcases literalText_of_spellLiteral h with ⟨htaken, -⟩ | ⟨s, rfl⟩ | ⟨htype, rfl⟩
          · rw [hreference] at htaken
            cases htaken
          · exact .quoted s
          · exact .literal htype (Or.inr hv)
        · cases h

/-- An attribute of a plugin's record is one of the parameters of the plugin. -/
theorem spells_of_mem_attrs {desc : PluginDesc} {name : String} {a : String × String}
    (h : a ∈ (pass.pluginRecord desc name params supplied).attrs) :
    ∃ param ∈ desc.params, a.1 = param.attr ∧ pass.Spells params supplied param a.2 := by
  obtain ⟨param, hparam, ha⟩ := List.mem_filterMap.mp h
  obtain ⟨value, hvalue, rfl⟩ := Option.map_eq_some_iff.mp ha
  refine ⟨param, PluginDesc.mem_sortedParams.mp hparam, rfl, spells_of_written ?_⟩
  cases hspell : pass.spellParam params supplied param <;> rw [hspell] at hvalue <;> cases hvalue
  rfl

end ShadeNet
