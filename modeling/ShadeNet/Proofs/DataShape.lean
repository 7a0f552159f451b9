/-
# Data of a shape, and values that they keep

Data are of a shape if they are built as the shape says: the fields of a structure are known to it,
a choice is one of its variants, a row has its members, and no number is none. A format of documents
reads back what it writes if this holds of all data of a shape that is not too deep. It does so if
it follows a grammar: the writer and the reader agree with it on what a document stands for.

Data keep a value if they are of its shape and the value is made of them again. What is built of
data that keep their values keeps the whole: an optional value, a list, a map with its order, a
structure with all of its fields.

Key definitions: `Shape.Fits`, `Ron.ReadsBack`, `Ron.Follows`, `Keeps`.
Key theorems: `OrderedMap.ofList_entries`, `Keeps.option`, `Keeps.list`, `Keeps.map`,
`Keeps.struct`.
-/
import Mathlib.Data.List.Forall2
import ShadeNet.Document.Data
import ShadeNet.Document.Token
import ShadeNet.Text.Word

namespace ShadeNet

namespace OrderedMap

variable {κ α : Type} [DecidableEq κ]

theorem setEntry_of_notMem {key : κ} {value : α} : ∀ {es : List (κ × α)},
    key ∉ es.map Prod.fst → setEntry key value es = es ++ [(key, value)]
  | [], _ => rfl
  | (k, a) :: rest, h => by
    obtain ⟨hne, hrest⟩ := not_or.mp (mt List.mem_cons.mpr h)
    rw [setEntry, if_neg fun heq => hne heq.symm, setEntry_of_notMem hrest]
    rfl

/-- Entries with new keys go to the end, in their order. -/
theorem entries_extend {m : OrderedMap κ α} {es : List (κ × α)}
    (h : ((m.entries ++ es).map Prod.fst).Nodup) : (m.extend es).entries = m.entries ++ es := by
  induction es generalizing m with
  | nil => exact (List.append_nil _).symm
  | cons e es ih =>
    have hnew : e.1 ∉ m.entries.map Prod.fst := by
      rw [List.map_append, List.map_cons] at h
      exact fun hmem => (List.nodup_append.mp h).2.2 _ hmem _ List.mem_cons_self rfl
    have hentries : (m.insert e.1 e.2).entries = m.entries ++ [e] := setEntry_of_notMem hnew
    have hrest : ((m.insert e.1 e.2).extend es).entries = (m.insert e.1 e.2).entries ++ es :=
      ih (by simpa [hentries] using h)
    rw [hentries, List.append_assoc] at hrest
    exact hrest

/-- A map is made again of its entries. -/
theorem ofList_entries (m : OrderedMap κ α) : ofList m.entries = m := by
  have hnodup : (((∅ : OrderedMap κ α).entries ++ m.entries).map Prod.fst).Nodup := by
    simpa [entries_empty] using m.keys_nodup
  exact ext ((entries_extend hnodup).trans (List.nil_append _))

end OrderedMap

namespace Document

/-! ### Data of a shape -/

/-- Whether characters make up a word. -/
def isWord : List Char → Bool
  | [] => false
  | c :: rest => isWordStart c && rest.all isWordContinue

/-- Whether a word may stand on its own, as the name of a field for example. -/
def isName (word : String) : Bool := isWord word.toList && word != presentWord

/-- Whether names are words that tell what they stand for apart. -/
def areNames (names : List String) : Bool := names.Nodup && names.all isName

/-- Fields are known and stand once. -/
structure AreFields (known : List (String × Shape)) (fields : Fields) : Prop where
  /-- The known names. -/
  names : areNames (known.map Prod.fst) = true
  /-- No field stands twice. -/
  nodup : (fields.map Prod.fst).Nodup
  /-- All fields are known. -/
  known : ∀ f ∈ fields, f.1 ∈ known.map Prod.fst

/-- Data are of a shape. -/
inductive Shape.Fits : Shape → Data → Prop
  | bool (b : Bool) : Fits .bool (.bool b)
  | int (i : Int32) : Fits .int (.int i)
  | single {x : Single} (h : x.isNaN = false) : Fits .single (.single x)
  | text (s : String) : Fits .text (.text s)
  | absent (shape : Shape) : Fits (.option shape) .absent
  | present {shape : Shape} {value : Data} (h : Fits shape value) :
    Fits (.option shape) (.present value)
  | list {shape : Shape} {values : List Data} (h : ∀ value ∈ values, Fits shape value) :
    Fits (.list shape) (.list values)
  | map {shape : Shape} {entries : List (String × Data)} (h : ∀ e ∈ entries, Fits shape e.2) :
    Fits (.map shape) (.map entries)
  | tuple {shapes : List Shape} {values : List Data} (hne : values ≠ [])
    (hlength : shapes.length = values.length)
    (h : ∀ pair ∈ shapes.zip values, Fits pair.1 pair.2) : Fits (.tuple shapes) (.tuple values)
  | struct {name : String} {known : List (String × Shape)} {fields : Fields}
    (hname : isName name = true) (hfields : AreFields known fields)
    (h : ∀ f ∈ fields, ∀ shape, (f.1, shape) ∈ known → Fits shape f.2) :
    Fits (.struct name known) (.struct name fields)
  | wrapped {name : String} {shape : Shape} {value : Data} (hname : isName name = true)
    (h : Fits shape value) : Fits (.wrapped name shape) (.wrapped name value)
  | variant {variants : List (String × Content)} {name : String}
    (hnames : areNames (variants.map Prod.fst) = true) (hmem : (name, .nothing) ∈ variants) :
    Fits (.choice variants) (.variant name)
  | variantOf {variants : List (String × Content)} {name : String} {shape : Shape} {value : Data}
    (hnames : areNames (variants.map Prod.fst) = true) (hmem : (name, .value shape) ∈ variants)
    (h : Fits shape value) : Fits (.choice variants) (.variantOf name value)
  | variantWith {variants : List (String × Content)} {name : String}
    {known : List (String × Shape)} {fields : Fields}
    (hnames : areNames (variants.map Prod.fst) = true) (hmem : (name, .fields known) ∈ variants)
    (hfields : AreFields known fields)
    (h : ∀ f ∈ fields, ∀ shape, (f.1, shape) ∈ known → Fits shape f.2) :
    Fits (.choice variants) (.variantWith name fields)

mutual

/-- How deep data of a shape may be. -/
def Shape.levels : Shape → Nat
  | .bool | .int | .single | .text => 1
  | .option shape | .list shape | .map shape | .wrapped _ shape => shape.levels + 1
  | .tuple shapes => rowLevels shapes + 1
  | .struct _ known => fieldLevels known + 1
  | .choice variants => variantLevels variants + 1

/-- How deep the members of a row may be. -/
def rowLevels : List Shape → Nat
  | [] => 0
  | shape :: shapes => max shape.levels (rowLevels shapes)

/-- How deep fields may be. -/
def fieldLevels : List (String × Shape) → Nat
  | [] => 0
  | (_, shape) :: known => max shape.levels (fieldLevels known)

/-- How deep what stands behind the names of a choice may be. -/
def variantLevels : List (String × Content) → Nat
  | [] => 0
  | (_, content) :: variants => max content.levels (variantLevels variants)

/-- How deep what stands behind a name may be. -/
def Content.levels : Content → Nat
  | .nothing => 0
  | .value shape => shape.levels
  | .fields known => fieldLevels known

end

/-- A format reads back what it writes: data of a shape, as long as they cannot be too deep. -/
def Ron.ReadsBack (ron : Ron) : Prop :=
  ∀ (named : Bool) (shape : Shape) (data : Data), shape.levels ≤ 32 → shape.Fits data →
    ron.read? shape (ron.write named data) = some data

/-- A format follows a grammar, which tells what documents stand for: what is written for data
stands for them, and data are read in every document that stands for them. -/
structure Ron.Follows (ron : Ron) (grammar : Data → String → Prop) : Prop where
  /-- What is written for data stands for them. -/
  writes : ∀ (named : Bool) (shape : Shape) (data : Data), shape.levels ≤ 32 → shape.Fits data →
    grammar data (ron.write named data)
  /-- Data are read in every document that stands for them. -/
  reads : ∀ (shape : Shape) (data : Data) (document : String), shape.levels ≤ 32 →
    shape.Fits data → grammar data document → ron.read? shape document = some data

/-- A format that follows a grammar reads back what it writes. -/
theorem Ron.Follows.readsBack {ron : Ron} {grammar : Data → String → Prop}
    (h : ron.Follows grammar) : ron.ReadsBack := fun named shape data hlevels hfits =>
  h.reads shape data _ hlevels hfits (h.writes named shape data hlevels hfits)

/-! ### Values that data keep -/

variable {α : Type}

/-- Data keep a value: they are of the shape that is wanted, and the value is made of them. -/
structure Keeps (shape : Shape) (make : Data → Option α) (data : Data) (a : α) : Prop where
  /-- The data are of the shape. -/
  fits : shape.Fits data
  /-- The value is made of them. -/
  makes : make data = some a

theorem keeps_bool (b : Bool) : Keeps .bool Data.bool? (.bool b) b := ⟨.bool b, rfl⟩

theorem keeps_int (i : Int32) : Keeps .int Data.int? (.int i) i := ⟨.int i, rfl⟩

theorem keeps_single {x : Single} (h : x.isNaN = false) :
    Keeps .single Data.single? (.single x) x := ⟨.single h, rfl⟩

theorem keeps_text (s : String) : Keeps .text Data.text? (.text s) s := ⟨.text s, rfl⟩

variable {shape : Shape} {make : Data → Option α} {data : α → Data}

theorem Keeps.option {o : Option α} (h : ∀ a ∈ o, Keeps shape make (data a) a) :
    Keeps (.option shape) (Data.option? make) (Data.ofOption data o) o := by
  cases o with
  | none => exact ⟨.absent shape, rfl⟩
  | some a =>
    obtain ⟨hfits, hmakes⟩ := h a rfl
    refine ⟨.present hfits, ?_⟩
    rw [Data.ofOption, Data.option?, hmakes, Option.map_some]

theorem keeps_optionText (o : Option String) :
    Keeps (.option .text) (Data.option? Data.text?) (Data.ofOption .text o) o :=
  Keeps.option fun s _ => keeps_text s

theorem readAll_map {β γ : Type} {read : β → Option γ} {f : α → β} {g : α → γ} {values : List α}
    (h : ∀ a ∈ values, read (f a) = some (g a)) :
    readAll read (values.map f) = some (values.map g) := by
  induction values with
  | nil => rfl
  | cons a values ih =>
    obtain ⟨ha, hvalues⟩ := List.forall_mem_cons.mp h
    simp [readAll, ha, ih hvalues]

/-- A list keeps what its members keep, which need not be what they are data of. -/
theorem Keeps.listMap {β : Type} {data : β → Data} {f : β → α} {values : List β}
    (h : ∀ b ∈ values, Keeps shape make (data b) (f b)) :
    Keeps (.list shape) (Data.list? make) (Data.ofList data values) (values.map f) := by
  refine ⟨.list fun value hvalue => ?_, readAll_map fun b hb => (h b hb).makes⟩
  obtain ⟨b, hb, rfl⟩ := List.mem_map.mp hvalue
  exact (h b hb).fits

theorem Keeps.list {values : List α} (h : ∀ a ∈ values, Keeps shape make (data a) a) :
    Keeps (.list shape) (Data.list? make) (Data.ofList data values) values := by
  have hmap := Keeps.listMap (f := id) h
  rwa [List.map_id] at hmap

/-- A map keeps its entries and their order. -/
theorem Keeps.map {values : OrderedMap String α}
    (h : ∀ a ∈ values.values, Keeps shape make (data a) a) :
    Keeps (.map shape) (Data.map? make) (Data.ofMap data values) values := by
  have hentry : ∀ e ∈ values.entries, Keeps shape make (data e.2) e.2 := fun e he =>
    h e.2 (List.mem_map_of_mem he)
  refine ⟨.map fun e he => ?_, ?_⟩
  · obtain ⟨e, hmem, rfl⟩ := List.mem_map.mp he
    exact (hentry e hmem).fits
  · have hall : readAll (fun e => (make e.2).map fun a => (e.1, a))
        (values.entries.map fun e => (e.1, data e.2)) = some (values.entries.map id) :=
      readAll_map fun e he => by rw [(hentry e he).makes]; rfl
    rw [List.map_id] at hall
    rw [Data.ofMap, Data.map?, hall, Option.map_some, OrderedMap.ofList_entries]

/-- A choice that goes by its name. -/
theorem keeps_choice {choices : List α} {name : α → String} {a : α} (hmem : a ∈ choices)
    (hinj : ∀ b ∈ choices, name b = name a → b = a)
    (hnames : areNames (choices.map name) = true) :
    Keeps (.names (choices.map name)) (Data.choice? choices name) (.variant (name a)) a := by
  refine ⟨.variant ?_ ?_, ?_⟩
  · rw [List.map_map, List.map_map]
    exact hnames
  · exact List.mem_map.mpr ⟨name a, List.mem_map_of_mem hmem, rfl⟩
  · rw [Data.choice?]
    cases hfind : choices.find? fun b => name b = name a with
    | none => exact absurd (decide_eq_true rfl) (List.find?_eq_none.mp hfind a hmem)
    | some b =>
      have heq : name b = name a := by simpa using List.find?_some hfind
      rw [hinj b (List.mem_of_find?_eq_some hfind) heq]

/-! ### Structures -/

theorem mem_unique_of_nodup {β : Type} {es : List (String × β)} (h : (es.map Prod.fst).Nodup)
    {name : String} {b c : β} (hb : (name, b) ∈ es) (hc : (name, c) ∈ es) : b = c :=
  Option.some.inj ((OrderedMap.lookupEntry_of_mem h hb).symm.trans
    (OrderedMap.lookupEntry_of_mem h hc))

/-- Fields stand in the order in which they are known, and each is of its shape. -/
def FitEach (known : List (String × Shape)) (fields : Fields) : Prop :=
  List.Forall₂ (fun k f => f.1 = k.1 ∧ k.2.Fits f.2) known fields

theorem fits_fields {known : List (String × Shape)} {fields : Fields}
    (hnames : areNames (known.map Prod.fst) = true) (h : FitEach known fields) :
    AreFields known fields ∧ ∀ f ∈ fields, ∀ shape, (f.1, shape) ∈ known → shape.Fits f.2 := by
  have hsame : fields.map Prod.fst = known.map Prod.fst := by
    clear hnames
    induction h with
    | nil => rfl
    | cons hfirst _ ih => rw [List.map_cons, List.map_cons, hfirst.1, ih]
  have hnodup : (known.map Prod.fst).Nodup :=
    of_decide_eq_true (Bool.and_eq_true_iff.mp hnames).1
  refine ⟨⟨hnames, hsame ▸ hnodup, fun f hf => hsame ▸ List.mem_map_of_mem hf⟩, ?_⟩
  intro f hf shape hshape
  obtain ⟨k, hk, hname, hfits⟩ : ∃ k ∈ known, f.1 = k.1 ∧ k.2.Fits f.2 := by
    clear hnames hsame hnodup hshape
    induction h with
    | nil => cases hf
    | cons hfirst _ ih =>
      rcases List.mem_cons.mp hf with rfl | hf
      · exact ⟨_, List.mem_cons_self, hfirst⟩
      · obtain ⟨k, hk, hrest⟩ := ih hf
        exact ⟨k, List.mem_cons_of_mem _ hk, hrest⟩
  rw [hname] at hshape
  exact mem_unique_of_nodup hnodup hshape hk ▸ hfits

/-- A structure with all of its fields keeps the value that is made of them. -/
theorem Keeps.struct {name : String} {known : List (String × Shape)} {fields : Fields} {a : α}
    (hname : isName name = true) (hnames : areNames (known.map Prod.fst) = true)
    (h : FitEach known fields) (hmakes : make (.struct name fields) = some a) :
    Keeps (.struct name known) make (.struct name fields) a := by
  obtain ⟨hfields, hfits⟩ := fits_fields hnames h
  exact ⟨.struct hname hfields hfits, hmakes⟩

end Document

end ShadeNet
