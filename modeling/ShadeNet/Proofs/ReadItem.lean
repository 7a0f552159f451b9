/-
# What is written for data is read back

The item of data is laid out as it is written, and the reader of their shape finds the data in it,
wherever it stands in a document that asks for no extensions. This goes by how data are built of
data, one case for each way. The fields of a structure are found by their names, whatever their
order is. So any layout of what is written is read as the data.

Key definitions: `ReadsAs`, `StandsFor`.
Key theorems: `readKnown_fields`, `readField_eq`, `Shape.Fits.readsAs`, `ron_follows`.
-/
import ShadeNet.Document.Ron
import ShadeNet.Proofs.DataShape
import ShadeNet.Proofs.Layout

namespace ShadeNet.Document

/-! ### Words -/

theorem prints_name {word : String} (h : isName word = true) : (wordItem word).Prints := by
  obtain ⟨hword, hne⟩ := Bool.and_eq_true_iff.mp h
  exact Item.prints_word hword (bne_iff_ne.mp hne)

/-- Words have nothing in front that is no part of the name. -/
theorem plainName_of_isName {word : String} (h : isName word = true) : plainName word = word := by
  unfold plainName
  split
  · rename_i heq
    obtain ⟨c, rest, htext, -, hrest⟩ := exists_of_isWord (Bool.and_eq_true_iff.mp h).1
    rw [heq] at htext
    cases htext
    exact absurd (hrest '#' List.mem_cons_self) (by decide)
  · rfl

/-! ### Plain data -/

theorem prints_bool (b : Bool) : (boolItem b).Prints := by
  cases b <;> exact prints_name (by decide)

theorem readBool_boolItem (b : Bool) (p : Place) : readBool p (boolItem b) = some b := by
  cases b <;> rfl

theorem isRawWordChar_of_isDigit {c : Char} (h : c.isDigit = true) : isRawWordChar c = true := by
  have hlt : c.toNat < 0x80 := by
    have := ((isDigit_iff c).mp h).2
    omega
  have hword : isWordContinue c = true := by
    rw [isWordContinue, if_pos hlt, Char.isAlphanum, h, Bool.or_true, Bool.true_or]
  rw [isRawWordChar, hword]
  rfl

/-- Digits with a sign in front, and what goes on from them, are a numeral. -/
theorem isNumeralText_append {sign digits rest : List Char} (hsign : sign ∈ [[], ['+'], ['-']])
    (hne : digits ≠ []) (hdigits : ∀ c ∈ digits, c.isDigit = true)
    (hrest : ∀ c ∈ rest, isRawWordChar c = true) :
    isNumeralText (sign ++ (digits ++ rest)) = true := by
  obtain ⟨d, digits, rfl⟩ := List.exists_cons_of_ne_nil hne
  obtain ⟨hd, hdigits⟩ := List.forall_mem_cons.mp hdigits
  have hstart : isNumeralStart d = true := by
    have hdigit : isDecimalDigit d = true := hd
    simp [isNumeralStart, hdigit]
  have htail : (digits ++ rest).all isRawWordChar = true := by
    rw [List.all_append, Bool.and_eq_true, List.all_eq_true, List.all_eq_true]
    exact ⟨fun c hc => isRawWordChar_of_isDigit (hdigits c hc), hrest⟩
  simp only [List.mem_cons, List.not_mem_nil, or_false] at hsign
  rcases hsign with rfl | rfl | rfl
  · simp [isNumeralText, hstart, htail]
  all_goals
    have hraw := isRawWordChar_of_isDigit hd
    simp [isNumeralText, hraw, htail, isNumeralStart]

theorem isNumeralText_of_isSignedNumeral {cs : List Char} {value : Int}
    (h : IsSignedNumeral cs value) : isNumeralText cs = true := by
  obtain ⟨sign, digits, rfl, hne, hdigits, hvalue⟩ := h
  have hsign : sign ∈ [[], ['+'], ['-']] := by
    rcases hvalue with ⟨hsign, -⟩ | ⟨rfl, -⟩
    · exact List.mem_append_left [['-']] hsign
    · simp
  have htext : isNumeralText (sign ++ (digits ++ [])) = true :=
    isNumeralText_append hsign hne hdigits (by simp)
  rwa [List.append_nil] at htext

theorem prints_int32 (i : Int32) : (int32Item i).Prints :=
  Item.prints_numeral (isNumeralText_of_isSignedNumeral (isSignedNumeral_toString i.toInt))

theorem prints_single {x : Single} (h : x.isNaN = false) : (singleItem x).Prints := by
  unfold singleItem
  cases hfinite : x.isFinite with
  | true =>
    obtain ⟨whole, places, -, htext, hne, hwhole, hplaces, -⟩ := x.decimal.toList_text
    have hrest : ∀ c ∈ '.' :: places, isRawWordChar c = true :=
      List.forall_mem_cons.mpr ⟨by decide, fun c hc => isRawWordChar_of_isDigit (hplaces c hc)⟩
    refine Item.prints_numeral ?_
    rw [Single.toList_numeral hfinite, htext]
    refine isNumeralText_append ?_ hne hwhole hrest
    unfold signText
    split <;> simp
  | false =>
    rw [Single.numeral, h, if_neg Bool.false_ne_true, hfinite, Bool.not_false, if_pos rfl,
      Bool.false_or]
    cases x.negative
    · exact prints_name (by decide)
    · exact Item.prints_numeral (by decide)

/-! ### Data of a shape -/

/-- Data are read as they are written. -/
structure ReadsAs (named : Bool) (shape : Shape) (data : Data) : Prop where
  /-- What is written is a layout of the item. -/
  prints : (data.toItem named).Prints
  /-- The data are found in the item. -/
  reads : ∀ p : Place, p.extensions = {} → readData shape p (data.toItem named) = some data

theorem Item.Prints.only? {item : Item} (h : item.Prints) : Item.only? [item] = some item := by
  obtain ⟨tokens, hrow, -⟩ := h 0
  cases hrow <;> rfl

variable {named : Bool} {shape : Shape} {value : Data}

/-- Data on their own in brackets. -/
theorem ReadsAs.only (h : ReadsAs named shape value) {p : Place} (hp : p.extensions = {}) :
    (Item.only? [value.toItem named]).bind (readData shape p) = some value := by
  rw [h.prints.only?, Option.bind_some, h.reads p hp]

theorem dataItems_eq (named : Bool) (values : List Data) :
    dataItems named values = values.map (Data.toItem named) := by
  induction values with
  | nil => rfl
  | cons value values ih => rw [dataItems, ih, List.map_cons]

theorem entryItems_eq (named : Bool) (key : String → Item) (entries : List (String × Data)) :
    entryItems named key entries = entries.map fun e => .pair (key e.1) (e.2.toItem named) := by
  induction entries with
  | nil => rfl
  | cons e entries ih => rw [entryItems, ih, List.map_cons]

theorem readRow_items {shapes : List Shape} {values : List Data}
    (hlength : shapes.length = values.length)
    (h : ∀ pair ∈ shapes.zip values, ReadsAs named pair.1 pair.2) {p : Place}
    (hp : p.extensions = {}) : readRow shapes p (dataItems named values) = some values := by
  induction shapes generalizing values with
  | nil =>
    rw [List.eq_nil_of_length_eq_zero hlength.symm]
    rfl
  | cons shape shapes ih =>
    cases values with
    | nil => cases hlength
    | cons value values =>
      obtain ⟨hfirst, hrest⟩ := List.forall_mem_cons.mp h
      simp [dataItems, readRow, hfirst.reads p hp, ih (Nat.succ.inj hlength) hrest]

/-- All values of a row are written as they are laid out. -/
theorem prints_row_values {shapes : List Shape} {values : List Data}
    (hlength : shapes.length = values.length)
    (h : ∀ pair ∈ shapes.zip values, ReadsAs named pair.1 pair.2) :
    ∀ m ∈ dataItems named values, m.PrintsMember := by
  rw [dataItems_eq]
  intro m hm
  obtain ⟨value, hvalue, rfl⟩ := List.mem_map.mp hm
  obtain ⟨i, hi, rfl⟩ := List.getElem_of_mem hvalue
  have hpair : (shapes[i], values[i]) ∈ shapes.zip values :=
    List.mem_of_getElem (i := i) (h := by simp [hlength, hi]) (by simp)
  exact (h _ hpair).prints.member

/-! ### Fields -/

theorem prints_named {name : String} {members : List Item} (hname : isName name = true)
    (h : ∀ m ∈ members, m.PrintsMember) : (Item.group (some name) .round members).Prints := by
  obtain ⟨hword, hne⟩ := Bool.and_eq_true_iff.mp hname
  exact Item.prints_named hword (bne_iff_ne.mp hne) h

/-- A field is read by its own shape. -/
theorem readField_eq {known : List (String × Shape)} (hnodup : (known.map Prod.fst).Nodup)
    {name : String} (hmem : (name, shape) ∈ known) (p : Place) (item : Item) :
    readField known name p item = readData shape p item := by
  induction known with
  | nil => cases hmem
  | cons k known ih =>
    obtain ⟨hnew, hnodup⟩ := List.nodup_cons.mp hnodup
    rcases List.mem_cons.mp hmem with rfl | hmem
    · rw [readField, if_pos rfl]
    · have hne : k.1 ≠ name := fun heq => hnew (heq ▸ List.mem_map_of_mem (f := Prod.fst) hmem)
      rw [readField, if_neg hne, ih hnodup hmem]

/-- A choice is read by what stands behind its name. -/
theorem readVariant_eq {variants : List (String × Content)}
    (hnodup : (variants.map Prod.fst).Nodup) {name : String} {content : Content}
    (hmem : (name, content) ∈ variants) (p : Place) (item : Item) :
    readVariant variants name p item = readContent content name p item := by
  induction variants with
  | nil => cases hmem
  | cons v variants ih =>
    obtain ⟨hnew, hnodup⟩ := List.nodup_cons.mp hnodup
    rcases List.mem_cons.mp hmem with rfl | hmem
    · rw [readVariant, if_pos rfl]
    · have hne : v.1 ≠ name := fun heq => hnew (heq ▸ List.mem_map_of_mem (f := Prod.fst) hmem)
      rw [readVariant, if_neg hne, ih hnodup hmem]

/-- Known fields that stand once are read, in the order in which they stand. -/
theorem readKnown_fields {read : String → Reader Data} {known : List String} {fields : Fields}
    (hnames : ∀ name ∈ known, isName name = true) (hknown : ∀ f ∈ fields, f.1 ∈ known)
    (hnodup : (fields.map Prod.fst).Nodup) {p : Place}
    (hread : ∀ f ∈ fields, read f.1 p (f.2.toItem named) = some f.2) :
    readKnown read known p (entryItems named wordItem fields) = some fields := by
  induction fields with
  | nil => rfl
  | cons f fields ih =>
    obtain ⟨hf, hfields⟩ := List.forall_mem_cons.mp hknown
    obtain ⟨hnew, hnodup⟩ := List.nodup_cons.mp hnodup
    obtain ⟨hvalue, hvalues⟩ := List.forall_mem_cons.mp hread
    have hrest := ih hfields hnodup hvalues
    have hplain := plainName_of_isName (hnames f.1 hf)
    rw [entryItems, wordItem, readKnown, hrest]
    simp only [Option.bind_eq_bind, Option.bind_some, hplain, List.contains_iff_mem, if_pos hf,
      if_neg hnew, hvalue, Option.map_some]

section Fields

variable {known : List (String × Shape)} {fields : Fields} (hfields : AreFields known fields)
  (h : ∀ f ∈ fields, ∀ shape, (f.1, shape) ∈ known → ReadsAs named shape f.2)

include hfields

theorem AreFields.isName {name : String} (hmem : name ∈ known.map Prod.fst) :
    isName name = true :=
  List.all_eq_true.mp (Bool.and_eq_true_iff.mp hfields.names).2 name hmem

include h

theorem AreFields.readsAs {f : String × Data} (hf : f ∈ fields) :
    ∃ shape, (f.1, shape) ∈ known ∧ ReadsAs named shape f.2 := by
  obtain ⟨⟨name, shape⟩, hk, rfl⟩ := List.mem_map.mp (hfields.known f hf)
  exact ⟨shape, hk, h f hf shape hk⟩

theorem AreFields.prints : ∀ m ∈ entryItems named wordItem fields, m.PrintsMember := by
  rw [entryItems_eq]
  intro m hm
  obtain ⟨f, hf, rfl⟩ := List.mem_map.mp hm
  obtain ⟨shape, -, hreads⟩ := hfields.readsAs h hf
  exact (prints_name (hfields.isName (hfields.known f hf))).pair hreads.prints

theorem AreFields.reads {p : Place} (hp : p.extensions = {}) :
    readKnown (readField known) (known.map Prod.fst) p (entryItems named wordItem fields) =
      some fields := by
  refine readKnown_fields (fun name => hfields.isName) hfields.known hfields.nodup fun f hf => ?_
  obtain ⟨shape, hshape, hreads⟩ := hfields.readsAs h hf
  rw [readField_eq (of_decide_eq_true (Bool.and_eq_true_iff.mp hfields.names).1) hshape]
  exact hreads.reads p hp

end Fields

/-! ### Structures and choices -/

theorem isNameFor_written {p : Place} (hp : p.extensions = {}) {name : String}
    (hname : isName name = true) (named : Bool) :
    isNameFor p.extensions name (if named then some name else none) = true := by
  cases named with
  | true =>
    change (plainName name == name) = true
    rw [plainName_of_isName hname, beq_self_eq_true]
  | false => rw [hp]; rfl

/-- Round brackets are written as they are laid out, with a name in front or without. -/
theorem prints_round {name : Option String} {members : List Item}
    (hname : ∀ word ∈ name, isName word = true) (h : ∀ m ∈ members, m.PrintsMember) :
    (roundItem name members).Prints := by
  unfold roundItem
  cases name with
  | some name => exact prints_named (hname name rfl) h
  | none =>
    cases members with
    | nil => exact Item.prints_single rfl fun _ _ => .unit
    | cons m members => exact Item.prints_group h fun _ => List.cons_ne_nil m members

/-- The members of a structure stand in its brackets. -/
theorem structureMembers?_round {p : Place} (hp : p.extensions = {}) {name : String}
    (hname : isName name = true) (named : Bool) (members : List Item) :
    structureMembers? name p (roundItem (if named then some name else none) members) =
      some members := by
  have hwritten := isNameFor_written hp hname named
  unfold roundItem
  cases named with
  | true => exact if_pos hwritten
  | false => cases members <;> exact if_pos hwritten

/-- A wrapped value stands in its brackets. -/
theorem readWrapped_round {α : Type} {read : Reader α} {p : Place} (hp : p.extensions = {})
    {name : String} (hname : isName name = true) (named : Bool) (item : Item) :
    readWrapped name read p (roundItem (if named then some name else none) [item]) =
      (Item.only? [item]).bind (read (p.deeper 1)) := by
  have hbare : p.extensions.bareWrapped = false := by rw [hp]
  have hwritten := isNameFor_written hp hname named
  unfold readWrapped roundItem
  rw [hbare, if_neg Bool.false_ne_true]
  cases named <;> exact if_pos hwritten

/-- A value that stands behind the name of a choice is read as it is elsewhere. -/
theorem readContent_value {p : Place} (hp : p.extensions = {}) (name spelling : String)
    (item : Item) : readContent (.value shape) name p (.group (some spelling) .round [item]) =
      ((Item.only? [item]).bind (readData shape (p.deeper 2))).map (.variantOf name) := by
  have hmerged : p.extensions.mergedWrapped = false := by rw [hp]
  cases shape with
  | tuple shapes =>
    rw [readContent, wrappedRow?, hmerged, if_neg Bool.false_ne_true]
    cases Item.only? [item] with
    | none => rfl
    | some value => simp [readData, Option.map_map, Function.comp_def]
  | _ => rfl

theorem isName_of_variant {variants : List (String × Content)} {name : String} {content : Content}
    (hnames : areNames (variants.map Prod.fst) = true) (hmem : (name, content) ∈ variants) :
    isName name = true :=
  List.all_eq_true.mp (Bool.and_eq_true_iff.mp hnames).2 name
    (List.mem_map_of_mem (f := Prod.fst) hmem)

/-- A choice is found by its name, which stands in front of its content or alone. -/
theorem readData_choice {variants : List (String × Content)} {name : String} {content : Content}
    (hnames : areNames (variants.map Prod.fst) = true) (hmem : (name, content) ∈ variants)
    {item : Item} (hitem : item.choiceName? = some (plainName name)) (p : Place) :
    readData (.choice variants) p item = readContent content name p item := by
  have hnodup := of_decide_eq_true (Bool.and_eq_true_iff.mp hnames).1
  change item.choiceName?.bind (fun name => readVariant variants name p item) = _
  rw [hitem, plainName_of_isName (isName_of_variant hnames hmem), Option.bind_some,
    readVariant_eq hnodup hmem]

/-! ### One way to build data after another -/

namespace ReadsAs

theorem present (h : ReadsAs named shape value) :
    ReadsAs named (.option shape) (.present value) := by
  refine ⟨Item.prints_optional (List.forall_mem_singleton.mpr h.prints.member)
    (List.cons_ne_nil _ _), fun p hp => ?_⟩
  change ((Item.only? [value.toItem named]).bind fun item =>
    (readData shape (p.deeper 1) item).map some).map (Data.ofOption id) = _
  rw [h.prints.only?, Option.bind_some, h.reads (p.deeper 1) hp]
  rfl

theorem list {values : List Data} (h : ∀ value ∈ values, ReadsAs named shape value) :
    ReadsAs named (.list shape) (.list values) := by
  have hitems := dataItems_eq named values
  refine ⟨Item.prints_group (fun m hm => ?_) (by simp), fun p hp => ?_⟩
  · rw [hitems] at hm
    obtain ⟨value, hvalue, rfl⟩ := List.mem_map.mp hm
    exact (h value hvalue).prints.member
  · have hall : readAll (readData shape (p.deeper 2)) (dataItems named values) =
        some (values.map id) := by
      rw [hitems]
      exact readAll_map fun value hvalue => (h value hvalue).reads _ hp
    rw [List.map_id] at hall
    change (readAll (readData shape (p.deeper 2)) (dataItems named values)).map Data.list = _
    rw [hall, Option.map_some]

theorem map {entries : List (String × Data)} (h : ∀ e ∈ entries, ReadsAs named shape e.2) :
    ReadsAs named (.map shape) (.map entries) := by
  have hitems := entryItems_eq named textItem entries
  refine ⟨Item.prints_group (fun m hm => ?_) (by simp), fun p hp => ?_⟩
  · rw [hitems] at hm
    obtain ⟨e, he, rfl⟩ := List.mem_map.mp hm
    exact (Item.prints_text e.1).pair (h e he).prints
  · have hall : readAll (readEntry (readData shape) (p.deeper 2))
        (entryItems named textItem entries) = some (entries.map id) := by
      rw [hitems]
      refine readAll_map fun e he => ?_
      have hvalue := (h e he).reads (p.deeper 2) hp
      simp [readEntry, readText, textItem, hvalue]
    rw [List.map_id] at hall
    change (readAll (readEntry (readData shape) (p.deeper 2))
      (entryItems named textItem entries)).map Data.map = _
    rw [hall, Option.map_some]

theorem tuple {shapes : List Shape} {values : List Data} (hne : values ≠ [])
    (hlength : shapes.length = values.length)
    (h : ∀ pair ∈ shapes.zip values, ReadsAs named pair.1 pair.2) :
    ReadsAs named (.tuple shapes) (.tuple values) := by
  refine ⟨prints_round (by simp) (prints_row_values hlength h), fun p hp => ?_⟩
  have hrow := readRow_items (p := p.deeper 2) hlength h hp
  obtain ⟨value, values, rfl⟩ := List.exists_cons_of_ne_nil hne
  change (readRow shapes (p.deeper 2) (dataItems named (value :: values))).map Data.tuple = _
  rw [hrow, Option.map_some]

/-- The name in front of a structure, if there is one, is its own. -/
theorem name_in_front {name : String} (hname : isName name = true) (named : Bool) :
    ∀ word ∈ (if named then some name else none), isName word = true := by
  intro word hword
  cases named <;> cases hword
  exact hname

theorem struct {name : String} {known : List (String × Shape)} {fields : Fields}
    (hname : isName name = true) (hfields : AreFields known fields)
    (h : ∀ f ∈ fields, ∀ shape, (f.1, shape) ∈ known → ReadsAs named shape f.2) :
    ReadsAs named (.struct name known) (.struct name fields) := by
  refine ⟨prints_round (name_in_front hname named) (hfields.prints h), fun p hp => ?_⟩
  have hread := hfields.reads h (p := p.deeper 2) hp
  change ((structureMembers? name p (roundItem (if named then some name else none)
    (entryItems named wordItem fields))).bind
      (readKnown (readField known) (known.map Prod.fst) (p.deeper 2))).map (Data.struct name) = _
  rw [structureMembers?_round hp hname, Option.bind_some, hread, Option.map_some]

theorem wrapped {name : String} (hname : isName name = true) (h : ReadsAs named shape value) :
    ReadsAs named (.wrapped name shape) (.wrapped name value) := by
  refine ⟨prints_round (name_in_front hname named) (List.forall_mem_singleton.mpr h.prints.member),
    fun p hp => ?_⟩
  change (readWrapped name (readData shape) p (roundItem (if named then some name else none)
    [value.toItem named])).map (Data.wrapped name) = _
  rw [readWrapped_round hp hname, h.only (p := p.deeper 1) hp, Option.map_some]

variable {variants : List (String × Content)} {name : String}

theorem variant (hnames : areNames (variants.map Prod.fst) = true)
    (hmem : (name, .nothing) ∈ variants) : ReadsAs named (.choice variants) (.variant name) :=
  ⟨prints_name (isName_of_variant hnames hmem), fun p _ => readData_choice hnames hmem rfl p⟩

theorem variantOf (hnames : areNames (variants.map Prod.fst) = true)
    (hmem : (name, .value shape) ∈ variants) (h : ReadsAs named shape value) :
    ReadsAs named (.choice variants) (.variantOf name value) := by
  refine ⟨prints_named (isName_of_variant hnames hmem)
    (List.forall_mem_singleton.mpr h.prints.member), fun p hp => ?_⟩
  rw [readData_choice hnames hmem rfl]
  change readContent (.value shape) name p (.group (some name) .round [value.toItem named]) = _
  rw [readContent_value hp, h.only (p := p.deeper 2) hp, Option.map_some]

theorem variantWith {known : List (String × Shape)} {fields : Fields}
    (hnames : areNames (variants.map Prod.fst) = true) (hmem : (name, .fields known) ∈ variants)
    (hfields : AreFields known fields)
    (h : ∀ f ∈ fields, ∀ shape, (f.1, shape) ∈ known → ReadsAs named shape f.2) :
    ReadsAs named (.choice variants) (.variantWith name fields) := by
  refine ⟨prints_named (isName_of_variant hnames hmem) (hfields.prints h), fun p hp => ?_⟩
  have hread := hfields.reads h (p := (p.deeper 1).deeper 2) hp
  rw [readData_choice hnames hmem rfl]
  change (readKnown (readField known) (known.map Prod.fst) ((p.deeper 1).deeper 2)
    (entryItems named wordItem fields)).map (Data.variantWith name) = _
  rw [hread, Option.map_some]

end ReadsAs

/-- Data of a shape are read as they are written. -/
theorem Shape.Fits.readsAs {data : Data} (h : shape.Fits data) (named : Bool) :
    ReadsAs named shape data := by
  induction h with
  | bool b =>
    exact ⟨prints_bool b, fun p _ => congrArg (Option.map Data.bool) (readBool_boolItem b p)⟩
  | int i =>
    exact ⟨prints_int32 i, fun p _ => congrArg (Option.map Data.int) (readInt32_int32Item i p)⟩
  | single hnan =>
    exact ⟨prints_single hnan,
      fun p _ => congrArg (Option.map Data.single) (readSingle_singleItem hnan p)⟩
  | text s => exact ⟨Item.prints_text s, fun p _ => rfl⟩
  | absent shape => exact ⟨prints_name (by decide), fun p _ => rfl⟩
  | present _ ih => exact ih.present
  | list _ ih => exact .list ih
  | map _ ih => exact .map ih
  | tuple hne hlength _ ih => exact .tuple hne hlength ih
  | struct hname hfields _ ih => exact .struct hname hfields ih
  | wrapped hname _ ih => exact ih.wrapped hname
  | variant hnames hmem => exact .variant hnames hmem
  | variantOf hnames hmem _ ih => exact ih.variantOf hnames hmem
  | variantWith hnames hmem hfields _ ih => exact .variantWith hnames hmem hfields ih

/-- Data of a shape are found in every layout of what is written for them. -/
theorem Shape.Fits.read? {data : Data} (h : shape.Fits data) {named : Bool} {document : String}
    (hlaid : (data.toItem named).LaidOut document) : ron.read? shape document = some data := by
  change (parse? document).bind _ = _
  rw [hlaid.parse, Option.bind_some]
  exact (h.readsAs named).reads _ rfl

/-- A document stands for data if it is a layout of what is written for them, with the names of
structures in front of them or without. -/
def StandsFor (data : Data) (document : String) : Prop :=
  ∃ named, (data.toItem named).LaidOut document

/-- **Documents are written and read by their grammar.** -/
theorem ron_follows : ron.Follows StandsFor where
  writes named _ _ _ h := ⟨named, (h.readsAs named).prints.laidOut⟩
  reads _ _ _ _ h := fun ⟨_, hlaid⟩ => h.read? hlaid

end ShadeNet.Document
