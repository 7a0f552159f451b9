/-
# The references in a written value

The value of an attribute is written in one of a few ways: as a string in quotes, as another
literal, as a token, as a list, or keyed to a frame in any of these ways. The text does not say in
which, and it is read back all the same: the names that are read are those of the tokens it was
made of, one by one from left to right. Nothing of a string, a number, a constructor or the output
that a token selects is taken for a name, and nothing that was written is missed.

Key definitions: `Selector`, `TokenForm`, `ListEntry`, `WrittenValue`, `WrittenValue.text`,
`WrittenValue.names`.
Key theorems: `WrittenValue.reads`, `references_written`.
-/
import ShadeNet.Proofs.Reading

namespace ShadeNet

/-! ### Tokens -/

/-- What stands behind the name of a record in a token. -/
inductive Selector
  /-- Nothing: the record is meant as a whole. -/
  | whole
  /-- One of its outputs. -/
  | output (attr : String) (isWord : attr.toList.all isWordChar = true)
  /-- One of its channels. -/
  | channel (attr : String) (isWord : attr.toList.all isWordChar = true)

/-- The text behind the name. -/
def Selector.text : Selector → String
  | whole => ""
  | output attr _ => "::" ++ attr
  | channel attr _ => "@" ++ attr

theorem Selector.followsName (s : Selector) : FollowsName s.text := by
  cases s with
  | whole => exact followsName_empty
  | output attr isWord => exact followsName_colons (List.all_eq_true.mp isWord)
  | channel attr isWord => exact followsName_at (List.all_eq_true.mp isWord)

/-- The name of a record, and what is selected of it. -/
structure TokenForm where
  /-- The name. -/
  name : String
  /-- What is selected. -/
  selector : Selector
  /-- The name is a word that starts with no digit. -/
  isName : isIdentifier name = true

/-- The token. -/
def TokenForm.text (t : TokenForm) : String := t.name ++ t.selector.text

theorem TokenForm.reads (t : TokenForm) : Reads t.text [t.name] :=
  reads_name t.isName t.selector.followsName

/-! ### Lists -/

/-- What a list holds in one place. -/
inductive ListEntry
  | token (token : TokenForm)
  | int (value : Int)
  | number (value : Single) (isFinite : value.isFinite = true)

namespace ListEntry

/-- The text of an entry. -/
def text : ListEntry → String
  | token t => t.text
  | int i => toString i
  | number x _ => numberText x

/-- The name of the record that an entry refers to. -/
def names : ListEntry → List String
  | token t => [t.name]
  | int _ | number _ _ => []

theorem reads (entry : ListEntry) : Reads entry.text entry.names := by
  cases entry with
  | token t => exact t.reads
  | int i => exact reads_int i
  | number x isFinite => exact reads_number isFinite

end ListEntry

/-! ### Values -/

/-- How the value of an attribute is written. -/
inductive WrittenValue
  /-- A string in quotes. -/
  | quoted (s : String)
  /-- A literal whose numbers are finite. -/
  | literal (v : Value) (isFinite : v.isFinite = true)
  /-- A reference to a record. -/
  | token (token : TokenForm)
  /-- A list. -/
  | list (kind : ListKind) (entries : List ListEntry)
  /-- A value that is keyed to a frame. -/
  | keyed (frame : Int32) (value : WrittenValue)

namespace WrittenValue

/-- The text of a value. -/
def text : WrittenValue → String
  | quoted s => quote s
  | literal v _ => v.text
  | token t => t.text
  | list kind entries => listText kind (entries.map ListEntry.text)
  | keyed frame value => interpolateText frame value.text

/-- The names of the records that a value refers to, from left to right. -/
def names : WrittenValue → List String
  | quoted _ | literal _ _ => []
  | token t => [t.name]
  | list _ entries => entries.flatMap ListEntry.names
  | keyed _ value => value.names

/-- A value is read as the names it was made of, whatever it is a part of. -/
theorem reads (value : WrittenValue) : Reads value.text value.names := by
  induction value with
  | quoted s => exact reads_quote s
  | literal v isFinite => exact reads_value isFinite
  | token t => exact t.reads
  | list kind entries =>
    exact reads_call ListEntry.text ListEntry.names (isIdentifier_constructor kind) fun entry _ =>
      entry.reads
  | keyed frame value ih => exact reads_interpolate ih frame

end WrittenValue

/-- **References are read back exactly.** If the values of the attributes of a record are written
as strings in quotes, other literals with finite numbers, tokens, lists, or any of these keyed to
frames, its references are the names in the tokens, attribute by attribute and from left to
right. -/
theorem references_written (r : Record) (values : List WrittenValue)
    (h : r.attrs.map Prod.snd = values.map WrittenValue.text) :
    r.references = values.flatMap WrittenValue.names := by
  have hread : ∀ value : WrittenValue,
      (references value.text.toList).map String.ofList = value.names := fun value =>
    value.reads.references_eq
  calc r.references
      = (r.attrs.map Prod.snd).flatMap fun text =>
          (references text.toList).map String.ofList := by rw [List.flatMap_map]; rfl
    _ = (values.map WrittenValue.text).flatMap fun text =>
          (references text.toList).map String.ofList := by rw [h]
    _ = values.flatMap WrittenValue.names := by simp only [List.flatMap_map, hread]

/-- A bitmap that is seen through one of its outputs. -/
def bitmapToken : TokenForm :=
  ⟨"NTWallNBricks", .output "out_2nd" (by decide), by decide⟩

/-- Values with names in all the places where none may be read, and in those where they must. -/
def crowdedValues : List WrittenValue :=
  [.quoted "NTWallNHidden \\\"é\\", .keyed (-7) (.keyed 3 (.token bitmapToken)),
    .literal (.transform Transform.identity) (by decide +kernel),
    .list .references [.token ⟨"MEChair", .whole, by decide⟩, .int (-12), .token bitmapToken,
      .number (Single.ofInt (-2)) (by decide +kernel),
      .token ⟨"NTFireNGrid", .channel "Flame" (by decide), by decide⟩],
    .list .floats []]

/-- A record with these values. -/
def crowdedRecord : Record :=
  ⟨"MtlMulti", "NTWallNCrowd", .material,
    [("note", "\"NTWallNHidden \\\\\\\"é\\\\\""),
      ("color", "interpolate((-7,interpolate((3,NTWallNBricks::out_2nd))))"),
      ("transform", "Transform(Matrix(Vector(1.000000,0.000000,0.000000)," ++
        "Vector(0.000000,1.000000,0.000000),Vector(0.000000,0.000000,1.000000))," ++
        "Vector(0.000000,0.000000,0.000000))"),
      ("list", "List(MEChair,-12,NTWallNBricks::out_2nd,-2.000000,NTFireNGrid@Flame)"),
      ("weights", "ListFloat()")]⟩

theorem references_written_crowded :
    crowdedRecord.attrs.map Prod.snd = crowdedValues.map WrittenValue.text ∧
      crowdedRecord.references = ["NTWallNBricks", "MEChair", "NTWallNBricks", "NTFireNGrid"] := by
  have htexts : crowdedRecord.attrs.map Prod.snd = crowdedValues.map WrittenValue.text := by
    decide +kernel
  exact ⟨htexts, references_written crowdedRecord crowdedValues htexts⟩

end ShadeNet
