/-
# The text of records is read back

A reader of scene text goes over it character by character. A value of an attribute ends at the
first semicolon outside quotes, and in quotes a backslash hides the character behind it. Every
spelled value opens and closes its quotes and has no semicolon outside them, whatever strings are
in it, so the reader finds the records that were written, with their values. Texts of different
records differ.

Key definitions: `Quoting`, `IsSealed`, `Block`, `Reader`, `readBlocks`, `IsSpelledValue`,
`Record.IsSpelledOut`.
Key theorems: `isSealed_quote`, `read_record`, `readBlocks_records`, `record_text_decodes`.
-/
import ShadeNet.Proofs.Reading

namespace ShadeNet

/-! ### Readers

A reader goes over a text character by character, from place to place. -/

section Readers

variable {σ : Type} {next : σ → Char → Option σ} {place between : σ}

theorem foldlM_cons_of_eq {c : Char} (h : next place c = some between) (cs : List Char) :
    (c :: cs).foldlM next place = cs.foldlM next between := by
  rw [List.foldlM_cons, h]
  rfl

theorem foldlM_append_of_eq {text : List Char} (h : text.foldlM next place = some between)
    (rest : List Char) : (text ++ rest).foldlM next place = rest.foldlM next between := by
  rw [List.foldlM_append, h]
  rfl

/-- A reader that stays where it is over every character of a text. -/
theorem foldlM_stay {cs : List Char} (h : ∀ c ∈ cs, next place c = some place) :
    cs.foldlM next place = some place := by
  induction cs with
  | nil => rfl
  | cons c cs ih =>
    rw [foldlM_cons_of_eq (h c List.mem_cons_self)]
    exact ih fun d hd => h d (List.mem_cons_of_mem c hd)

end Readers

/-! ### Values -/

/-- Where a reader of a value is: outside quotes, inside them or behind a backslash. -/
inductive Quoting
  | outside
  | inside
  | escaped
deriving DecidableEq

/-- Goes over one character of a value. A semicolon outside quotes is no part of it, and neither is
a slash, which stands in comments. -/
def Quoting.next : Quoting → Char → Option Quoting
  | outside, c => if c = '"' then some inside else if c = ';' ∨ c = '/' then none else some outside
  | inside, c => if c = '"' then some outside else if c = '\\' then some escaped else some inside
  | escaped, _ => some inside

/-- A text that closes the quotes it opens and has neither a semicolon nor a slash outside them. -/
def IsSealed (text : String) : Prop := text.toList.foldlM Quoting.next .outside = some .outside

instance (text : String) : Decidable (IsSealed text) :=
  inferInstanceAs (Decidable (text.toList.foldlM Quoting.next .outside = some .outside))

theorem IsSealed.append {a b : String} (ha : IsSealed a) (hb : IsSealed b) : IsSealed (a ++ b) := by
  unfold IsSealed at *
  rw [String.toList_append, foldlM_append_of_eq ha]
  exact hb

/-- Names of records and their outputs are made of these. -/
def isTokenChar (c : Char) : Bool := isWordChar c || c == ':' || c == '@'

theorem next_tokenChar {c : Char} (h : isTokenChar c = true) :
    Quoting.next .outside c = some .outside := by
  have hquote : c ≠ '"' := fun e => absurd (e ▸ h) (by decide)
  have hsemicolon : c ≠ ';' := fun e => absurd (e ▸ h) (by decide)
  have hslash : c ≠ '/' := fun e => absurd (e ▸ h) (by decide)
  simp [Quoting.next, hquote, hsemicolon, hslash]

theorem isTokenChar_of_isWordChar {c : Char} (h : isWordChar c = true) : isTokenChar c = true := by
  simp [isTokenChar, h]

theorem isSealed_token {token : String} (h : ∀ c ∈ token.toList, isTokenChar c = true) :
    IsSealed token := foldlM_stay fun c hc => next_tokenChar (h c hc)

/-- What is in quotes stays there. -/
theorem next_quoteChar (c : Char) :
    (quoteChar c).foldlM Quoting.next .inside = some .inside := by
  unfold quoteChar
  split
  · rfl
  · rename_i h
    obtain ⟨hbackslash, hquote⟩ := not_or.mp h
    simp [Quoting.next, hbackslash, hquote]

/-- No string ends its own quotes. -/
theorem isSealed_quote (s : String) : IsSealed (quote s) := by
  have hinside : ∀ cs : List Char,
      (cs.flatMap quoteChar).foldlM Quoting.next .inside = some .inside := by
    intro cs
    induction cs with
    | nil => rfl
    | cons c cs ih =>
      rw [List.flatMap_cons, foldlM_append_of_eq (next_quoteChar c)]
      exact ih
  have hquote : (quote s).toList = '"' :: (s.toList.flatMap quoteChar ++ ['"']) := by simp [quote]
  have hopen : Quoting.next .outside '"' = some .inside := rfl
  unfold IsSealed
  rw [hquote, foldlM_cons_of_eq hopen, foldlM_append_of_eq (hinside s.toList)]
  rfl

/-- Numbers are made of these, and so is what is no number. -/
def isNumeralChar (c : Char) : Bool := isWordChar c || c == '-' || c == '.'

/-- A text that is made of what numbers are made of. -/
def IsNumeral (text : String) : Prop := text.toList.all isNumeralChar = true

instance (text : String) : Decidable (IsNumeral text) :=
  inferInstanceAs (Decidable (text.toList.all isNumeralChar = true))

theorem isNumeral_iff {text : String} :
    IsNumeral text ↔ ∀ c ∈ text.toList, isNumeralChar c = true := List.all_eq_true

theorem IsNumeral.append {a b : String} (ha : IsNumeral a) (hb : IsNumeral b) :
    IsNumeral (a ++ b) := by
  unfold IsNumeral at *
  rw [String.toList_append, List.all_append, ha, hb]
  rfl

theorem isNumeralChar_of_isDigit {c : Char} (h : c.isDigit = true) : isNumeralChar c = true := by
  simp [isNumeralChar, isWordChar_of_isDigit h]

theorem isNumeral_nat (n : Nat) : IsNumeral (toString n) := by
  rw [isNumeral_iff, Nat.toString_eq_repr, Nat.toList_repr]
  exact fun c hc => isNumeralChar_of_isDigit (isDigit_toDigits n c hc)

/-- The text of a whole number is its digits, behind a minus if it is negative. -/
theorem toList_int (i : Int) : (toString i).toList =
    if 0 ≤ i then Nat.toDigits 10 i.toNat else '-' :: Nat.toDigits 10 (-i).toNat := by
  rw [Int.toString_eq_repr, Int.repr_eq_if]
  split
  · rw [Nat.toList_repr]
  · rw [String.toList_append, Nat.toList_repr]
    rfl

theorem mem_int {i : Int} {c : Char} (h : c ∈ (toString i).toList) : c.isDigit = true ∨ c = '-' := by
  rw [toList_int] at h
  split at h
  · exact Or.inl (isDigit_toDigits _ c h)
  · rcases List.mem_cons.mp h with hminus | hdigit
    · exact Or.inr hminus
    · exact Or.inl (isDigit_toDigits _ c hdigit)

theorem isNumeral_int (i : Int) : IsNumeral (toString i) := by
  refine isNumeral_iff.mpr fun c hc => ?_
  rcases mem_int hc with hdigit | rfl
  · exact isNumeralChar_of_isDigit hdigit
  · decide

theorem isNumeral_paddedDigits (width n : Nat) : IsNumeral (paddedDigits width n) := by
  rw [isNumeral_iff, paddedDigits, String.toList_ofList]
  intro c hc
  rcases List.mem_append.mp hc with hzero | hdigit
  · rw [List.eq_of_mem_replicate hzero]
    decide
  · exact isNumeralChar_of_isDigit (isDigit_toDigits n c hdigit)

theorem isNumeral_number (x : Single) : IsNumeral (numberText x) := by
  unfold numberText Single.fixed
  split
  · decide
  · refine .append (by split <;> decide) ?_
    split
    · exact ((isNumeral_nat _).append (b := ".") (by decide)).append (isNumeral_paddedDigits _ _)
    · decide

/-- What is not in a number is not in the text of one. -/
theorem IsNumeral.ne {text : String} (h : IsNumeral text) {c d : Char} (hc : c ∈ text.toList)
    (hd : isNumeralChar d = false) : c ≠ d := by
  rintro rfl
  rw [isNumeral_iff.mp h c hc] at hd
  cases hd

theorem IsNumeral.isSealed {text : String} (h : IsNumeral text) : IsSealed text := by
  refine foldlM_stay fun c hc => ?_
  have hquote : c ≠ '"' := h.ne hc (by decide)
  have hsemicolon : c ≠ ';' := h.ne hc (by decide)
  have hslash : c ≠ '/' := h.ne hc (by decide)
  simp [Quoting.next, hquote, hsemicolon, hslash]

theorem isSealed_nat (n : Nat) : IsSealed (toString n) := (isNumeral_nat n).isSealed

theorem isSealed_int (i : Int) : IsSealed (toString i) := (isNumeral_int i).isSealed

theorem isSealed_number (x : Single) : IsSealed (numberText x) := (isNumeral_number x).isSealed

theorem isSealed_intercalate {items : List String} (h : ∀ item ∈ items, IsSealed item) :
    IsSealed (String.intercalate "," items) := by
  induction items with
  | nil => decide
  | cons first rest ih =>
    rcases rest with _ | ⟨second, rest⟩
    · rw [String.intercalate_singleton]
      exact h first List.mem_cons_self
    · rw [String.intercalate_cons_cons]
      exact ((h first List.mem_cons_self).append (by decide)).append
        (ih fun item hi => h item (List.mem_cons_of_mem first hi))

/-- A call is sealed if its arguments are. -/
theorem isSealed_call {constructor : String} (hc : IsSealed constructor) {items : List String}
    (h : ∀ item ∈ items, IsSealed item) : IsSealed (callText constructor items) :=
  ((hc.append (b := "(") (by decide)).append (isSealed_intercalate h)).append (b := ")") (by decide)

theorem isSealed_list (kind : ListKind) {items : List String} (h : ∀ item ∈ items, IsSealed item) :
    IsSealed (listText kind items) :=
  isSealed_call (by cases kind <;> decide) h

theorem IsSealed.interpolate {text : String} (h : IsSealed text) (frame : Int32) :
    IsSealed (interpolateText frame text) := by
  have hopen : IsSealed "interpolate((" := by decide
  have hclose : IsSealed "))" := by decide
  exact (((hopen.append (isSealed_int _)).append (b := ",") (by decide)).append h).append hclose

theorem isSealed_triple (t : Triple) : ∀ item ∈ t.texts, IsSealed item := by
  simp only [Triple.texts, List.forall_mem_cons]
  exact ⟨isSealed_number _, isSealed_number _, isSealed_number _, by simp⟩

/-- A literal is sealed, whatever string it is. -/
theorem isSealed_literal (v : Value) : IsSealed v.text := by
  have hvector : ∀ t : Triple, IsSealed t.vectorText := fun t =>
    isSealed_call (by decide) (isSealed_triple t)
  cases v with
  | bool b => cases b <;> decide
  | int i | enum i => exact isSealed_int _
  | float x => exact isSealed_number x
  | color c => exact isSealed_call (by decide) (isSealed_triple c)
  | aColor c a =>
    refine isSealed_call (by decide) fun item hi => ?_
    rcases List.mem_append.mp hi with hi | hi
    · exact isSealed_triple c item hi
    · rw [List.mem_singleton.mp hi]
      exact isSealed_number a
  | vector t => exact hvector t
  | transform t =>
    refine isSealed_call (by decide) ?_
    simp only [List.forall_mem_cons]
    refine ⟨isSealed_call (by decide) ?_, hvector _, by simp⟩
    simp only [List.forall_mem_cons]
    exact ⟨hvector _, hvector _, hvector _, by simp⟩
  | string s | path s => exact isSealed_quote s

/-! ### Reading records -/

/-- What is read of a record: all that is written of it. -/
structure Block where
  /-- The plugin. -/
  plugin : String
  /-- The name of the instance. -/
  name : String
  /-- Attributes and their spelled values, in the order of writing. -/
  attrs : List (String × String) := []
deriving DecidableEq

/-- What is written of a record. Its family is not. -/
def Record.block (r : Record) : Block := ⟨r.plugin, r.name, r.attrs⟩

/-- Where a reader of records is, with what it has read of the record it is in. -/
inductive Place
  /-- Between records. -/
  | between
  /-- In the plugin of a record. -/
  | plugin (word : List Char)
  /-- In the name of the instance. -/
  | name (plugin : String) (word : List Char)
  /-- Before the bracket that opens a record. -/
  | opening (block : Block)
  /-- Between attributes. -/
  | body (block : Block)
  /-- In the name of an attribute. -/
  | attr (block : Block) (word : List Char)
  /-- In the value of an attribute. -/
  | value (block : Block) (attr : String) (text : List Char) (quoting : Quoting)

/-- A reader of records: the records that are complete, and where it is. -/
structure Reader where
  /-- The records that were read. -/
  done : List Block
  /-- Where the reader is. -/
  place : Place

/-- Whether a character stands between records and attributes. -/
def isGap (c : Char) : Bool := c == '\n' || c == '\t'

/-- Goes over one character, if it can stand there. -/
def Reader.next (r : Reader) (c : Char) : Option Reader :=
  match r.place with
  | .between =>
    if isGap c then some r
    else if isWordChar c then some ⟨r.done, .plugin [c]⟩
    else none
  | .plugin word =>
    if isWordChar c then some ⟨r.done, .plugin (word ++ [c])⟩
    else if c = ' ' then some ⟨r.done, .name (String.ofList word) []⟩
    else none
  | .name plugin word =>
    if isWordChar c then some ⟨r.done, .name plugin (word ++ [c])⟩
    else if c = ' ' then some ⟨r.done, .opening ⟨plugin, String.ofList word, []⟩⟩
    else none
  | .opening block => if c = '\x7b' then some ⟨r.done, .body block⟩ else none
  | .body block =>
    if isGap c then some r
    else if c = '\x7d' then some ⟨r.done ++ [block], .between⟩
    else if isWordChar c then some ⟨r.done, .attr block [c]⟩
    else none
  | .attr block word =>
    if isWordChar c then some ⟨r.done, .attr block (word ++ [c])⟩
    else if c = '=' then some ⟨r.done, .value block (String.ofList word) [] .outside⟩
    else none
  | .value block attr text quoting =>
    if quoting = .outside ∧ c = ';' then
      some ⟨r.done, .body { block with attrs := block.attrs ++ [(attr, String.ofList text)] }⟩
    else (quoting.next c).map fun quoting => ⟨r.done, .value block attr (text ++ [c]) quoting⟩

/-- Reads characters one after another. -/
def Reader.read (r : Reader) (cs : List Char) : Option Reader := cs.foldlM Reader.next r

/-- The records in a text, if it is nothing but records. -/
def readBlocks (cs : List Char) : Option (List Block) :=
  match Reader.read ⟨[], .between⟩ cs with
  | some ⟨done, .between⟩ => some done
  | _ => none

theorem Reader.read_append {r next : Reader} {a b : List Char} (h : r.read a = some next) :
    r.read (a ++ b) = next.read b := foldlM_append_of_eq h b

variable {done : List Block}

/-- A word is gathered wherever its characters are. -/
theorem read_word {place : List Char → Place}
    (h : ∀ word c, isWordChar c = true →
      Reader.next ⟨done, place word⟩ c = some ⟨done, place (word ++ [c])⟩)
    {cs : List Char} (hcs : ∀ c ∈ cs, isWordChar c = true) (word : List Char) :
    Reader.read ⟨done, place word⟩ cs = some ⟨done, place (word ++ cs)⟩ := by
  unfold Reader.read
  induction cs generalizing word with
  | nil => simp
  | cons c cs ih =>
    rw [foldlM_cons_of_eq (h word c (hcs c List.mem_cons_self))]
    have hrest := ih (fun d hd => hcs d (List.mem_cons_of_mem c hd)) (word ++ [c])
    rw [List.append_assoc] at hrest
    exact hrest

/-- A value is gathered up to the semicolon behind it. -/
theorem read_value {block : Block} {attr : String} {cs text : List Char}
    {quoting after : Quoting} (h : cs.foldlM Quoting.next quoting = some after) :
    Reader.read ⟨done, .value block attr text quoting⟩ cs =
      some ⟨done, .value block attr (text ++ cs) after⟩ := by
  unfold Reader.read
  induction cs generalizing text quoting with
  | nil =>
    cases h
    simp
  | cons c cs ih =>
    rw [List.foldlM_cons] at h
    cases hnext : quoting.next c with
    | none =>
      rw [hnext] at h
      cases h
    | some more =>
      rw [hnext] at h
      have hinside : ¬ (quoting = .outside ∧ c = ';') := by
        rintro ⟨rfl, rfl⟩
        cases hnext
      have hstep : Reader.next ⟨done, .value block attr text quoting⟩ c =
          some ⟨done, .value block attr (text ++ [c]) more⟩ := by
        simp [Reader.next, hinside, hnext]
      rw [foldlM_cons_of_eq hstep]
      have hrest := @ih (text ++ [c]) more h
      rw [List.append_assoc] at hrest
      exact hrest

theorem isGap_of_isWordChar {c : Char} (h : isWordChar c = true) : isGap c = false := by
  have hline : c ≠ '\n' := fun e => absurd (e ▸ h) (by decide)
  have htab : c ≠ '\t' := fun e => absurd (e ▸ h) (by decide)
  simp [isGap, hline, htab]

/-- An identifier begins at one place and is gathered at another. -/
theorem read_identifier {before : Place} {place : List Char → Place} {word : String}
    (hword : isIdentifier word = true)
    (hfirst : ∀ c, isWordChar c = true → Reader.next ⟨done, before⟩ c = some ⟨done, place [c]⟩)
    (hrest : ∀ word c, isWordChar c = true →
      Reader.next ⟨done, place word⟩ c = some ⟨done, place (word ++ [c])⟩) :
    Reader.read ⟨done, before⟩ word.toList = some ⟨done, place word.toList⟩ := by
  obtain ⟨c, cs, hl, -, hc, hcs⟩ := isIdentifier_iff.mp hword
  rw [hl]
  unfold Reader.read
  rw [foldlM_cons_of_eq (hfirst c hc)]
  exact read_word hrest hcs [c]

/-- An assignment is read as an attribute. -/
theorem read_assignment {block : Block} {a : String × String} (hname : isIdentifier a.1 = true)
    (hvalue : IsSealed a.2) :
    Reader.read ⟨done, .body block⟩ (Record.assignmentText a).toList =
      some ⟨done, .body { block with attrs := block.attrs ++ [a] }⟩ := by
  have htext : (Record.assignmentText a).toList =
      ['\n', '\t'] ++ (a.1.toList ++ (['='] ++ (a.2.toList ++ [';']))) := by
    simp [Record.assignmentText]
  have hattr : Reader.read ⟨done, .body block⟩ a.1.toList =
      some ⟨done, .attr block a.1.toList⟩ :=
    read_identifier hname
      (fun c hc => by
        have hclose : c ≠ '\x7d' := fun e => absurd (e ▸ hc) (by decide)
        simp [Reader.next, isGap_of_isWordChar hc, hclose, hc])
      fun word c hc => by simp [Reader.next, hc]
  have hequals : Reader.read ⟨done, .attr block a.1.toList⟩ ['='] =
      some ⟨done, .value block a.1 [] .outside⟩ := by
    simp [Reader.read, Reader.next, show isWordChar '=' = false by decide]
  have hsemicolon : Reader.read ⟨done, .value block a.1 ([] ++ a.2.toList) .outside⟩ [';'] =
      some ⟨done, .body { block with attrs := block.attrs ++ [a] }⟩ := by
    simp [Reader.read, Reader.next]
  have hgap : Reader.read ⟨done, .body block⟩ ['\n', '\t'] = some ⟨done, .body block⟩ := rfl
  rw [htext, Reader.read_append hgap, Reader.read_append hattr, Reader.read_append hequals,
    Reader.read_append (read_value hvalue), hsemicolon]

/-- A record of which a reader finds all parts. -/
structure Record.IsSealed (r : Record) : Prop where
  plugin : isIdentifier r.plugin = true
  name : isIdentifier r.name = true
  attrs : ∀ a ∈ r.attrs, isIdentifier a.1 = true ∧ ShadeNet.IsSealed a.2

theorem read_assignments {block : Block} {attrs : List (String × String)}
    (h : ∀ a ∈ attrs, isIdentifier a.1 = true ∧ IsSealed a.2) :
    Reader.read ⟨done, .body block⟩ (String.join (attrs.map Record.assignmentText)).toList =
      some ⟨done, .body { block with attrs := block.attrs ++ attrs }⟩ := by
  induction attrs generalizing block with
  | nil => simp [Reader.read]
  | cons a rest ih =>
    obtain ⟨hname, hvalue⟩ := h a List.mem_cons_self
    have hrest := @ih { block with attrs := block.attrs ++ [a] }
      fun b hb => h b (List.mem_cons_of_mem a hb)
    rw [List.map_cons, String.join_cons, String.toList_append,
      Reader.read_append (read_assignment hname hvalue), hrest, List.append_assoc]
    rfl

/-- The text of a record is read as what is written of it. -/
theorem read_record {r : Record} (h : r.IsSealed) :
    Reader.read ⟨done, .between⟩ r.text.toList = some ⟨done ++ [r.block], .between⟩ := by
  have htext : r.text.toList = ['\n'] ++ (r.plugin.toList ++ ([' '] ++ (r.name.toList ++
      ([' ', '\x7b'] ++ ((String.join (r.attrs.map Record.assignmentText)).toList ++
        ['\n', '\x7d', '\n']))))) := by
    simp [Record.text]
  have hplugin : Reader.read ⟨done, .between⟩ r.plugin.toList =
      some ⟨done, .plugin r.plugin.toList⟩ :=
    read_identifier h.plugin
      (fun c hc => by simp [Reader.next, isGap_of_isWordChar hc, hc])
      fun word c hc => by simp [Reader.next, hc]
  have hblank : isWordChar ' ' = false := by decide
  have hspace : Reader.read ⟨done, .plugin r.plugin.toList⟩ [' '] =
      some ⟨done, .name r.plugin []⟩ := by
    simp [Reader.read, Reader.next, hblank]
  have hname : Reader.read ⟨done, .name r.plugin []⟩ r.name.toList =
      some ⟨done, .name r.plugin ([] ++ r.name.toList)⟩ :=
    read_word (fun word c hc => by simp [Reader.next, hc]) (isWordChar_of_isIdentifier h.name) []
  have hopen : Reader.read ⟨done, .name r.plugin ([] ++ r.name.toList)⟩ [' ', '\x7b'] =
      some ⟨done, .body ⟨r.plugin, r.name, []⟩⟩ := by
    simp [Reader.read, Reader.next, hblank]
  have hbody : Reader.read ⟨done, .body ⟨r.plugin, r.name, []⟩⟩
      (String.join (r.attrs.map Record.assignmentText)).toList = some ⟨done, .body r.block⟩ :=
    read_assignments h.attrs
  have hclose : Reader.read ⟨done, .body r.block⟩ ['\n', '\x7d', '\n'] =
      some ⟨done ++ [r.block], .between⟩ := rfl
  have hgap : Reader.read ⟨done, .between⟩ ['\n'] = some ⟨done, .between⟩ := rfl
  rw [htext, Reader.read_append hgap, Reader.read_append hplugin, Reader.read_append hspace,
    Reader.read_append hname, Reader.read_append hopen, Reader.read_append hbody]
  exact hclose

/-- The texts of records are read as what is written of them, in their order. -/
theorem read_records {rs : List Record} (h : ∀ r ∈ rs, r.IsSealed) :
    Reader.read ⟨done, .between⟩ (String.join (rs.map Record.text)).toList =
      some ⟨done ++ rs.map Record.block, .between⟩ := by
  induction rs generalizing done with
  | nil => simp [Reader.read]
  | cons r rest ih =>
    have hrest := @ih (done ++ [r.block]) fun q hq => h q (List.mem_cons_of_mem r hq)
    rw [List.map_cons, String.join_cons, String.toList_append,
      Reader.read_append (read_record (h r List.mem_cons_self)), hrest, List.append_assoc]
    rfl

theorem readBlocks_records {rs : List Record} (h : ∀ r ∈ rs, r.IsSealed) :
    readBlocks (String.join (rs.map Record.text)).toList = some (rs.map Record.block) := by
  unfold readBlocks
  rw [read_records h]
  rfl

/-! ### Spelled values -/

/-- How the value of an attribute may be spelled: a string in quotes, another literal, a token, a
list of tokens and numbers, or one of these keyed to a frame. -/
inductive IsSpelledValue : String → Prop
  | quoted (s : String) : IsSpelledValue (quote s)
  | literal (v : Value) (h : v.type ≠ .string) : IsSpelledValue v.text
  | token {token : String} (h : ∀ c ∈ token.toList, isTokenChar c = true) : IsSpelledValue token
  | list (kind : ListKind) {items : List String}
    (h : ∀ item ∈ items, (∀ c ∈ item.toList, isTokenChar c = true) ∨
      ∃ x : Single, item = numberText x) : IsSpelledValue (listText kind items)
  | keyed (frame : Int32) {text : String} (h : IsSpelledValue text) :
    IsSpelledValue (interpolateText frame text)

theorem IsSpelledValue.isSealed {text : String} (h : IsSpelledValue text) : IsSealed text := by
  induction h with
  | quoted s => exact isSealed_quote s
  | literal v => exact isSealed_literal v
  | token h => exact isSealed_token h
  | list kind h =>
    refine isSealed_list kind fun item hi => ?_
    rcases h item hi with htoken | ⟨x, rfl⟩
    · exact isSealed_token htoken
    · exact isSealed_number x
  | keyed frame _ ih => exact ih.interpolate frame

/-- A record whose names are identifiers and whose values are spelled in one of these ways. -/
structure Record.IsSpelledOut (r : Record) : Prop where
  plugin : isIdentifier r.plugin = true
  name : isIdentifier r.name = true
  attrs : ∀ a ∈ r.attrs, isIdentifier a.1 = true ∧ IsSpelledValue a.2

theorem Record.IsSpelledOut.isSealed {r : Record} (h : r.IsSpelledOut) : r.IsSealed :=
  ⟨h.plugin, h.name, fun a ha => ⟨(h.attrs a ha).1, (h.attrs a ha).2.isSealed⟩⟩

/-- A character in quotes is told from the quote that ends them and from every other one. -/
theorem quoteChar_append_inj {c d : Char} {x y : List Char}
    (h : quoteChar c ++ x = quoteChar d ++ y) : c = d ∧ x = y := by
  unfold quoteChar at h
  split at h <;> split at h <;> grind

theorem quoteChar_append_ne (c : Char) (x y : List Char) : quoteChar c ++ x ≠ '"' :: y := by
  unfold quoteChar
  split <;> grind

/-- Where a quoted text ends is seen from the text itself. -/
theorem quoted_inj {x y : List Char} : ∀ {a b : List Char},
    a.flatMap quoteChar ++ '"' :: x = b.flatMap quoteChar ++ '"' :: y → a = b ∧ x = y
  | [], [], h => ⟨rfl, (List.cons.inj h).2⟩
  | [], d :: b, h => by
    rw [List.flatMap_cons, List.append_assoc] at h
    exact absurd h.symm (quoteChar_append_ne d _ _)
  | c :: a, [], h => by
    rw [List.flatMap_cons, List.append_assoc] at h
    exact absurd h (quoteChar_append_ne c _ _)
  | c :: a, d :: b, h => by
    rw [List.flatMap_cons, List.flatMap_cons, List.append_assoc, List.append_assoc] at h
    obtain ⟨rfl, hrest⟩ := quoteChar_append_inj h
    obtain ⟨rfl, hxy⟩ := quoted_inj hrest
    exact ⟨rfl, hxy⟩

/-- A quoted string is found again in front of any text. -/
theorem quote_append_inj {s t x y : String} (h : quote s ++ x = quote t ++ y) : s = t ∧ x = y := by
  have hlist : ∀ u z : String, (quote u ++ z).toList =
      '"' :: (u.toList.flatMap quoteChar ++ '"' :: z.toList) := fun u z => by simp [quote]
  have h := congrArg String.toList h
  rw [hlist, hlist] at h
  obtain ⟨hs, hx⟩ := quoted_inj (List.cons.inj h).2
  exact ⟨String.toList_inj.mp hs, String.toList_inj.mp hx⟩

/-- **The text of records is uniquely decodable.** Records have identifiers for their plugins, names
and attributes, and values that are spelled as strings in quotes, other literals, tokens, lists of
these or keyed to a frame. If two lists of such records have the same text, one record behind
another, they agree in plugins, names, attributes and values, one by one and in order; only the
families of the plugins are not written. So what is in quotes never ends a value, an attribute or a
record: a string in quotes is the same string wherever the same text begins with it. -/
theorem record_text_decodes {rs others : List Record} (h : ∀ r ∈ rs, r.IsSpelledOut)
    (ho : ∀ r ∈ others, r.IsSpelledOut) :
    (String.join (rs.map Record.text) = String.join (others.map Record.text) →
      rs.map Record.block = others.map Record.block) ∧
    ∀ s t x y : String, quote s ++ x = quote t ++ y → s = t ∧ x = y := by
  refine ⟨fun htext => ?_, fun _ _ _ _ => quote_append_inj⟩
  have hread := readBlocks_records fun r hr => (h r hr).isSealed
  rw [htext, readBlocks_records fun r hr => (ho r hr).isSealed] at hread
  exact (Option.some.inj hread).symm

/-- A path that looks like two attributes to whoever takes its quotes for those of the value. -/
def craftedRecord : Record :=
  ⟨"BitmapBuffer", "NTWallNBricks", .texture, [("file", quote "a.png\";\n\tgamma=\"1")]⟩

/-- The two attributes. -/
def plainRecord : Record :=
  ⟨"BitmapBuffer", "NTWallNBricks", .texture, [("file", quote "a.png"), ("gamma", quote "1")]⟩

theorem record_text_decodes_crafted :
    (∀ r ∈ [craftedRecord], r.IsSpelledOut) ∧ (∀ r ∈ [plainRecord], r.IsSpelledOut) ∧
      String.join ([craftedRecord].map Record.text) ≠
        String.join ([plainRecord].map Record.text) := by
  have hcrafted : ∀ r ∈ [craftedRecord], r.IsSpelledOut := by
    simp only [List.forall_mem_singleton]
    refine ⟨by decide, by decide, ?_⟩
    simp only [craftedRecord, List.forall_mem_singleton]
    exact ⟨by decide, .quoted _⟩
  have hplain : ∀ r ∈ [plainRecord], r.IsSpelledOut := by
    simp only [List.forall_mem_singleton]
    refine ⟨by decide, by decide, ?_⟩
    simp only [plainRecord, List.forall_mem_cons]
    exact ⟨⟨by decide, .quoted _⟩, ⟨by decide, .quoted _⟩, nofun⟩
  refine ⟨hcrafted, hplain, fun htext => ?_⟩
  exact absurd ((record_text_decodes hcrafted hplain).1 htext) (by decide)

end ShadeNet
