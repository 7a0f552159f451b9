/-
# References are read back as they were written

The values of attributes are spelled by a few formatters, and each of them is undone:
a literal has no reference in it, a token has the one it was made of, and a list or a
keyed value has those of its parts. What stands behind a part is a comma or a closing
bracket, so a part reads the same wherever it stands.

Key definitions: `Reads`, `isIdentifier`, `IsToken`, `baseName`, `Value.isFinite`.
Key theorems: `reads_quote`, `reads_token`, `reads_call`, `reads_value`, `reads_interpolate`.
-/
import ShadeNet.Network.Reference
import ShadeNet.Text.Literal

namespace ShadeNet

/-- What stands behind a part of a value: a comma, a closing bracket or nothing. -/
def Closes (rest : List Char) : Prop := ∀ c ∈ rest.head?, c = ',' ∨ c = ')'

/-- The references in a text are `names`, whatever value the text is a part of. -/
def Reads (text : String) (names : List String) : Prop :=
  ∀ rest, Closes rest →
    references (text.toList ++ rest) = names.map String.toList ++ references rest

/-! ### Words -/

/-- What does not go on with a word. -/
def EndsWord (rest : List Char) : Prop := ∀ c ∈ rest.head?, isWordChar c = false

theorem endsWord_cons {c : Char} (h : isWordChar c = false) (rest : List Char) :
    EndsWord (c :: rest) := by
  intro d hd
  cases hd
  exact h

theorem Closes.endsWord {rest : List Char} (h : Closes rest) : EndsWord rest := by
  intro c hc
  rcases h c hc with rfl | rfl <;> decide

theorem closes_nil : Closes [] := fun c hc => by cases hc

theorem closes_comma (rest : List Char) : Closes (',' :: rest) := fun c hc => by
  cases hc
  exact Or.inl rfl

theorem closes_bracket (rest : List Char) : Closes (')' :: rest) := fun c hc => by
  cases hc
  exact Or.inr rfl

theorem dropWhile_word {word rest : List Char} (hw : ∀ c ∈ word, isWordChar c = true)
    (hr : EndsWord rest) : (word ++ rest).dropWhile isWordChar = rest := by
  rw [List.dropWhile_append_of_pos hw]
  rcases rest with _ | ⟨c, rest⟩
  · rfl
  · rw [List.dropWhile_cons_of_neg (by simp [hr c rfl])]

theorem takeWhile_word {word rest : List Char} (hw : ∀ c ∈ word, isWordChar c = true)
    (hr : EndsWord rest) : (word ++ rest).takeWhile isWordChar = word := by
  rw [List.takeWhile_append_of_pos hw]
  rcases rest with _ | ⟨c, rest⟩
  · simp
  · rw [List.takeWhile_cons_of_neg (by simp [hr c rfl]), List.append_nil]

/-! ### Single steps of the reader -/

theorem references_nil : references [] = [] := by
  unfold references
  rfl

/-- A character that is in no word and opens no string. -/
theorem references_skip {c : Char} (hq : c ≠ '"') (hw : isWordChar c = false) (rest : List Char) :
    references (c :: rest) = references rest := by
  have hd : c.isDigit = false := Bool.eq_false_iff.mpr fun hd => by
    rw [isWordChar_of_isDigit hd] at hw
    cases hw
  rw [references, if_neg hq, if_neg (by simp [hd]), if_neg (by simp [hw])]

/-- A word that starts with a digit. -/
theorem references_digit {c : Char} {word rest : List Char} (hc : c.isDigit = true)
    (hw : ∀ d ∈ word, isWordChar d = true) (hr : EndsWord rest) :
    references (c :: (word ++ rest)) = references rest := by
  have hq : c ≠ '"' := fun h => absurd hc (by rw [h]; decide)
  rw [references, if_neg hq, if_pos hc, dropWhile_word hw hr]

/-- A word that is called. -/
theorem references_call {c : Char} {word : List Char} (hd : c.isDigit = false)
    (hc : isWordChar c = true) (hw : ∀ d ∈ word, isWordChar d = true) (rest : List Char) :
    references (c :: (word ++ '(' :: rest)) = references rest := by
  have hq : c ≠ '"' := fun h => absurd hc (by rw [h]; decide)
  rw [references, if_neg hq, if_neg (by simp [hd]), if_pos hc,
    dropWhile_word hw (endsWord_cons (by decide) rest), if_pos List.head?_cons,
    references_skip (by decide) (by decide)]

/-- A word that is a name, with what follows it. -/
theorem references_name {c : Char} {word rest : List Char} (hd : c.isDigit = false)
    (hc : isWordChar c = true) (hw : ∀ d ∈ word, isWordChar d = true) (hr : EndsWord rest)
    (hcall : rest.head? ≠ some '(') :
    references (c :: (word ++ rest)) = (c :: word) :: references (afterSelector rest) := by
  have hq : c ≠ '"' := fun h => absurd hc (by rw [h]; decide)
  rw [references, if_neg hq, if_neg (by simp [hd]), if_pos hc, dropWhile_word hw hr,
    if_neg hcall, takeWhile_word hw hr]

/-! ### Strings -/

/-- A quoted text is left behind as a whole. -/
theorem afterQuote_quoted (cs rest : List Char) :
    afterQuote (cs.flatMap quoteChar ++ '"' :: rest) = rest := by
  induction cs with
  | nil => rfl
  | cons c cs ih =>
    rw [List.flatMap_cons, List.append_assoc]
    by_cases hc : c = '\\' ∨ c = '"'
    · rw [quoteChar, if_pos hc]
      rw [List.cons_append, List.cons_append, List.nil_append, afterQuote]
      exact ih
    · rw [quoteChar, if_neg hc, List.cons_append, List.nil_append]
      obtain ⟨hb, hq⟩ := not_or.mp hc
      rw [afterQuote.eq_def]
      split <;> simp_all

theorem reads_quote (s : String) : Reads (quote s) [] := by
  intro rest _
  have hl : (quote s).toList ++ rest = '"' :: (s.toList.flatMap quoteChar ++ '"' :: rest) := by
    simp [quote]
  rw [hl, references, if_pos rfl, afterQuote_quoted]
  rfl

/-! ### Numbers -/

theorem references_digits {digits rest : List Char} (hne : digits ≠ [])
    (hd : ∀ c ∈ digits, c.isDigit = true) (hr : EndsWord rest) :
    references (digits ++ rest) = references rest := by
  rcases digits with _ | ⟨c, digits⟩
  · exact absurd rfl hne
  · exact references_digit (hd c List.mem_cons_self)
      (fun d h => isWordChar_of_isDigit (hd d (List.mem_cons_of_mem c h))) hr

theorem isDigit_toDigits (n : Nat) : ∀ c ∈ Nat.toDigits 10 n, c.isDigit = true :=
  fun _ hc => Nat.isDigit_of_mem_toDigits (by omega) (by omega) hc

/-- Numbers differ in their digits. -/
theorem toDigits_inj {m n : Nat} (h : Nat.toDigits 10 m = Nat.toDigits 10 n) : m = n := by
  simpa using congrArg (Nat.ofDigitChars 10 · 0) h

theorem references_nat (n : Nat) {rest : List Char} (hr : EndsWord rest) :
    references (n.repr.toList ++ rest) = references rest := by
  rw [Nat.toList_repr]
  exact references_digits Nat.toDigits_ne_nil (isDigit_toDigits n) hr

theorem reads_nat (n : Nat) : Reads (toString n) [] := by
  rw [Nat.toString_eq_repr]
  exact fun _ hr => references_nat n hr.endsWord

/-- A minus sign is no part of a reference. -/
theorem references_minus (text : String) (rest : List Char) :
    references (("-" ++ text).toList ++ rest) = references (text.toList ++ rest) := by
  have hl : ("-" ++ text).toList ++ rest = '-' :: (text.toList ++ rest) := by simp
  rw [hl, references_skip (by decide) (by decide)]

theorem reads_int (i : Int) : Reads (toString i) [] := by
  rw [Int.toString_eq_repr, Int.repr_eq_if]
  intro rest hr
  split
  · exact references_nat _ hr.endsWord
  · rw [references_minus]
    exact references_nat _ hr.endsWord

theorem references_paddedDigits {width : Nat} (hwidth : 0 < width) (n : Nat) {rest : List Char}
    (hr : EndsWord rest) : references ((paddedDigits width n).toList ++ rest) = references rest := by
  rw [paddedDigits, String.toList_ofList]
  refine references_digits (fun h => ?_) (fun c hc => ?_) hr
  · have hlen := congrArg List.length h
    rw [List.length_leftpad, List.length_nil] at hlen
    omega
  · rcases List.mem_append.mp hc with hc | hc
    · rw [List.eq_of_mem_replicate hc]
      decide
    · exact isDigit_toDigits n c hc

theorem references_placedText (places n : Nat) (hplaces : 0 < places) {rest : List Char}
    (hr : EndsWord rest) : references ((placedText places n).toList ++ rest) = references rest := by
  have hl : (placedText places n).toList ++ rest = (n / Nat.pow 10 places).repr.toList ++
      ('.' :: ((paddedDigits places (n % Nat.pow 10 places)).toList ++ rest)) := by
    simp [placedText]
  rw [hl, references_nat _ (endsWord_cons (by decide) _), references_skip (by decide) (by decide),
    references_paddedDigits hplaces _ hr]

/-- A number has no reference in it if it is spelled with digits. -/
theorem reads_number {x : Single} (h : x.isFinite = true) : Reads (numberText x) [] := by
  intro rest hr
  have hnan : x.isNaN = false := by
    have h : x.exponentField ≠ 255 := by simpa [Single.isFinite] using h
    simp [Single.isNaN, h]
  have hplaced := fun n => references_placedText 6 n (by decide) hr.endsWord
  rw [numberText, Single.fixed, hnan, if_neg (by decide), h, if_pos rfl]
  by_cases hneg : x.negative = true
  · rw [if_pos hneg, references_minus]
    exact hplaced _
  · rw [if_neg hneg, String.empty_append]
    exact hplaced _

/-! ### Tokens -/

/-- Whether a text is a word that starts with no digit. -/
def isIdentifier (text : String) : Bool :=
  match text.toList with
  | [] => false
  | c :: rest => isWordChar c && !c.isDigit && rest.all isWordChar

theorem isIdentifier_iff {text : String} : isIdentifier text = true ↔
    ∃ c word, text.toList = c :: word ∧ c.isDigit = false ∧ isWordChar c = true ∧
      ∀ d ∈ word, isWordChar d = true := by
  unfold isIdentifier
  rcases text.toList with _ | ⟨c, word⟩
  · simp
  · constructor
    · intro h
      simp only [Bool.and_eq_true, Bool.not_eq_true', List.all_eq_true] at h
      exact ⟨c, word, rfl, h.1.2, h.1.1, h.2⟩
    · rintro ⟨c', word', he, hd, hc, hw⟩
      cases he
      simp only [Bool.and_eq_true, Bool.not_eq_true', List.all_eq_true]
      exact ⟨⟨hc, hd⟩, hw⟩

theorem isWordChar_of_isIdentifier {text : String} (h : isIdentifier text = true) :
    ∀ c ∈ text.toList, isWordChar c = true := by
  obtain ⟨c, word, hl, -, hc, hw⟩ := isIdentifier_iff.mp h
  rw [hl]
  intro d hd
  rcases List.mem_cons.mp hd with rfl | hd
  · exact hc
  · exact hw d hd

/-- What stands behind the name of a record in a token: nothing, or an output. -/
def IsSelector (selector : String) : Prop :=
  selector = "" ∨
    ∃ attr, isIdentifier attr = true ∧ (selector = "::" ++ attr ∨ selector = "@" ++ attr)

/-- A token: the name of a record, or one of the record's outputs. -/
def IsToken (token : String) : Prop :=
  ∃ name selector, isIdentifier name = true ∧ IsSelector selector ∧ token = name ++ selector

/-- The name of the record that a token stands for. -/
def baseName (token : String) : String := String.ofList (token.toList.takeWhile isWordChar)

theorem afterSelector_closes {rest : List Char} (h : Closes rest) : afterSelector rest = rest := by
  rcases rest with _ | ⟨c, rest⟩
  · rfl
  · rcases h c rfl with rfl | rfl <;> rfl

/-- Whether a text ends the name it stands behind, does not call it and is left behind with it. -/
def FollowsName (selector : String) : Prop :=
  ∀ rest, Closes rest → EndsWord (selector.toList ++ rest) ∧
    (selector.toList ++ rest).head? ≠ some '(' ∧ afterSelector (selector.toList ++ rest) = rest

theorem followsName_empty : FollowsName "" := by
  intro rest hr
  refine ⟨hr.endsWord, fun he => ?_, afterSelector_closes hr⟩
  rcases hr '(' he with hc | hc <;> cases hc

/-- One output is selected with two colons. -/
theorem followsName_colons {attr : String} (h : ∀ c ∈ attr.toList, isWordChar c = true) :
    FollowsName ("::" ++ attr) := by
  intro rest hr
  have hl : ("::" ++ attr).toList ++ rest = ':' :: ':' :: (attr.toList ++ rest) := by simp
  rw [hl]
  exact ⟨endsWord_cons (by decide) _, by simp, dropWhile_word h hr.endsWord⟩

/-- One channel is selected with an at sign. -/
theorem followsName_at {attr : String} (h : ∀ c ∈ attr.toList, isWordChar c = true) :
    FollowsName ("@" ++ attr) := by
  intro rest hr
  have hl : ("@" ++ attr).toList ++ rest = '@' :: (attr.toList ++ rest) := by simp
  rw [hl]
  exact ⟨endsWord_cons (by decide) _, by simp, dropWhile_word h hr.endsWord⟩

theorem IsSelector.followsName {selector : String} (h : IsSelector selector) :
    FollowsName selector := by
  rcases h with rfl | ⟨attr, hattr, rfl | rfl⟩
  · exact followsName_empty
  · exact followsName_colons (isWordChar_of_isIdentifier hattr)
  · exact followsName_at (isWordChar_of_isIdentifier hattr)

theorem isToken_of_isIdentifier {name : String} (h : isIdentifier name = true) : IsToken name :=
  ⟨name, "", h, Or.inl rfl, String.append_empty.symm⟩

theorem baseName_append {name selector : String} (h : isIdentifier name = true)
    (hs : IsSelector selector) : baseName (name ++ selector) = name := by
  have hends := (hs.followsName [] closes_nil).1
  rw [List.append_nil] at hends
  unfold baseName
  rw [String.toList_append, takeWhile_word (isWordChar_of_isIdentifier h) hends,
    String.ofList_toList]

theorem baseName_of_isIdentifier {name : String} (h : isIdentifier name = true) :
    baseName name = name := by
  have hempty : IsSelector "" := Or.inl rfl
  have happend := baseName_append h hempty
  rwa [String.append_empty] at happend

/-- A name is read without what selects an output of it. -/
theorem reads_name {name selector : String} (hname : isIdentifier name = true)
    (hs : FollowsName selector) : Reads (name ++ selector) [name] := by
  intro rest hr
  obtain ⟨hends, hcall, hafter⟩ := hs rest hr
  obtain ⟨c, word, hl, hd, hc, hw⟩ := isIdentifier_iff.mp hname
  rw [String.toList_append, List.append_assoc, hl, List.cons_append,
    references_name hd hc hw hends hcall, hafter, List.map_cons, hl]
  rfl

/-- A token is read as the name it begins with. -/
theorem reads_token {token : String} (h : IsToken token) : Reads token [baseName token] := by
  obtain ⟨name, selector, hname, hs, rfl⟩ := h
  rw [baseName_append hname hs]
  exact reads_name hname hs.followsName

/-! ### Calls -/

section Parts

variable {α : Type} (text : α → String) (names : α → List String)

/-- Parts with commas between them. -/
theorem references_parts {items : List α} (h : ∀ a ∈ items, Reads (text a) (names a))
    (rest : List Char) :
    references ((String.intercalate "," (items.map text)).toList ++ ')' :: rest) =
      (items.flatMap names).map String.toList ++ references (')' :: rest) := by
  induction items with
  | nil => simp
  | cons a items ih =>
    have ha := h a List.mem_cons_self
    rcases items with _ | ⟨b, items⟩
    · simpa using ha _ (closes_bracket rest)
    · have ih := ih fun b hb => h b (List.mem_cons_of_mem a hb)
      have hl : (String.intercalate "," ((a :: b :: items).map text)).toList ++ ')' :: rest =
          (text a).toList ++ (',' ::
            ((String.intercalate "," ((b :: items).map text)).toList ++ ')' :: rest)) := by
        rw [List.map_cons, List.map_cons, String.intercalate_cons_cons]
        simp
      rw [hl, ha _ (closes_comma _), references_skip (by decide) (by decide), ih]
      simp only [List.flatMap_cons, List.map_append, List.append_assoc]

/-- A constructor is no reference; the references are those of its arguments. -/
theorem reads_call {constructor : String} (hc : isIdentifier constructor = true) {items : List α}
    (h : ∀ a ∈ items, Reads (text a) (names a)) :
    Reads (callText constructor (items.map text)) (items.flatMap names) := by
  intro rest _
  obtain ⟨c, word, hl, hd, hc, hw⟩ := isIdentifier_iff.mp hc
  have hcall : (callText constructor (items.map text)).toList ++ rest =
      c :: (word ++ '(' ::
        ((String.intercalate "," (items.map text)).toList ++ ')' :: rest)) := by
    simp [callText, hl]
  rw [hcall, references_call hd hc hw, references_parts text names h,
    references_skip (by decide) (by decide)]

end Parts

/-- A call whose arguments have no reference in them. -/
theorem reads_plainCall {constructor : String} (hc : isIdentifier constructor = true)
    {arguments : List String} (h : ∀ a ∈ arguments, Reads a []) :
    Reads (callText constructor arguments) [] := by
  have hcall := reads_call id (fun _ => []) hc h
  rwa [List.map_id, List.flatMap_eq_nil_iff.mpr fun _ _ => rfl] at hcall

theorem isIdentifier_constructor (kind : ListKind) : isIdentifier kind.constructor = true := by
  cases kind <;> decide

theorem reads_tokenList {tokens : List String} (h : ∀ token ∈ tokens, IsToken token) :
    Reads (listText .references tokens) (tokens.map baseName) := by
  have hcall := reads_call id (fun token => [baseName token])
    (isIdentifier_constructor .references) fun token ht => reads_token (h token ht)
  rwa [List.map_id, ← List.map_eq_flatMap] at hcall

theorem reads_plainList (kind : ListKind) {items : List String} (h : ∀ a ∈ items, Reads a []) :
    Reads (listText kind items) [] := reads_plainCall (isIdentifier_constructor kind) h

/-- A keyed value is a call with a pair in brackets. -/
theorem interpolateText_eq_call (frame : Int32) (value : String) : interpolateText frame value =
    callText "interpolate" ["(" ++ toString frame.toInt ++ "," ++ value ++ ")"] := by
  have hopen : interpolateText frame value = "interpolate" ++ ("(" ++ "(") ++
    toString frame.toInt ++ "," ++ value ++ (")" ++ ")") := rfl
  rw [hopen, callText, String.intercalate_singleton]
  simp only [String.append_assoc]

/-- The frame that a value is keyed to is no reference. -/
theorem reads_interpolate {value : String} {read : List String} (h : Reads value read)
    (frame : Int32) : Reads (interpolateText frame value) read := by
  have hpair : Reads ("(" ++ toString frame.toInt ++ "," ++ value ++ ")") read := by
    intro rest _
    have hl : ("(" ++ toString frame.toInt ++ "," ++ value ++ ")").toList ++ rest =
        '(' :: ((toString frame.toInt).toList ++ (',' :: (value.toList ++ (')' :: rest)))) := by
      simp
    rw [hl, references_skip (by decide) (by decide), reads_int _ _ (closes_comma _),
      references_skip (by decide) (by decide), h _ (closes_bracket _),
      references_skip (by decide) (by decide)]
    rfl
  have hcall := reads_call (fun _ => "(" ++ toString frame.toInt ++ "," ++ value ++ ")")
    (fun _ => read) (show isIdentifier "interpolate" = true by decide)
    fun a (_ : a ∈ [()]) => hpair
  rw [List.map_singleton, ← interpolateText_eq_call] at hcall
  simpa using hcall

/-! ### Literals -/

/-- Whether three numbers are finite. -/
def Triple.isFinite (t : Triple) : Bool := t.x.isFinite && t.y.isFinite && t.z.isFinite

/-- Whether the numbers of a transform are finite. -/
def Transform.isFinite (t : Transform) : Bool :=
  t.x.isFinite && t.y.isFinite && t.z.isFinite && t.offset.isFinite

/-- Whether all numbers in a literal are finite. -/
def Value.isFinite : Value → Bool
  | float x => x.isFinite
  | color c => c.isFinite
  | aColor c a => c.isFinite && a.isFinite
  | vector v => v.isFinite
  | transform t => t.isFinite
  | _ => true

theorem reads_triple {t : Triple} (h : t.isFinite = true) : ∀ a ∈ t.texts, Reads a [] := by
  simp only [Triple.isFinite, Bool.and_eq_true] at h
  simp only [Triple.texts, List.forall_mem_cons]
  exact ⟨reads_number h.1.1, reads_number h.1.2, reads_number h.2, by simp⟩

theorem reads_vector {t : Triple} (h : t.isFinite = true) : Reads t.vectorText [] :=
  reads_plainCall (by decide) (reads_triple h)

theorem reads_transform {t : Transform} (h : t.isFinite = true) : Reads t.text [] := by
  simp only [Transform.isFinite, Bool.and_eq_true] at h
  refine reads_plainCall (by decide) ?_
  simp only [List.forall_mem_cons]
  refine ⟨reads_plainCall (by decide) ?_, reads_vector h.2, by simp⟩
  simp only [List.forall_mem_cons]
  exact ⟨reads_vector h.1.1.1, reads_vector h.1.1.2, reads_vector h.1.2, by simp⟩

/-- A literal has no reference in it. -/
theorem reads_value {v : Value} (h : v.isFinite = true) : Reads v.text [] := by
  cases v with
  | bool b => cases b with
    | false => exact reads_nat 0
    | true => exact reads_nat 1
  | int i => exact reads_int _
  | enum i => exact reads_int _
  | float x => exact reads_number h
  | color c => exact reads_plainCall (by decide) (reads_triple h)
  | aColor c a =>
    obtain ⟨hc, ha⟩ := Bool.and_eq_true_iff.mp h
    refine reads_plainCall (by decide) fun text ht => ?_
    rcases List.mem_append.mp ht with ht | ht
    · exact reads_triple hc text ht
    · rw [List.mem_singleton.mp ht]
      exact reads_number ha
  | vector v => exact reads_vector h
  | transform t => exact reads_transform h
  | string s => exact reads_quote s
  | path s => exact reads_quote s

/-- On its own a text has the references that it has as a part. -/
theorem Reads.references_eq {text : String} {read : List String} (h : Reads text read) :
    (references text.toList).map String.ofList = read := by
  have h := h [] closes_nil
  rw [List.append_nil, references_nil, List.append_nil] at h
  rw [h]
  simp

end ShadeNet
