/-
# What the text of a literal tells

A literal is spelled as a number, as a string in quotes or as a call, and the text tells which.
In a number or a call every bracket is closed that is opened, and a comma stands in brackets only.
So an argument of a call ends at the first comma or closing bracket that is not its own, and a call
has one constructor and one list of arguments. What is lost are the digits of a number behind the
sixth place, and which of two types with the same spelling a literal has.

Key definitions: `IsPart`, `Phrase`, `Value.reading`, `Value.LooksLike`.
Key theorems: `part_append_inj`, `callText_inj`, `Phrase.text_inj`, `interpolateText_inj`,
`literal_text_inj`.
-/
import ShadeNet.Proofs.Decoding

namespace ShadeNet

/-! ### Arguments -/

/-- Goes over one character in so many brackets. Outside all of them, a comma or a closing bracket
is no part of an argument. -/
def nextDepth (depth : Nat) (c : Char) : Option Nat :=
  if c = '(' then some (depth + 1)
  else if depth = 0 ∧ (c = ',' ∨ c = ')') then none
  else if c = ')' then some (depth - 1)
  else some depth

/-- A text that closes the brackets it opens and has no comma outside them. -/
def IsPart (text : String) : Prop := text.toList.foldlM nextDepth 0 = some 0

instance (text : String) : Decidable (IsPart text) :=
  inferInstanceAs (Decidable (text.toList.foldlM nextDepth 0 = some 0))

/-- In more brackets, the same brackets are opened and closed. -/
theorem nextDepth_add {depth after : Nat} {c : Char} (h : nextDepth depth c = some after)
    (more : Nat) : nextDepth (depth + more) c = some (after + more) := by
  unfold nextDepth at *
  grind

theorem foldlM_nextDepth_add {cs : List Char} {depth after : Nat}
    (h : cs.foldlM nextDepth depth = some after) (more : Nat) :
    cs.foldlM nextDepth (depth + more) = some (after + more) := by
  induction cs generalizing depth with
  | nil =>
    cases h
    rfl
  | cons c cs ih =>
    rw [List.foldlM_cons] at h ⊢
    obtain ⟨between, hc, hcs⟩ := Option.bind_eq_some_iff.mp h
    rw [nextDepth_add hc more]
    exact ih hcs

theorem IsPart.foldlM {text : String} (h : IsPart text) (depth : Nat) :
    text.toList.foldlM nextDepth depth = some depth := by
  have hadd := foldlM_nextDepth_add h depth
  rwa [Nat.zero_add] at hadd

theorem IsNumeral.isPart {text : String} (h : IsNumeral text) : IsPart text := by
  refine foldlM_stay fun c hc => ?_
  have hopen : c ≠ '(' := h.ne hc (by decide)
  have hcomma : c ≠ ',' := h.ne hc (by decide)
  have hclose : c ≠ ')' := h.ne hc (by decide)
  simp [nextDepth, hopen, hcomma, hclose]

/-- What stands behind the first argument of a call. -/
def moreArguments : List String → List Char
  | [] => [')']
  | argument :: rest => ',' :: (argument.toList ++ moreArguments rest)

theorem closes_moreArguments (arguments : List String) : Closes (moreArguments arguments) := by
  cases arguments with
  | nil => exact closes_bracket []
  | cons argument rest => exact closes_comma _

theorem intercalate_eq_moreArguments (argument : String) (rest : List String) :
    (String.intercalate "," (argument :: rest)).toList ++ [')'] =
      argument.toList ++ moreArguments rest := by
  induction rest generalizing argument with
  | nil => simp [moreArguments]
  | cons next rest ih =>
    rw [String.intercalate_cons_cons, String.toList_append, String.toList_append,
      List.append_assoc, ih, List.append_assoc]
    rfl

theorem callText_eq (constructor argument : String) (rest : List String) :
    (callText constructor (argument :: rest)).toList =
      constructor.toList ++ '(' :: (argument.toList ++ moreArguments rest) := by
  have hclose : ")".toList = [')'] := rfl
  unfold callText
  rw [String.toList_append, String.toList_append, String.toList_append, hclose, List.append_assoc,
    intercalate_eq_moreArguments, List.append_assoc]
  rfl

theorem foldlM_moreArguments {arguments : List String} (h : ∀ a ∈ arguments, IsPart a) :
    (moreArguments arguments).foldlM nextDepth 1 = some 0 := by
  induction arguments with
  | nil => rfl
  | cons argument rest ih =>
    have hcomma : nextDepth 1 ',' = some 1 := by decide
    rw [moreArguments, foldlM_cons_of_eq hcomma,
      foldlM_append_of_eq ((h argument List.mem_cons_self).foldlM 1)]
    exact ih fun a ha => h a (List.mem_cons_of_mem argument ha)

/-- A call may be an argument of another one. -/
theorem isPart_call {constructor argument : String} {rest : List String}
    (hc : isIdentifier constructor = true) (h : ∀ a ∈ argument :: rest, IsPart a) :
    IsPart (callText constructor (argument :: rest)) := by
  obtain ⟨hargument, hrest⟩ := List.forall_mem_cons.mp h
  have hword : IsPart constructor := IsNumeral.isPart (isNumeral_iff.mpr fun c hmem => by
    simp [isNumeralChar, isWordChar_of_isIdentifier hc c hmem])
  have hopen : nextDepth 0 '(' = some 1 := by decide
  unfold IsPart
  rw [callText_eq, foldlM_append_of_eq hword, foldlM_cons_of_eq hopen,
    foldlM_append_of_eq (hargument.foldlM 1)]
  exact foldlM_moreArguments hrest

/-- A vector is one argument, and its numbers are two. -/
example : IsPart "Vector(0.5,1)" ∧ ¬ IsPart "0.5,1" := by decide

/-- An argument does not go on behind a place where it may end. -/
theorem eq_nil_of_closes {part more rest : List Char} (hpart : part.foldlM nextDepth 0 = some 0)
    (hmore : (part ++ more).foldlM nextDepth 0 = some 0) (hrest : Closes (more ++ rest)) :
    more = [] := by
  rcases more with _ | ⟨c, more⟩
  · rfl
  have hc : c = ',' ∨ c = ')' := hrest c rfl
  have hstop : nextDepth 0 c = none := by
    rcases hc with rfl | rfl <;> rfl
  rw [foldlM_append_of_eq hpart, List.foldlM_cons, hstop] at hmore
  cases hmore

/-- Where an argument ends is seen from the text itself. -/
theorem part_append_inj {s t : String} (hs : IsPart s) (ht : IsPart t) {x y : List Char}
    (hx : Closes x) (hy : Closes y) (h : s.toList ++ x = t.toList ++ y) : s = t ∧ x = y := by
  have hlists : s.toList = t.toList ∧ x = y := by
    rcases List.append_eq_append_iff.mp h with ⟨more, hmore, rfl⟩ | ⟨more, hmore, rfl⟩
    · have hnil := eq_nil_of_closes hs (hmore ▸ ht) hx
      subst hnil
      exact ⟨by simpa using hmore.symm, rfl⟩
    · have hnil := eq_nil_of_closes ht (hmore ▸ hs) hy
      subst hnil
      exact ⟨by simpa using hmore, rfl⟩
  exact ⟨String.toList_inj.mp hlists.1, hlists.2⟩

theorem moreArguments_inj {as bs : List String} (ha : ∀ a ∈ as, IsPart a)
    (hb : ∀ b ∈ bs, IsPart b) (h : moreArguments as = moreArguments bs) : as = bs := by
  induction as generalizing bs with
  | nil =>
    cases bs with
    | nil => rfl
    | cons b bs => exact absurd (List.cons.inj h).1 (by decide)
  | cons a as ih =>
    cases bs with
    | nil => exact absurd (List.cons.inj h).1 (by decide)
    | cons b bs =>
      obtain ⟨ha, has⟩ := List.forall_mem_cons.mp ha
      obtain ⟨hb, hbs⟩ := List.forall_mem_cons.mp hb
      obtain ⟨rfl, hrest⟩ := part_append_inj ha hb (closes_moreArguments as)
        (closes_moreArguments bs) (List.cons.inj h).2
      rw [ih has hbs hrest]

theorem callText_constructor_inj {c d : String} (hc : isIdentifier c = true)
    (hd : isIdentifier d = true) {as bs : List String} (h : callText c as = callText d bs) :
    c = d := by
  have htake : ∀ {word : String}, isIdentifier word = true → ∀ arguments,
      (callText word arguments).toList.takeWhile isWordChar = word.toList := by
    intro word hword arguments
    have hopen : (callText word arguments).toList =
        word.toList ++ '(' :: (String.intercalate "," arguments ++ ")").toList := by
      simp [callText]
    rw [hopen]
    exact takeWhile_word (isWordChar_of_isIdentifier hword) (endsWord_cons (by decide) _)
  have hwords := congrArg (fun text => text.toList.takeWhile isWordChar) h
  simp only [htake hc, htake hd] at hwords
  exact String.toList_inj.mp hwords

/-- A call tells its constructor and its arguments. -/
theorem callText_inj {c d a b : String} {as bs : List String} (hc : isIdentifier c = true)
    (hd : isIdentifier d = true) (ha : ∀ x ∈ a :: as, IsPart x) (hb : ∀ x ∈ b :: bs, IsPart x)
    (h : callText c (a :: as) = callText d (b :: bs)) : c = d ∧ a :: as = b :: bs := by
  have hcd : c = d := callText_constructor_inj hc hd h
  subst hcd
  have hlists := congrArg String.toList h
  rw [callText_eq, callText_eq] at hlists
  have harguments := (List.cons.inj (List.append_cancel_left hlists)).2
  obtain ⟨rfl, hrest⟩ := part_append_inj (List.forall_mem_cons.mp ha).1
    (List.forall_mem_cons.mp hb).1 (closes_moreArguments as) (closes_moreArguments bs) harguments
  rw [moreArguments_inj (List.forall_mem_cons.mp ha).2 (List.forall_mem_cons.mp hb).2 hrest]
  exact ⟨rfl, rfl⟩

/-! ### Phrases -/

/-- The constructors of literals. -/
def literalConstructors : List String := ["Color", "AColor", "Vector", "Transform"]

theorem isIdentifier_of_mem {constructor : String} (h : constructor ∈ literalConstructors) :
    isIdentifier constructor = true := by
  have hall : ∀ c ∈ literalConstructors, isIdentifier c = true := by decide
  exact hall constructor h

/-- How a literal is spelled. -/
inductive Phrase
  /-- As a number. -/
  | numeral (text : String)
  /-- As a call, with one argument at least. -/
  | call (constructor argument : String) (rest : List String)
  /-- As a string in quotes. -/
  | quoted (text : String)

namespace Phrase

/-- The text. -/
def text : Phrase → String
  | numeral text => text
  | call constructor argument rest => callText constructor (argument :: rest)
  | quoted text => quote text

/-- Whether the parts of a text are what they are taken for. -/
def IsProper : Phrase → Prop
  | numeral text => IsNumeral text
  | call constructor argument rest =>
    constructor ∈ literalConstructors ∧ ∀ a ∈ argument :: rest, IsPart a
  | quoted _ => True

theorem numeral_ne_call {number constructor argument : String} {rest : List String}
    (h : IsNumeral number) : number ≠ callText constructor (argument :: rest) := by
  intro heq
  have hopen : '(' ∈ number.toList := by
    rw [heq, callText_eq]
    exact List.mem_append_right _ List.mem_cons_self
  exact h.ne hopen (by decide) rfl

theorem numeral_ne_quote {number s : String} (h : IsNumeral number) : number ≠ quote s := by
  intro heq
  have hquote : '"' ∈ number.toList := by
    rw [heq]
    simp [quote]
  exact h.ne hquote (by decide) rfl

theorem callText_ne_quote {constructor : String} (h : isIdentifier constructor = true)
    (arguments : List String) (s : String) : callText constructor arguments ≠ quote s := by
  intro heq
  obtain ⟨c, word, hl, -, hc, -⟩ := isIdentifier_iff.mp h
  have hlists := congrArg String.toList heq
  simp only [callText, quote, String.toList_append, hl, List.cons_append] at hlists
  have hquote : c = '"' := (List.cons.inj hlists).1
  rw [hquote] at hc
  exact absurd hc (by decide)

/-- A text is one phrase only. -/
theorem text_inj {a b : Phrase} (ha : a.IsProper) (hb : b.IsProper) (h : a.text = b.text) :
    a = b := by
  match a, b with
  | numeral s, numeral t => exact congrArg numeral h
  | numeral s, call c x rest => exact absurd h (numeral_ne_call ha)
  | numeral s, quoted t => exact absurd h (numeral_ne_quote ha)
  | call c x rest, numeral t => exact absurd h.symm (numeral_ne_call hb)
  | call c x as, call d y bs =>
    obtain ⟨rfl, harguments⟩ :=
      callText_inj (isIdentifier_of_mem ha.1) (isIdentifier_of_mem hb.1) ha.2 hb.2 h
    obtain ⟨rfl, rfl⟩ := List.cons.inj harguments
    rfl
  | call c x as, quoted t => exact absurd h (callText_ne_quote (isIdentifier_of_mem ha.1) _ t)
  | quoted s, numeral t => exact absurd h.symm (numeral_ne_quote hb)
  | quoted s, call d y bs =>
    exact absurd h.symm (callText_ne_quote (isIdentifier_of_mem hb.1) _ s)
  | quoted s, quoted t =>
    have hstrings := congrArg (· ++ "") h
    exact congrArg quoted (quote_append_inj hstrings).1

end Phrase

/-! ### Literals -/

/-- Numbers that are written alike. -/
def Single.LooksLike (x y : Single) : Prop := numberText x = numberText y

/-- Vectors and colours whose numbers are written alike. -/
def Triple.LooksLike (s t : Triple) : Prop :=
  s.x.LooksLike t.x ∧ s.y.LooksLike t.y ∧ s.z.LooksLike t.z

/-- Transforms whose numbers are written alike. -/
def Transform.LooksLike (s t : Transform) : Prop :=
  s.x.LooksLike t.x ∧ s.y.LooksLike t.y ∧ s.z.LooksLike t.z ∧ s.offset.LooksLike t.offset

/-- Literals of one type, equal but for numbers that are written alike. -/
def Value.LooksLike : Value → Value → Prop
  | .bool b, .bool c => b = c
  | .int i, .int j => i = j
  | .enum i, .enum j => i = j
  | .float x, .float y => x.LooksLike y
  | .color c, .color d => c.LooksLike d
  | .aColor c a, .aColor d b => c.LooksLike d ∧ a.LooksLike b
  | .vector v, .vector w => v.LooksLike w
  | .transform s, .transform t => s.LooksLike t
  | .string s, .string t => s = t
  | .path s, .path t => s = t
  | _, _ => False

/-- A literal as whoever has its text alone takes it: a switch or the place in a list as a number,
a path as a string. -/
def Value.reading : Value → Value
  | .bool b => .int (if b then 1 else 0)
  | .enum i => .int i
  | .path s => .string s
  | v => v

/-- How a literal is spelled. -/
def Value.phrase : Value → Phrase
  | .bool b => .numeral (boolText b)
  | .int i | .enum i => .numeral (toString i.toInt)
  | .float x => .numeral (numberText x)
  | .color c => .call "Color" (numberText c.x) [numberText c.y, numberText c.z]
  | .aColor c a => .call "AColor" (numberText c.x) [numberText c.y, numberText c.z, numberText a]
  | .vector v => .call "Vector" (numberText v.x) [numberText v.y, numberText v.z]
  | .transform t =>
    .call "Transform" (callText "Matrix" [t.x.vectorText, t.y.vectorText, t.z.vectorText])
      [t.offset.vectorText]
  | .string s | .path s => .quoted s

theorem Value.text_phrase (v : Value) : v.phrase.text = v.text := by
  cases v <;> rfl

theorem isPart_number (x : Single) : IsPart (numberText x) := (isNumeral_number x).isPart

theorem isPart_triple (t : Triple) : ∀ a ∈ t.texts, IsPart a := by
  simp only [Triple.texts, List.forall_mem_cons]
  exact ⟨isPart_number _, isPart_number _, isPart_number _, by simp⟩

theorem isPart_vector (t : Triple) : IsPart t.vectorText :=
  isPart_call (by decide) (isPart_triple t)

theorem isPart_matrix (t : Transform) :
    ∀ a ∈ [t.x.vectorText, t.y.vectorText, t.z.vectorText], IsPart a := by
  simp only [List.forall_mem_cons]
  exact ⟨isPart_vector _, isPart_vector _, isPart_vector _, by simp⟩

theorem Value.isProper_phrase (v : Value) : v.phrase.IsProper := by
  cases v with
  | bool b =>
    have hswitch : ∀ b, IsNumeral (boolText b) := by decide
    exact hswitch b
  | int i | enum i => exact isNumeral_int _
  | float x => exact isNumeral_number x
  | color c | vector c => exact ⟨by decide, isPart_triple c⟩
  | aColor c a =>
    refine ⟨by decide, ?_⟩
    simp only [List.forall_mem_cons]
    exact ⟨isPart_number _, isPart_number _, isPart_number _, isPart_number _, by simp⟩
  | transform t =>
    refine ⟨by decide, ?_⟩
    simp only [List.forall_mem_cons]
    exact ⟨isPart_call (by decide) (isPart_matrix t), isPart_vector _, by simp⟩
  | string s | path s => trivial

/-- A number with six places is no whole number. -/
theorem numberText_ne_int (x : Single) (i : Int) : numberText x ≠ toString i := by
  have hnumber : ∃ c ∈ (numberText x).toList, ¬(c.isDigit = true ∨ c = '-') := by
    unfold numberText Single.fixed placedText
    by_cases hnan : x.isNaN = true
    · exact ⟨'N', by simp [hnan], by decide⟩
    · by_cases hfinite : x.isFinite = true
      · exact ⟨'.', by simp [hnan, hfinite], by decide⟩
      · exact ⟨'i', by simp [hnan, hfinite], by decide⟩
  intro heq
  obtain ⟨c, hc, hno⟩ := hnumber
  rw [heq] at hc
  exact hno (mem_int hc)

/-- Whole numbers differ in their texts. -/
theorem toString_toInt_inj {i j : Int32} : toString i.toInt = toString j.toInt ↔ i = j := by
  refine ⟨fun h => Int32.toInt_inj.mp ?_, fun h => h ▸ rfl⟩
  have hminus : ∀ n digits, Nat.toDigits 10 n ≠ '-' :: digits := fun n digits he =>
    absurd (isDigit_toDigits n '-' (he ▸ List.mem_cons_self)) (by decide)
  have hlists := congrArg String.toList h
  rw [toList_int, toList_int] at hlists
  split at hlists <;> split at hlists
  · have := toDigits_inj hlists
    omega
  · exact absurd hlists (hminus _ _)
  · exact absurd hlists.symm (hminus _ _)
  · have := toDigits_inj (List.cons.inj hlists).2
    omega

theorem vectorText_inj {s t : Triple} : s.vectorText = t.vectorText ↔ s.LooksLike t := by
  constructor
  · intro h
    have harguments := (callText_inj (by decide) (by decide) (isPart_triple s) (isPart_triple t) h).2
    simpa [Triple.texts, Triple.LooksLike, Single.LooksLike] using harguments
  · rintro ⟨hx, hy, hz⟩
    unfold Triple.vectorText Triple.texts
    rw [hx, hy, hz]

theorem matrixText_inj {s t : Transform} :
    callText "Matrix" [s.x.vectorText, s.y.vectorText, s.z.vectorText] =
        callText "Matrix" [t.x.vectorText, t.y.vectorText, t.z.vectorText] ↔
      s.x.LooksLike t.x ∧ s.y.LooksLike t.y ∧ s.z.LooksLike t.z := by
  simp only [← vectorText_inj]
  constructor
  · intro h
    have harguments := (callText_inj (by decide) (by decide) (isPart_matrix s) (isPart_matrix t) h).2
    simpa using harguments
  · rintro ⟨hx, hy, hz⟩
    rw [hx, hy, hz]

/-- Two literals are one phrase if they look alike. -/
theorem Value.phrase_inj (a b : Value) :
    a.phrase = b.phrase ↔ a.reading.LooksLike b.reading := by
  have hbool : ∀ b : Bool, boolText b = toString (if b then (1 : Int32) else 0).toInt := by decide
  have hnumber : ∀ (i : Int) (x : Single), toString i ≠ numberText x := fun i x =>
    (numberText_ne_int x i).symm
  -- of one type, literals differ in what they hold; of two types, in the kind or the constructor of
  -- their phrases, or a number with six places stands against a whole one
  cases a <;> cases b <;>
    simp [-Int.toString_eq_repr, phrase, reading, LooksLike, Triple.LooksLike, Single.LooksLike,
      Transform.LooksLike, vectorText_inj, matrixText_inj, toString_toInt_inj, numberText_ne_int,
      hnumber, hbool, and_assoc]

theorem Value.text_inj (a b : Value) : a.text = b.text ↔ a.reading.LooksLike b.reading := by
  rw [← phrase_inj, ← text_phrase, ← text_phrase]
  exact ⟨Phrase.text_inj a.isProper_phrase b.isProper_phrase, congrArg Phrase.text⟩

/-- The least number above zero is written as zero. -/
example : Single.LooksLike ⟨1⟩ (Single.zero false) := by
  show numberText _ = numberText _
  decide +kernel

/-! ### Keyed values -/

/-- A keyed value tells its frame and its value. -/
theorem interpolateText_inj {f g : Int32} {s t : String} :
    interpolateText f s = interpolateText g t ↔ f = g ∧ s = t := by
  refine ⟨fun h => ?_, fun ⟨hf, hs⟩ => by rw [hf, hs]⟩
  have hpart : ∀ i : Int, IsPart (toString i) := fun i => (isNumeral_int i).isPart
  have hlist : ∀ (f : Int32) (s : String), (interpolateText f s).toList =
      "interpolate((".toList ++ ((toString f.toInt).toList ++ ',' :: (s ++ "))").toList) := by
    intro f s
    simp [interpolateText]
  have hlists := congrArg String.toList h
  rw [hlist, hlist] at hlists
  obtain ⟨hframe, hrest⟩ := part_append_inj (hpart _) (hpart _) (closes_comma _) (closes_comma _)
    (List.append_cancel_left hlists)
  have hvalue := String.toList_inj.mp (List.cons.inj hrest).2
  exact ⟨toString_toInt_inj.mp hframe, (String.append_left_inj _).mp hvalue⟩

/-- A literal on its own is no keyed value. -/
theorem text_ne_interpolateText (v : Value) (frame : Int32) (value : String) :
    v.text ≠ interpolateText frame value := by
  rw [← v.text_phrase, interpolateText_eq_call]
  have hkeyed : isIdentifier "interpolate" = true := by decide
  have hproper := v.isProper_phrase
  match v.phrase, hproper with
  | .numeral s, hs => exact Phrase.numeral_ne_call hs
  | .call c a rest, hc =>
    intro h
    have hname := callText_constructor_inj (isIdentifier_of_mem hc.1) hkeyed h
    rw [hname] at hc
    exact absurd hc.1 (by decide)
  | .quoted s, _ => exact (Phrase.callText_ne_quote hkeyed _ s).symm

/-- **The text of a literal loses nothing but digits.** Two literals have the same text, on their
own or keyed to a frame, exactly if they are keyed to the same frame and look alike: they are equal
once a switch and the place in a list are taken for whole numbers and a path for a string, but for
numbers that have the same text. No literal on its own has the text of a keyed one. -/
theorem literal_text_inj (a b : Value) (f g : Int32) :
    (a.text = b.text ↔ a.reading.LooksLike b.reading) ∧
    (interpolateText f a.text = interpolateText g b.text ↔
      f = g ∧ a.reading.LooksLike b.reading) ∧
    a.text ≠ interpolateText g b.text := by
  refine ⟨a.text_inj b, ?_, text_ne_interpolateText a g b.text⟩
  rw [interpolateText_inj, a.text_inj b]

end ShadeNet
