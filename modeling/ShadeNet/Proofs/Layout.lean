/-
# How a document may be laid out

An item is spelled in more than one way: blanks and comments stand between its tokens, a comma
may stand behind the last member of a group, a text is quoted with escapes where none are needed,
or raw. The grammar of these spellings is given here on its own, tokens first and then their
characters, and every document of an item that follows it is parsed as that item. The text that
is written for an item is one of them.

Key definitions: `Spells`, `Laid`, `Row`, `Item.LaidOut`, `Item.Prints`.
Key theorems: `Laid.scanTokens`, `Row.parse`, `Item.LaidOut.parse`, `Item.Prints.laidOut`.
-/
import ShadeNet.Document.Item
import ShadeNet.Document.Write
import ShadeNet.Proofs.DataShape
import ShadeNet.Proofs.ReadNumber

namespace ShadeNet.Document

/-! ### What ends a word -/

/-- The blanks. -/
def spacing : List Char :=
  [' ', '\t', '\n', '\x0b', '\x0c', '\r', '\x85', '\u200E', '\u200F', '\u2028', '\u2029']

/-- What else may stand right behind a word or a numeral: the slash of a comment, or a mark. -/
def marks : List Char := ['/', ',', ':', '(', ')', '[', ']', '\x7b', '\x7d']

/-- Nothing, a blank or a mark stands in front, so a word behind which the characters stand ends. -/
def EndsToken (cs : List Char) : Prop := ∀ c ∈ cs.head?, c ∈ spacing ++ marks

theorem mem_spacing_of_isBlank {c : Char} (h : isBlank c = true) : c ∈ spacing := by
  simp only [isBlank, Bool.or_eq_true, Bool.and_eq_true, beq_iff_eq, decide_eq_true_eq] at h
  rcases h with (((((rfl | ⟨hlow, hhigh⟩) | rfl) | rfl) | rfl) | rfl) | rfl
  case inl.inl.inl.inl.inl.inr =>
    have hlow' : 9 ≤ c.toNat := hlow
    have hhigh' : c.toNat ≤ 13 := hhigh
    have hcases : c.toNat = 9 ∨ c.toNat = 10 ∨ c.toNat = 11 ∨ c.toNat = 12 ∨ c.toNat = 13 := by
      omega
    rw [← Char.ofNat_toNat c]
    rcases hcases with h | h | h | h | h <;> rw [h] <;> decide
  all_goals decide

/-- What ends a word continues none, and opens no literal behind a letter. -/
theorem ender_cases {c : Char} (h : c ∈ spacing ++ marks) : isRawWordChar c = false ∧
    isWordContinue c = false ∧ c ≠ '"' ∧ c ≠ '#' ∧ c ≠ '\'' := by
  have hall : ((spacing ++ marks).all fun c => decide (isRawWordChar c = false ∧
      isWordContinue c = false ∧ c ≠ '"' ∧ c ≠ '#' ∧ c ≠ '\'')) = true := by
    decide +kernel
  exact of_decide_eq_true (List.all_eq_true.mp hall c h)

namespace EndsToken

variable {rest : List Char}

theorem nil : EndsToken [] := fun c hc => by cases hc

theorem blank {c : Char} (h : isBlank c = true) (rest : List Char) : EndsToken (c :: rest) := by
  intro d hd
  cases hd
  exact List.mem_append_left _ (mem_spacing_of_isBlank h)

theorem mark {c : Char} (h : c ∈ marks) (rest : List Char) : EndsToken (c :: rest) := by
  intro d hd
  cases hd
  exact List.mem_append_right _ h

theorem isRawWordChar (h : EndsToken rest) : ∀ c ∈ rest.head?, isRawWordChar c = false :=
  fun c hc => (ender_cases (h c hc)).1

theorem isWordContinue (h : EndsToken rest) : ∀ c ∈ rest.head?, isWordContinue c = false :=
  fun c hc => (ender_cases (h c hc)).2.1

end EndsToken

/-! ### Words and numerals -/

/-- Whether characters make up a numeral. -/
def isNumeralText : List Char → Bool
  | [] => false
  | c :: rest => isNumeralStart c && rest.all isRawWordChar

theorem exists_of_isWord {cs : List Char} (h : isWord cs = true) : ∃ c rest, cs = c :: rest ∧
    isWordStart c = true ∧ ∀ d ∈ rest, isWordContinue d = true := by
  cases cs with
  | nil => cases h
  | cons c rest =>
    obtain ⟨hc, hrest⟩ := Bool.and_eq_true_iff.mp h
    exact ⟨c, rest, rfl, hc, List.all_eq_true.mp hrest⟩

theorem exists_of_isNumeralText {cs : List Char} (h : isNumeralText cs = true) : ∃ c rest,
    cs = c :: rest ∧ isNumeralStart c = true ∧ ∀ d ∈ rest, isRawWordChar d = true := by
  cases cs with
  | nil => cases h
  | cons c rest =>
    obtain ⟨hc, hrest⟩ := Bool.and_eq_true_iff.mp h
    exact ⟨c, rest, rfl, hc, List.all_eq_true.mp hrest⟩

theorem scanWord_run {c : Char} {word rest : List Char}
    (hword : ∀ d ∈ word, isWordContinue d = true) (hrest : EndsToken rest) :
    scanWord c (word ++ rest) = some (.word (String.ofList (c :: word)), rest) := by
  have hend : rest.head?.any isRawWordChar = false := by
    cases rest with
    | nil => rfl
    | cons d rest => exact hrest.isRawWordChar d rfl
  simp only [scanWord, takeWhile_run hword hrest.isWordContinue,
    dropWhile_run hword hrest.isWordContinue, hend, Bool.false_and, Bool.false_eq_true, if_false]

/-- No letter opens a literal in front of the rest of a word. -/
theorem head_word {word rest : List Char} (hword : ∀ d ∈ word, isWordContinue d = true)
    (hrest : EndsToken rest) : ∀ c ∈ (word ++ rest).head?, c ≠ '"' ∧ c ≠ '#' ∧ c ≠ '\'' := by
  intro c hc
  cases word with
  | nil => exact (ender_cases (hrest c hc)).2.2
  | cons d word =>
    have hd : isWordContinue d = true := hword d List.mem_cons_self
    cases hc
    refine ⟨?_, ?_, ?_⟩ <;> rintro rfl <;> exact absurd hd (by decide)

theorem scanR_word {word rest : List Char} (hword : ∀ d ∈ word, isWordContinue d = true)
    (hrest : EndsToken rest) :
    scanR (word ++ rest) = some (.word (String.ofList ('r' :: word)), rest) := by
  have hhead := head_word hword hrest
  have hrun := scanWord_run (c := 'r') hword hrest
  generalize word ++ rest = cs at hhead hrun ⊢
  cases cs with
  | nil => exact hrun
  | cons d cs =>
    obtain ⟨hquote, hhash, -⟩ := hhead d rfl
    simp [scanR, hhash, hrun]

theorem scanB_word {word rest : List Char} (hword : ∀ d ∈ word, isWordContinue d = true)
    (hrest : EndsToken rest) :
    scanB (word ++ rest) = some (.word (String.ofList ('b' :: word)), rest) := by
  have hhead := head_word hword hrest
  have hrun := scanWord_run (c := 'b') hword hrest
  unfold scanB
  split
  · rename_i heq
    exact absurd rfl (hhead '"' (by rw [heq]; rfl)).1
  · rename_i heq
    exact absurd rfl (hhead '\'' (by rw [heq]; rfl)).2.2
  · rename_i body heq
    -- The word goes on behind the second letter, or it ends there.
    have hbody : ∀ c ∈ body.head?, c ≠ '"' ∧ c ≠ '#' ∧ c ≠ '\'' := by
      cases word with
      | nil =>
        have hr : isWordContinue 'r' = false := hrest.isWordContinue 'r' (by
          rw [List.nil_append] at heq
          rw [heq]
          rfl)
        exact absurd hr (by decide)
      | cons d word =>
        cases heq
        exact head_word (fun c hc => hword c (List.mem_cons_of_mem _ hc)) hrest
    rw [hrun]
    cases body with
    | nil => rfl
    | cons d body =>
      obtain ⟨hquote, hhash, -⟩ := hbody d rfl
      simp [hhash, hquote]
  · exact hrun

/-- What holds of the first characters by number holds of all that are among them. -/
theorem char_of_lt {P : Char → Prop} {bound : Nat} (h : ∀ n < bound, P (Char.ofNat n)) {c : Char}
    (hc : c.toNat < bound) : P c := by
  have hp := h c.toNat hc
  rwa [Char.ofNat_toNat] at hp

theorem toNat_of_isNumeralStart {c : Char} (h : isNumeralStart c = true) : c.toNat < 58 := by
  simp only [isNumeralStart, isDecimalDigit, Bool.or_eq_true, Bool.and_eq_true, beq_iff_eq,
    decide_eq_true_eq] at h
  rcases h with ((⟨-, hhigh⟩ | rfl) | rfl) | rfl
  · have hhigh' : c.toNat ≤ 57 := hhigh
    omega
  all_goals decide

theorem isWordStart_of_isNumeralStart {c : Char} (h : isNumeralStart c = true) :
    isWordStart c = false ∧ isBlank c = false ∧ c ≠ '/' ∧ c ≠ ')' := by
  have hall : ∀ n < 58, isNumeralStart (Char.ofNat n) = true →
      isWordStart (Char.ofNat n) = false ∧ isBlank (Char.ofNat n) = false ∧
        Char.ofNat n ≠ '/' ∧ Char.ofNat n ≠ ')' := by
    decide
  exact char_of_lt (P := fun c => isNumeralStart c = true → isWordStart c = false ∧
    isBlank c = false ∧ c ≠ '/' ∧ c ≠ ')') hall (toNat_of_isNumeralStart h) h

theorem isBlank_of_isWordStart {c : Char} (h : isWordStart c = true) : isBlank c = false := by
  have hall : spacing.all (fun d => !isWordStart d) = true := by decide +kernel
  cases hblank : isBlank c with
  | false => rfl
  | true =>
    have hstart := List.all_eq_true.mp hall c (mem_spacing_of_isBlank hblank)
    rw [h] at hstart
    cases hstart

/-- A word is scanned as a whole, whatever ends it. -/
theorem scanToken_word {c : Char} {word rest : List Char} (hc : isWordStart c = true)
    (hword : ∀ d ∈ word, isWordContinue d = true) (hrest : EndsToken rest) :
    scanToken false c (word ++ rest) = some (.word (String.ofList (c :: word)), rest) := by
  have hnumeral : isNumeralStart c = false := by
    cases h : isNumeralStart c with
    | false => rfl
    | true => rw [(isWordStart_of_isNumeralStart h).1] at hc; cases hc
  unfold scanToken
  split
  case h_13 => exact scanR_word hword hrest
  case h_14 => exact scanB_word hword hrest
  case h_15 => simp [hnumeral, hc, scanWord_run hword hrest]
  all_goals exact absurd hc (by decide)

theorem scanToken_numeral {c : Char} {digits rest : List Char} (hc : isNumeralStart c = true)
    (hdigits : ∀ d ∈ digits, isRawWordChar d = true) (hrest : EndsToken rest) :
    scanToken false c (digits ++ rest) = some (.numeral (String.ofList (c :: digits)), rest) := by
  unfold scanToken
  split
  case h_15 =>
    rw [if_pos hc, takeWhile_run hdigits hrest.isRawWordChar,
      dropWhile_run hdigits hrest.isRawWordChar]
  all_goals exact absurd hc (by decide)

/-! ### Quoted texts -/

/-- Characters between quotes stand for a text: each of its characters is there as it is, unless
it is a quote or a backslash, or behind a backslash as an escape for it. -/
inductive SpellsText : List Char → List Char → Prop
  | nil : SpellsText [] []
  | plain {c : Char} {content body : List Char} (hquote : c ≠ '"') (hslash : c ≠ '\\')
      (rest : SpellsText content body) : SpellsText (c :: content) (c :: body)
  | escaped {c : Char} {escape content body : List Char}
      (h : ∀ after, escape? .part (escape ++ after) = some (c, after))
      (rest : SpellsText content body) : SpellsText (c :: content) ('\\' :: (escape ++ body))

theorem scanQuoted_spelled {content body rest : List Char} (h : SpellsText content body) {n : Nat}
    (hn : content.length ≤ n) :
    scanQuoted .part n (body ++ '"' :: rest) = .ok (content, rest) := by
  induction h generalizing n with
  | nil => cases n <;> rfl
  | @plain c content body hquote hslash h ih =>
    cases n with
    | zero => cases hn
    | succ n =>
      rw [List.cons_append]
      unfold scanQuoted
      split
      · contradiction
      · rename_i heq
        cases heq
        exact absurd rfl hquote
      · contradiction
      · rename_i heq
        cases heq
        exact absurd rfl hslash
      · rename_i hcount heq
        cases hcount
        cases heq
        rw [ih (Nat.le_of_succ_le_succ hn)]
        rfl
  | @escaped c escape content body h hrest ih =>
    cases n with
    | zero => cases hn
    | succ n =>
      have hread : escape? .part (escape ++ (body ++ '"' :: rest)) =
          some (c, body ++ '"' :: rest) := h _
      rw [List.cons_append, List.append_assoc, scanQuoted.eq_def]
      simp only [hread, ih (Nat.le_of_succ_le_succ hn)]
      rfl

theorem length_of_spellsText {content body : List Char} (h : SpellsText content body) :
    content.length ≤ body.length := by
  induction h with
  | nil => exact Nat.le_refl _
  | plain _ _ _ ih => exact Nat.succ_le_succ ih
  | escaped _ _ ih =>
    simp only [List.length_cons, List.length_append]
    omega

/-- The number of a character in digits is read as the character. -/
theorem numberEscape?_toDigits (c : Char) (after : List Char) :
    numberEscape? (Nat.toDigits 16 c.toNat ++ '\x7d' :: after) = some (c, after) := by
  have hvalid : c.toNat.isValidChar := c.valid
  have hhex := isSome_hexDigit?_of_accumulateDigits?
    (accumulateDigits?_toDigits (by decide : 1 < 16) (by decide) 0 c.toNat)
  have hlength : (Nat.toDigits 16 c.toNat).length ≤ 6 := by
    refine (Nat.length_toDigits_le_iff (by decide) (by decide)).mpr ?_
    rcases hvalid with hlt | ⟨-, hlt⟩ <;> omega
  have hbrace : ∀ d ∈ (('\x7d' :: after).take (6 - (Nat.toDigits 16 c.toNat).length)).head?,
      (hexDigit? d).isSome = false := by
    intro d hd
    cases hk : 6 - (Nat.toDigits 16 c.toNat).length with
    | zero => rw [hk] at hd; cases hd
    | succ k =>
      rw [hk] at hd
      cases hd
      decide
  have hdigits : ((Nat.toDigits 16 c.toNat ++ '\x7d' :: after).take 6).takeWhile
      (fun d => (hexDigit? d).isSome) = Nat.toDigits 16 c.toNat := by
    rw [List.take_append, List.take_of_length_le hlength]
    exact takeWhile_run hhex hbrace
  have hchar : charOfNat? c.toNat = some c := by
    rw [charOfNat?, if_pos hvalid, Char.ofNat_toNat]
  rw [numberEscape?, hdigits, List.drop_left]
  simp only [natOfDigits?_toDigits (by decide : 1 < 16) (by decide), hchar, Option.bind_eq_bind,
    Option.bind_some]

/-- What is written for a character between quotes spells it. -/
theorem spellsText_escapeChar (c : Char) {content body : List Char} (h : SpellsText content body) :
    SpellsText (c :: content) (escapeChar c ++ body) := by
  have hescaped : ∀ escape, (∀ after, escape? .part (escape ++ after) = some (c, after)) →
      SpellsText (c :: content) ('\\' :: escape ++ body) := fun escape he => .escaped he h
  by_cases h0 : c = '\x00'
  · subst h0
    exact hescaped ['0'] fun _ => rfl
  by_cases ht : c = '\t'
  · subst ht
    exact hescaped ['t'] fun _ => rfl
  by_cases hn : c = '\n'
  · subst hn
    exact hescaped ['n'] fun _ => rfl
  by_cases hr : c = '\r'
  · subst hr
    exact hescaped ['r'] fun _ => rfl
  by_cases hmark : c = '"' ∨ c = '\'' ∨ c = '\\'
  · rw [escapeChar, if_neg h0, if_neg ht, if_neg hn, if_neg hr, if_pos hmark]
    refine hescaped [c] fun after => ?_
    rcases hmark with rfl | rfl | rfl <;> rfl
  rw [escapeChar, if_neg h0, if_neg ht, if_neg hn, if_neg hr, if_neg hmark]
  split
  · exact .plain (fun hq => hmark (Or.inl hq)) (fun hs => hmark (Or.inr (Or.inr hs))) h
  · refine hescaped ('u' :: '\x7b' :: (Nat.toDigits 16 c.toNat ++ ['\x7d'])) fun after => ?_
    have hnumber := numberEscape?_toDigits c after
    simpa [escape?] using hnumber

theorem spellsText_flatMap (content : List Char) :
    SpellsText content (content.flatMap escapeChar) := by
  induction content with
  | nil => exact .nil
  | cons c content ih => exact spellsText_escapeChar c ih

/-! ### Raw texts -/

/-- A text without a quote and so many marks behind it may stand raw between such marks. -/
theorem scanRaw_run {count : Nat} {content : List Char}
    (h : ¬ '"' :: List.replicate count '#' <:+: content) (rest : List Char) :
    scanRaw count (content ++ '"' :: (List.replicate count '#' ++ rest)) =
      some (content, rest) := by
  induction content with
  | nil => simp [scanRaw]
  | cons c content ih =>
    have hnot : ¬ (c = '"' ∧ (content ++ '"' :: (List.replicate count '#' ++ rest)).take count =
        List.replicate count '#') := by
      rintro ⟨rfl, htake⟩
      by_cases hlen : count ≤ content.length
      · rw [List.take_append_of_le_length hlen] at htake
        refine h (List.IsPrefix.isInfix ⟨content.drop count, ?_⟩)
        rw [← htake, List.cons_append, List.take_append_drop]
      · -- The marks would go past the quote behind the text.
        have hquote : '"' ∈ (content ++ '"' :: (List.replicate count '#' ++ rest)).take count := by
          obtain ⟨k, hk⟩ : ∃ k, count - content.length = k + 1 :=
            ⟨count - content.length - 1, by omega⟩
          rw [List.take_append, hk]
          simp
        rw [htake] at hquote
        exact absurd (List.eq_of_mem_replicate hquote) (by decide)
    have hrest : ¬ '"' :: List.replicate count '#' <:+: content :=
      fun hi => h (hi.trans (List.suffix_cons c content).isInfix)
    rw [List.cons_append, scanRaw, if_neg hnot, ih hrest]
    rfl

/-! ### Tokens -/

/-- A token is spelled by some characters in front of others. -/
inductive Spells : Token → List Char → List Char → Prop
  /-- Brackets with nothing between them would be one token. -/
  | opened {b : Bracket} {rest : List Char} (h : b = .round → rest.head? ≠ some ')') :
      Spells (.opened b) [b.opening] rest
  | closed {b : Bracket} {rest : List Char} : Spells (.closed b) [b.closing] rest
  | unit {rest : List Char} : Spells .unit ['(', ')'] rest
  | comma {rest : List Char} : Spells .comma [','] rest
  | colon {rest : List Char} : Spells .colon [':'] rest
  | word {word : String} {rest : List Char} (h : isWord word.toList = true)
      (hrest : EndsToken rest) : Spells (.word word) word.toList rest
  | numeral {numeral : String} {rest : List Char} (h : isNumeralText numeral.toList = true)
      (hrest : EndsToken rest) : Spells (.numeral numeral) numeral.toList rest
  | quoted {content : String} {body rest : List Char} (h : SpellsText content.toList body) :
      Spells (.quoted content) ('"' :: (body ++ ['"'])) rest
  | raw {content : String} {count : Nat} {rest : List Char}
      (h : ¬ '"' :: List.replicate count '#' <:+: content.toList) :
      Spells (.quoted content) ('r' :: (List.replicate count '#' ++ '"' ::
        (content.toList ++ '"' :: List.replicate count '#'))) rest

theorem scanToken_opened {rest : List Char} (h : rest.head? ≠ some ')') :
    scanToken false '(' rest = some (.opened .round, rest) := by
  unfold scanToken
  simp only
  split
  · exact absurd rfl h
  · rfl

theorem scanToken_quoted {content body : List Char} (h : SpellsText content body)
    (rest : List Char) : scanToken false '"' (body ++ ['"'] ++ rest) =
      some (.quoted (String.ofList content), rest) := by
  have hlen := length_of_spellsText h
  have hscan : scanQuoted .part (body ++ '"' :: rest).length (body ++ '"' :: rest) =
      .ok (content, rest) := by
    refine scanQuoted_spelled h ?_
    rw [List.length_append]
    omega
  rw [List.append_assoc, List.singleton_append]
  unfold scanToken
  simp only [hscan, Except.toOption, Option.map_some]

theorem scanToken_raw {count : Nat} {content : List Char}
    (h : ¬ '"' :: List.replicate count '#' <:+: content) (rest : List Char) :
    scanToken false 'r' (List.replicate count '#' ++ '"' ::
      (content ++ '"' :: List.replicate count '#') ++ rest) =
      some (.quoted (String.ofList content), rest) := by
  have hmarks : (List.replicate count '#' ++ '"' ::
      (content ++ '"' :: List.replicate count '#') ++ rest).takeWhile (· = '#') =
      List.replicate count '#' := by
    rw [List.append_assoc]
    refine takeWhile_run (fun c hc => decide_eq_true (List.eq_of_mem_replicate hc)) fun c hc => ?_
    cases hc
    rfl
  have hraw := scanRaw_run h rest
  change scanR _ = _
  unfold scanR
  simp only [hmarks, List.length_replicate]
  rw [List.append_assoc, List.drop_left' (List.length_replicate)]
  simp [hraw]

/-- What spells a token is scanned as the token. -/
theorem Spells.scanToken {token : Token} {cs rest : List Char} (h : Spells token cs rest) :
    ∃ c tail, cs = c :: tail ∧ isBlank c = false ∧ c ≠ '/' ∧
      (token ≠ .closed .round → c ≠ ')') ∧
      Document.scanToken false c (tail ++ rest) = some (token, rest) := by
  cases h with
  | @opened b rest h =>
    refine ⟨b.opening, [], rfl, ?_, ?_, ?_, ?_⟩
    · cases b <;> decide
    · cases b <;> decide
    · cases b <;> decide
    · cases b with
      | round => exact scanToken_opened (h rfl)
      | square => rfl
      | curly => rfl
  | @closed b => cases b <;> exact ⟨_, [], rfl, by decide, by decide, by decide, rfl⟩
  | unit => exact ⟨_, _, rfl, by decide, by decide, by decide, rfl⟩
  | comma => exact ⟨_, _, rfl, by decide, by decide, by decide, rfl⟩
  | colon => exact ⟨_, _, rfl, by decide, by decide, by decide, rfl⟩
  | @word word _ h hrest =>
    obtain ⟨c, tail, htext, hc, htail⟩ := exists_of_isWord h
    refine ⟨c, tail, htext, isBlank_of_isWordStart hc, ?_, ?_, ?_⟩
    · rintro rfl
      exact absurd hc (by decide)
    · rintro - rfl
      exact absurd hc (by decide)
    · rw [scanToken_word hc htail hrest, ← htext, String.ofList_toList]
  | @numeral numeral _ h hrest =>
    obtain ⟨c, tail, htext, hc, htail⟩ := exists_of_isNumeralText h
    obtain ⟨-, hblank, hslash, hclose⟩ := isWordStart_of_isNumeralStart hc
    refine ⟨c, tail, htext, hblank, hslash, fun _ => hclose, ?_⟩
    rw [scanToken_numeral hc htail hrest, ← htext, String.ofList_toList]
  | @quoted content body _ h =>
    refine ⟨_, _, rfl, by decide, by decide, fun _ => by decide, ?_⟩
    rw [scanToken_quoted h, String.ofList_toList]
  | @raw content count _ h =>
    refine ⟨_, _, rfl, by decide, by decide, fun _ => by decide, ?_⟩
    rw [scanToken_raw h, String.ofList_toList]

/-! ### Rows of tokens -/

/-- Tokens are laid out as characters, with blanks and comments around them. -/
inductive Laid : List Token → List Char → Prop
  | nil : Laid [] []
  | blank {c : Char} {tokens : List Token} {cs : List Char} (h : isBlank c = true)
      (hcs : Laid tokens cs) : Laid tokens (c :: cs)
  | comment {tokens : List Token} {cs rest : List Char} (h : afterComment? cs = some rest)
      (hrest : Laid tokens rest) : Laid tokens ('/' :: cs)
  | token {token : Token} {tokens : List Token} {cs rest : List Char} (h : Spells token cs rest)
      (hrest : Laid tokens rest) : Laid (token :: tokens) (cs ++ rest)

theorem length_of_afterBlock? {depth : Nat} {cs rest : List Char}
    (h : afterBlock? depth cs = some rest) : rest.length ≤ cs.length := by
  fun_induction afterBlock? depth cs with
  | case1 cs =>
    cases h
    exact Nat.le_refl _
  | case2 => cases h
  | case3 _ _ ih => exact Nat.le_trans (ih h) (Nat.le_add_right _ 2)
  | case4 _ _ ih => exact Nat.le_trans (ih h) (Nat.le_add_right _ 2)
  | case5 _ _ _ _ _ ih => exact Nat.le_succ_of_le (ih h)

theorem length_of_afterComment? {cs rest : List Char} (h : afterComment? cs = some rest) :
    rest.length ≤ cs.length := by
  unfold afterComment? at h
  split at h
  · cases h
    exact Nat.le_succ_of_le (List.dropWhile_suffix _).length_le
  · exact Nat.le_succ_of_le (length_of_afterBlock? h)
  · cases h

/-- **A layout is scanned as its tokens.** -/
theorem Laid.scanTokens {tokens : List Token} {cs : List Char} (h : Laid tokens cs) {n : Nat}
    (hn : cs.length ≤ n) : scanTokens false n cs = some tokens := by
  induction h generalizing n with
  | nil => cases n <;> rfl
  | blank hblank _ ih =>
    cases n with
    | zero => cases hn
    | succ n =>
      rw [Document.scanTokens, if_pos hblank]
      exact ih (Nat.le_of_succ_le_succ hn)
  | comment hcomment _ ih =>
    cases n with
    | zero => cases hn
    | succ n =>
      have hlen := length_of_afterComment? hcomment
      rw [Document.scanTokens, if_neg (by decide), if_pos rfl, hcomment, Option.bind_some]
      exact ih (Nat.le_trans hlen (Nat.le_of_succ_le_succ hn))
  | @token token tokens _ rest hspells _ ih =>
    obtain ⟨c, tail, rfl, hblank, hslash, -, hscan⟩ := hspells.scanToken
    cases n with
    | zero => cases hn
    | succ n =>
      rw [List.cons_append, List.length_cons, List.length_append] at hn
      have htokens : Document.scanTokens false n rest = some tokens := ih (by omega)
      rw [List.cons_append, Document.scanTokens, if_neg (by simp [hblank]), if_neg hslash]
      simp only [hscan, htokens, Option.bind_eq_bind, Option.bind_some]

/-! ### Items -/

/-- Whether a token on its own is an item; the word of an optional value is none, for it takes up
what stands behind it. -/
def Token.isAtom : Token → Bool
  | unit | numeral _ | quoted _ => true
  | word spelling => spelling != presentWord
  | _ => false

mutual

/-- The tokens of an item. -/
inductive Row : Item → List Token → Prop
  | single {token : Token} (h : token.isAtom = true) : Row (.single token) [token]
  | group {bracket : Bracket} {members : List Item} {tokens : List Token}
      (h : MembersRow members tokens) :
      Row (.group none bracket members) (.opened bracket :: (tokens ++ [.closed bracket]))
  | named {name : String} {members : List Item} {tokens : List Token} (hname : name ≠ presentWord)
      (h : MembersRow members tokens) :
      Row (.group (some name) .round members)
        (.word name :: .opened .round :: (tokens ++ [.closed .round]))
  | namedUnit {name : String} (hname : name ≠ presentWord) :
      Row (.group (some name) .round []) [.word name, .unit]
  | optional {members : List Item} {tokens : List Token} (h : MembersRow members tokens) :
      Row (.optional .one members)
        (.word presentWord :: .opened .round :: (tokens ++ [.closed .round]))

/-- The tokens of a member of a group. -/
inductive MemberRow : Item → List Token → Prop
  | item {item : Item} {tokens : List Token} (h : Row item tokens) : MemberRow item tokens
  | pair {key value : Item} {keyTokens valueTokens : List Token} (hkey : Row key keyTokens)
      (hvalue : Row value valueTokens) :
      MemberRow (.pair key value) (keyTokens ++ .colon :: valueTokens)

/-- The tokens of the members of a group; a comma may stand behind the last one. -/
inductive MembersRow : List Item → List Token → Prop
  | nil : MembersRow [] []
  | last {member : Item} {tokens : List Token} (h : MemberRow member tokens) :
      MembersRow [member] tokens
  | cons {member : Item} {members : List Item} {tokens more : List Token}
      (h : MemberRow member tokens) (hmore : MembersRow members more) :
      MembersRow (member :: members) (tokens ++ .comma :: more)

end

/-- Whether a token begins an item. -/
def Token.beginsItem : Token → Bool
  | opened _ | unit | word _ | numeral _ | quoted _ => true
  | _ => false

/-- What may stand behind an item: nothing, a separator or a closing bracket. -/
def EndsItem (tokens : List Token) : Prop :=
  ∀ token ∈ tokens.head?, token = .comma ∨ token = .colon ∨ ∃ bracket, token = .closed bracket

/-- What may stand behind a member of a group: a comma or a closing bracket. -/
def EndsMember (tokens : List Token) : Prop :=
  ∀ token ∈ tokens.head?, token = .comma ∨ ∃ bracket, token = .closed bracket

theorem EndsMember.endsItem {tokens : List Token} (h : EndsMember tokens) : EndsItem tokens :=
  fun token ht => (h token ht).imp_right Or.inr

theorem endsMember_comma (tokens : List Token) : EndsMember (.comma :: tokens) := by
  intro token ht
  cases ht
  exact Or.inl rfl

theorem endsMember_closed (bracket : Bracket) (tokens : List Token) :
    EndsMember (.closed bracket :: tokens) := by
  intro token ht
  cases ht
  exact Or.inr ⟨bracket, rfl⟩

theorem endsItem_colon (tokens : List Token) : EndsItem (.colon :: tokens) := by
  intro token ht
  cases ht
  exact Or.inr (Or.inl rfl)

theorem Row.begins {item : Item} {tokens : List Token} (h : Row item tokens) :
    ∃ token rest, tokens = token :: rest ∧ token.beginsItem = true := by
  cases h with
  | @single token h =>
    refine ⟨token, [], rfl, ?_⟩
    cases token with
    | unit | word | numeral | quoted => rfl
    | _ => cases h
  | group => exact ⟨_, _, rfl, rfl⟩
  | named => exact ⟨_, _, rfl, rfl⟩
  | namedUnit => exact ⟨_, _, rfl, rfl⟩
  | optional => exact ⟨_, _, rfl, rfl⟩

theorem MemberRow.begins {member : Item} {tokens : List Token} (h : MemberRow member tokens) :
    ∃ token rest, tokens = token :: rest ∧ token.beginsItem = true := by
  cases h with
  | item h => exact h.begins
  | pair hkey =>
    obtain ⟨token, rest, rfl, htoken⟩ := hkey.begins
    exact ⟨token, _, rfl, htoken⟩

theorem MembersRow.begins {members : List Item} {tokens : List Token}
    (h : MembersRow members tokens) (hne : members ≠ []) :
    ∃ token rest, tokens = token :: rest ∧ token.beginsItem = true := by
  cases h with
  | nil => exact absurd rfl hne
  | last h => exact h.begins
  | cons h =>
    obtain ⟨token, rest, rfl, htoken⟩ := h.begins
    exact ⟨token, _, rfl, htoken⟩

/-- A word is an item on its own unless a bracket stands behind it. -/
theorem parseItem_single {token : Token} (h : token.isAtom = true) {rest : List Token}
    (hrest : EndsItem rest) (n : Nat) :
    parseItem (n + 1) (token :: rest) = some (.single token, rest) := by
  cases token with
  | word spelling =>
    have hne : spelling ≠ presentWord := by simpa [Token.isAtom] using h
    cases rest with
    | nil => simp [parseItem, hne]
    | cons next rest =>
      obtain rfl | rfl | ⟨bracket, rfl⟩ := hrest next rfl <;> simp [parseItem, hne]
  | unit => rfl
  | numeral => rfl
  | quoted => rfl
  | _ => cases h

/-- A member with the closing bracket behind it is the last one. -/
theorem parseMembers_last {token : Token} {tokens rest : List Token} {n : Nat} {bracket : Bracket}
    {member : Item} (h : token.beginsItem = true)
    (hmember : parseMember n (token :: tokens) = some (member, .closed bracket :: rest)) :
    parseMembers (n + 1) bracket (token :: tokens) = some ([member], rest) := by
  cases token with
  | closed => cases h
  | comma => cases h
  | _ => simp [parseMembers, hmember]

/-- A member with a comma behind it has the other members behind that. -/
theorem parseMembers_cons {token : Token} {tokens more rest : List Token} {n : Nat}
    {bracket : Bracket} {member : Item} {members : List Item} (h : token.beginsItem = true)
    (hmember : parseMember n (token :: tokens) = some (member, .comma :: more))
    (hmore : parseMembers n bracket more = some (members, rest)) :
    parseMembers (n + 1) bracket (token :: tokens) = some (member :: members, rest) := by
  cases token with
  | closed => cases h
  | comma => cases h
  | _ => simp [parseMembers, hmember, hmore]

mutual

/-- The tokens of an item are parsed as the item. -/
theorem Row.parse {item : Item} {tokens : List Token} (h : Row item tokens) (n : Nat)
    (rest : List Token) (hn : 3 * tokens.length ≤ n + 2) (hrest : EndsItem rest) :
    parseItem n (tokens ++ rest) = some (item, rest) := by
  cases n with
  | zero =>
    obtain ⟨_, _, rfl, -⟩ := h.begins
    simp only [List.length_cons] at hn
    omega
  | succ n =>
    cases h with
    | single h => exact parseItem_single h hrest n
    | @group bracket members tokens h =>
      have hmembers := h.parse n bracket rest (by simp at hn; omega)
      simp [parseItem, hmembers]
    | named hname h =>
      have hmembers := h.parse n .round rest (by simp at hn; omega)
      simp [parseItem, named, hname, hmembers]
    | namedUnit hname => simp [parseItem, named, hname]
    | optional h =>
      have hmembers := h.parse n .round rest (by simp at hn; omega)
      simp [parseItem, named, hmembers]

/-- The tokens of a member are parsed as the member. -/
theorem MemberRow.parse {member : Item} {tokens : List Token} (h : MemberRow member tokens)
    (n : Nat) (rest : List Token) (hn : 3 * tokens.length ≤ n + 1) (hrest : EndsMember rest) :
    parseMember n (tokens ++ rest) = some (member, rest) := by
  cases n with
  | zero =>
    obtain ⟨_, _, rfl, -⟩ := h.begins
    simp only [List.length_cons] at hn
    omega
  | succ n =>
    cases h with
    | item h =>
      have hitem := h.parse n rest (by omega) hrest.endsItem
      rw [parseMember, hitem]
      cases rest with
      | nil => rfl
      | cons next rest => obtain rfl | ⟨bracket, rfl⟩ := hrest next rfl <;> rfl
    | @pair key value keyTokens valueTokens hkey hvalue =>
      simp only [List.length_append, List.length_cons] at hn
      have hkeyItem := hkey.parse n (.colon :: (valueTokens ++ rest)) (by omega) (endsItem_colon _)
      have hvalueItem := hvalue.parse n rest (by omega) hrest.endsItem
      rw [List.append_assoc, List.cons_append, parseMember, hkeyItem]
      simp [hvalueItem]

/-- The tokens of members are parsed as the members, up to the bracket that closes them. -/
theorem MembersRow.parse {members : List Item} {tokens : List Token} (h : MembersRow members tokens)
    (n : Nat) (bracket : Bracket) (rest : List Token) (hn : 3 * (tokens.length + 1) ≤ n) :
    parseMembers n bracket (tokens ++ .closed bracket :: rest) = some (members, rest) := by
  cases n with
  | zero => omega
  | succ n =>
    cases h with
    | nil => simp [parseMembers]
    | @last member _ h =>
      obtain ⟨token, more, htokens, htoken⟩ := h.begins
      have hmember :=
        h.parse n (.closed bracket :: rest) (by omega) (endsMember_closed bracket rest)
      rw [htokens, List.cons_append] at hmember ⊢
      exact parseMembers_last htoken hmember
    | @cons member members tokens more h hmore =>
      simp only [List.length_append, List.length_cons] at hn
      obtain ⟨token, tail, htokens, htoken⟩ := h.begins
      have hmember := h.parse n (.comma :: (more ++ .closed bracket :: rest)) (by omega)
        (endsMember_comma _)
      have hmembers := hmore.parse n bracket rest (by omega)
      rw [List.append_assoc, List.cons_append]
      rw [htokens, List.cons_append] at hmember ⊢
      exact parseMembers_cons htoken hmember hmembers

end

/-! ### Documents -/

/-- A document is laid out as an item: it has the tokens of the item and no others. -/
def Item.LaidOut (item : Item) (document : String) : Prop :=
  ∃ tokens, Row item tokens ∧ Laid tokens document.toList

/-- No extensions are asked for in front of an item. -/
theorem parseHeader_of_begins {token : Token} (h : token.beginsItem = true) (n : Nat)
    (tokens : List Token) : parseHeader n {} (token :: tokens) = some ({}, token :: tokens) := by
  cases token with
  | hash => cases h
  | _ => simp [parseHeader]

/-- **Every layout of an item is parsed as the item.** -/
theorem Item.LaidOut.parse {item : Item} {document : String} (h : item.LaidOut document) :
    parse? document = some ({}, item) := by
  obtain ⟨tokens, hrow, hlaid⟩ := h
  have hscan : scan? false document = some tokens := hlaid.scanTokens (Nat.le_refl _)
  have hheader : scanHeader? false document = some ({}, tokens) := by
    obtain ⟨token, rest, rfl, htoken⟩ := hrow.begins
    rw [scanHeader?, hscan]
    exact parseHeader_of_begins htoken _ rest
  have hitem : parseItem (3 * tokens.length) tokens = some (item, []) := by
    simpa using hrow.parse (3 * tokens.length) [] (Nat.le_add_right _ 2) (fun _ ht => by cases ht)
  simp [parse?, hheader, hitem]

/-! ### The text of an item -/

/-- What is written for an item is a layout of it, at any depth and whatever ends it. -/
def Item.Prints (item : Item) : Prop :=
  ∀ depth, ∃ tokens, Row item tokens ∧ ∀ more rest, Laid more rest → EndsToken rest →
    Laid (tokens ++ more) (item.render depth ++ rest)

/-- What is written for a member of a group is a layout of it. -/
def Item.PrintsMember (member : Item) : Prop :=
  ∀ depth, ∃ tokens, MemberRow member tokens ∧ ∀ more rest, Laid more rest → EndsToken rest →
    Laid (tokens ++ more) (member.render depth ++ rest)

theorem Laid.blanks {blanks cs : List Char} {tokens : List Token}
    (hblanks : ∀ c ∈ blanks, isBlank c = true) (h : Laid tokens cs) :
    Laid tokens (blanks ++ cs) := by
  induction blanks with
  | nil => exact h
  | cons c blanks ih =>
    obtain ⟨hc, hrest⟩ := List.forall_mem_cons.mp hblanks
    exact .blank hc (ih hrest)

theorem isBlank_of_mem_newLine (depth : Nat) : ∀ c ∈ newLine depth, isBlank c = true := by
  intro c hc
  rcases List.mem_cons.mp hc with rfl | hc
  · rfl
  · rw [List.eq_of_mem_replicate hc]
    rfl

/-- A layout begins with a closing bracket only if its tokens do. -/
theorem Laid.head_ne {token : Token} {tokens : List Token} {cs : List Char}
    (h : Laid (token :: tokens) cs) (htoken : token ≠ .closed .round) : cs.head? ≠ some ')' := by
  cases h with
  | blank hblank _ =>
    rintro ⟨⟩
    exact absurd hblank (by decide)
  | comment => exact fun heq => absurd (Option.some.inj heq) (by decide)
  | token hspells _ =>
    obtain ⟨c, tail, rfl, -, -, hne, -⟩ := hspells.scanToken
    rintro ⟨⟩
    exact hne htoken rfl

namespace Item

theorem Prints.laidOut {item : Item} (h : item.Prints) : item.LaidOut item.text := by
  obtain ⟨tokens, hrow, hlaid⟩ := h 0
  refine ⟨tokens, hrow, ?_⟩
  have htext := hlaid [] [] .nil EndsToken.nil
  rwa [List.append_nil, List.append_nil, ← String.toList_ofList (l := item.render 0)] at htext

theorem Prints.member {item : Item} (h : item.Prints) : item.PrintsMember := fun depth =>
  let ⟨tokens, hrow, hlaid⟩ := h depth
  ⟨tokens, .item hrow, hlaid⟩

theorem Prints.pair {key value : Item} (hkey : key.Prints) (hvalue : value.Prints) :
    (Item.pair key value).PrintsMember := by
  intro depth
  obtain ⟨keyTokens, hkeyRow, hkeyLaid⟩ := hkey depth
  obtain ⟨valueTokens, hvalueRow, hvalueLaid⟩ := hvalue depth
  refine ⟨_, .pair hkeyRow hvalueRow, fun more rest hmore hrest => ?_⟩
  have hrest := hvalueLaid more rest hmore hrest
  have hcolon : Laid (.colon :: (valueTokens ++ more))
      ([':'] ++ (' ' :: (value.render depth ++ rest))) :=
    .token .colon (.blank rfl hrest)
  have hpair := hkeyLaid _ _ hcolon (EndsToken.mark (by decide) _)
  simpa [Item.render] using hpair

/-- A token on its own is written as it is. -/
theorem prints_single {token : Token} (h : token.isAtom = true)
    (hspells : ∀ rest, EndsToken rest → Spells token token.text rest) :
    (Item.single token).Prints := by
  intro depth
  refine ⟨[token], .single h, fun more rest hmore hrest => ?_⟩
  exact .token (hspells rest hrest) hmore

theorem prints_word {word : String} (h : isWord word.toList = true) (hne : word ≠ presentWord) :
    (wordItem word).Prints :=
  prints_single (by simpa [Token.isAtom] using hne) fun _ hrest => .word h hrest

theorem prints_numeral {numeral : String} (h : isNumeralText numeral.toList = true) :
    (Item.single (.numeral numeral)).Prints :=
  prints_single rfl fun _ hrest => .numeral h hrest

theorem prints_text (content : String) : (textItem content).Prints :=
  prints_single rfl fun _ _ => .quoted (spellsText_flatMap _)

/-! ### Groups -/

variable {members : List Item}

/-- What stands between the brackets of a group. -/
def renderInside (depth : Nat) (members : List Item) : List Char :=
  if members.any Item.isPair then renderLines (depth + 1) members ++ newLine depth
  else renderRow depth members

theorem prints_lines (h : ∀ m ∈ members, m.PrintsMember) (depth : Nat) :
    ∃ tokens, MembersRow members tokens ∧ ∀ more rest, Laid more rest → EndsToken rest →
      Laid (tokens ++ more) (renderLines depth members ++ rest) := by
  induction members with
  | nil => exact ⟨[], .nil, fun _ _ hmore _ => hmore⟩
  | cons m members ih =>
    obtain ⟨hm, hmembers⟩ := List.forall_mem_cons.mp h
    obtain ⟨tokens, hrow, hlaid⟩ := hm depth
    obtain ⟨others, hothers, hothersLaid⟩ := ih hmembers
    refine ⟨_, .cons hrow hothers, fun more rest hmore hrest => ?_⟩
    have hcomma : Laid (.comma :: (others ++ more))
        ([','] ++ (renderLines depth members ++ rest)) :=
      .token .comma (hothersLaid more rest hmore hrest)
    have hmember := hlaid _ _ hcomma (EndsToken.mark (by decide) _)
    have hline := hmember.blanks (isBlank_of_mem_newLine depth)
    simpa [renderLines] using hline

theorem prints_row (h : ∀ m ∈ members, m.PrintsMember) (depth : Nat) :
    ∃ tokens, MembersRow members tokens ∧ ∀ more rest, Laid more rest → EndsToken rest →
      Laid (tokens ++ more) (renderRow depth members ++ rest) := by
  induction members with
  | nil => exact ⟨[], .nil, fun _ _ hmore _ => hmore⟩
  | cons m members ih =>
    obtain ⟨hm, hmembers⟩ := List.forall_mem_cons.mp h
    obtain ⟨tokens, hrow, hlaid⟩ := hm depth
    cases members with
    | nil => exact ⟨tokens, .last hrow, hlaid⟩
    | cons next members =>
      obtain ⟨others, hothers, hothersLaid⟩ := ih hmembers
      refine ⟨_, .cons hrow hothers, fun more rest hmore hrest => ?_⟩
      have hcomma : Laid (.comma :: (others ++ more))
          ([','] ++ (' ' :: (renderRow depth (next :: members) ++ rest))) :=
        .token .comma (.blank rfl (hothersLaid more rest hmore hrest))
      have hmember := hlaid _ _ hcomma (EndsToken.mark (by decide) _)
      simpa [renderRow] using hmember

theorem prints_inside (h : ∀ m ∈ members, m.PrintsMember) (depth : Nat) :
    ∃ tokens, MembersRow members tokens ∧ ∀ more rest, Laid more rest → EndsToken rest →
      Laid (tokens ++ more) (renderInside depth members ++ rest) := by
  unfold renderInside
  split
  · obtain ⟨tokens, hrow, hlaid⟩ := prints_lines h (depth + 1)
    refine ⟨tokens, hrow, fun more rest hmore hrest => ?_⟩
    rw [List.append_assoc]
    exact hlaid more _ (hmore.blanks (isBlank_of_mem_newLine depth)) (EndsToken.blank rfl _)
  · exact prints_row h depth

/-- A group in brackets is written as it is laid out. Round brackets must not be empty. -/
theorem laid_brackets {b : Bracket} {tokens more : List Token} {inside rest : List Char}
    (hrow : MembersRow members tokens) (hne : b = .round → members ≠ [])
    (hlaid : ∀ more rest, Laid more rest → EndsToken rest → Laid (tokens ++ more) (inside ++ rest))
    (hmore : Laid more rest) :
    Laid (.opened b :: (tokens ++ .closed b :: more))
      (b.opening :: (inside ++ b.closing :: rest)) := by
  have hclosed : Laid (.closed b :: more) ([b.closing] ++ rest) := .token .closed hmore
  have hinside := hlaid _ _ hclosed (EndsToken.mark (by cases b <;> decide) _)
  refine .token (.opened fun hround => ?_) hinside
  obtain ⟨token, others, rfl, htoken⟩ := hrow.begins (hne hround)
  refine hinside.head_ne ?_
  rintro rfl
  cases htoken

theorem prints_group {bracket : Bracket} (h : ∀ m ∈ members, m.PrintsMember)
    (hne : bracket = .round → members ≠ []) : (Item.group none bracket members).Prints := by
  intro depth
  obtain ⟨tokens, hrow, hlaid⟩ := prints_inside h depth
  refine ⟨_, .group hrow, fun more rest hmore _ => ?_⟩
  have hgroup := laid_brackets hrow hne hlaid hmore
  simpa [Item.render, renderInside] using hgroup

/-- A word in front of an opening bracket. -/
theorem laid_wordBracket {word : String} {tokens : List Token} {cs : List Char}
    (hword : isWord word.toList = true) (h : Laid tokens (Bracket.round.opening :: cs)) :
    Laid (.word word :: tokens) (word.toList ++ Bracket.round.opening :: cs) :=
  .token (.word hword (EndsToken.mark (by decide) _)) h

theorem prints_named {name : String} (hname : isWord name.toList = true)
    (hword : name ≠ presentWord) (h : ∀ m ∈ members, m.PrintsMember) :
    (Item.group (some name) .round members).Prints := by
  intro depth
  cases members with
  | nil =>
    refine ⟨_, .namedUnit hword, fun more rest hmore _ => ?_⟩
    have hunit : Laid (.unit :: more) (['(', ')'] ++ rest) := .token .unit hmore
    simpa [Item.render, renderRow, Bracket.closing] using laid_wordBracket hname hunit
  | cons m members =>
    obtain ⟨tokens, hrow, hlaid⟩ := prints_inside h depth
    refine ⟨_, .named hword hrow, fun more rest hmore _ => ?_⟩
    have hgroup := laid_brackets (b := .round) hrow (fun _ => by simp) hlaid hmore
    simpa [Item.render, renderInside] using laid_wordBracket hname hgroup

theorem prints_optional (h : ∀ m ∈ members, m.PrintsMember) (hne : members ≠ []) :
    (Item.optional .one members).Prints := by
  intro depth
  obtain ⟨tokens, hrow, hlaid⟩ := prints_row h depth
  refine ⟨_, .optional hrow, fun more rest hmore _ => ?_⟩
  have hgroup := laid_brackets (b := .round) hrow (fun _ => hne) hlaid hmore
  have hword : isWord presentWord.toList = true := by decide
  have hoptional := laid_wordBracket hword hgroup
  simpa [Item.render, Token.text, Bracket.opening] using hoptional

end Item

end ShadeNet.Document
