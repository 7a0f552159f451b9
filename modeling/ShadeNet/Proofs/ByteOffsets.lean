/-
# References by byte offsets

A reader that goes through the bytes of a value by offsets finds the same references as one that
takes character by character. It looks at single bytes, and it cuts words out of the text at the
offsets that it has come to; a cut fails outside of the text, and inside a character that takes
several bytes. A backslash in a string may take the reader into such a character, but only there,
and it is out of it again before anything is cut.

What is found are words that start with no digit, at places that follow each other and lie outside
of strings.

Key definitions: `slice?`, `skipString`, `skipSelector`, `scanFrom`, `scanReferences?`,
`StringPlace`, `Places`.
Key theorems: `leavesString_afterQuote`, `scanFrom_bytesOf`, `standBehind`,
`references_found_in_place`.
-/
import Mathlib.Data.String.Basic
import ShadeNet.Network.Sink
import ShadeNet.Proofs.Reading

namespace ShadeNet

/-! ### Reading by offsets -/

/-- The part of a text between two byte offsets. There is none if they are the wrong way round, or
if one of them lies outside of the text or inside a character. -/
def slice? (text : String) (start stop : Nat) : Option String :=
  if start ≤ stop ∧ String.Pos.Raw.isValid text ⟨start⟩ ∧ String.Pos.Raw.isValid text ⟨stop⟩ then
    some (String.Pos.Raw.extract text ⟨start⟩ ⟨stop⟩)
  else none

/-- Whether a byte is a character of words. -/
def isWordByte (b : UInt8) : Bool := isWordChar (Char.ofUInt8 b)

/-- Whether a byte is a digit. -/
def isDigitByte (b : UInt8) : Bool := (Char.ofUInt8 b).isDigit

/-- The offset behind a word. -/
def skipWord (bytes : List UInt8) (i : Nat) : Nat :=
  i + ((bytes.drop i).takeWhile isWordByte).length

/-- The offset behind a string, from an offset behind the quote that opens it. It may lie behind
the end of the bytes if the string is not closed. -/
def skipString (bytes : List UInt8) (i : Nat) : Nat :=
  if h : i < bytes.length then
    if bytes[i] = '"'.toUInt8 then i + 1
    else skipString bytes (i + if bytes[i] = '\\'.toUInt8 then 2 else 1)
  else i + 1
termination_by bytes.length - i
decreasing_by split <;> omega

theorem lt_skipString (bytes : List UInt8) (i : Nat) : i < skipString bytes i := by
  fun_induction skipString bytes i with
  | case1 => omega
  | case2 i h hq ih => exact Nat.lt_of_le_of_lt (Nat.le_add_right _ _) ih
  | case3 => omega

theorem le_skipWord (bytes : List UInt8) (i : Nat) : i ≤ skipWord bytes i := Nat.le_add_right _ _

theorem lt_skipWord {bytes : List UInt8} {i : Nat} (h : i < bytes.length)
    (hw : isWordByte bytes[i] = true) : i < skipWord bytes i := by
  rw [skipWord, List.drop_eq_getElem_cons h, List.takeWhile_cons_of_pos hw, List.length_cons]
  omega

theorem isWordByte_of_isDigitByte {b : UInt8} (h : isDigitByte b = true) : isWordByte b = true :=
  isWordChar_of_isDigit h

/-- The offset behind what is selected of a name, from the offset behind the name, where the text
goes on with `rest`. -/
def skipSelector (bytes : List UInt8) (rest : String) (i : Nat) : Nat :=
  if "::".toList <+: rest.toList then skipWord bytes (i + 2)
  else if bytes[i]? = some '@'.toUInt8 then skipWord bytes (i + 1)
  else i

theorem le_skipSelector (bytes : List UInt8) (rest : String) (i : Nat) :
    i ≤ skipSelector bytes rest i := by
  have htwo := le_skipWord bytes (i + 2)
  have hone := le_skipWord bytes (i + 1)
  unfold skipSelector
  split
  · omega
  · split <;> omega

/-- The references in a text from an offset on, by the bytes of the text. There are none to be had
if a cut fails. -/
def scanFrom (text : String) (bytes : List UInt8) (i : Nat) : Option (List String) :=
  if h : i < bytes.length then
    if bytes[i] = '"'.toUInt8 then scanFrom text bytes (skipString bytes (i + 1))
    else if hd : isDigitByte bytes[i] = true then scanFrom text bytes (skipWord bytes i)
    else if hw : isWordByte bytes[i] = true then
      (slice? text i (skipWord bytes i)).bind fun word =>
        if bytes[skipWord bytes i]? = some '('.toUInt8 then scanFrom text bytes (skipWord bytes i)
        else
          (slice? text (skipWord bytes i) bytes.length).bind fun rest =>
            (scanFrom text bytes (skipSelector bytes rest (skipWord bytes i))).map (word :: ·)
    else scanFrom text bytes (i + 1)
  else some []
termination_by bytes.length - i
decreasing_by
  · have := lt_skipString bytes (i + 1)
    omega
  · have := lt_skipWord h (isWordByte_of_isDigitByte hd)
    omega
  · have := lt_skipWord h hw
    omega
  · have := lt_skipWord h hw
    have := le_skipSelector bytes rest (skipWord bytes i)
    omega
  · omega

/-- The references in a text, by its bytes. -/
def scanReferences? (text : String) : Option (List String) := scanFrom text (utf8 text) 0

/-! ### Characters and their bytes -/

/-- The bytes of some characters. -/
def bytesOf (cs : List Char) : List UInt8 := cs.flatMap String.utf8EncodeChar

theorem bytesOf_cons (c : Char) (cs : List Char) :
    bytesOf (c :: cs) = String.utf8EncodeChar c ++ bytesOf cs := rfl

theorem bytesOf_append (cs ds : List Char) : bytesOf (cs ++ ds) = bytesOf cs ++ bytesOf ds :=
  List.flatMap_append

theorem drop_bytesOf (cs ds : List Char) :
    (bytesOf (cs ++ ds)).drop (bytesOf cs).length = bytesOf ds := by
  rw [bytesOf_append, List.drop_left]

/-- A character of ASCII is one byte; of any other character no byte is a character of ASCII. -/
theorem utf8EncodeChar_cases (c : Char) :
    ∃ b more, String.utf8EncodeChar c = b :: more ∧ (∀ x ∈ more, 128 ≤ x.toNat) ∧
      (c.toNat < 128 → b = c.toUInt8 ∧ more = []) ∧ (128 ≤ c.toNat → 128 ≤ b.toNat) := by
  have hval : c.val.toNat = c.toNat := rfl
  rw [String.utf8EncodeChar.eq_1, hval]
  split
  · refine ⟨_, [], rfl, by simp, fun _ => ⟨?_, rfl⟩, fun h => by omega⟩
    rfl
  · split
    · refine ⟨_, _, rfl, ?_, fun h => by omega, fun _ => ?_⟩
      · simp; omega
      · simp; omega
    · split
      · refine ⟨_, _, rfl, ?_, fun h => by omega, fun _ => ?_⟩
        · simp; omega
        · simp; omega
      · refine ⟨_, _, rfl, ?_, fun h => by omega, fun _ => ?_⟩
        · simp; omega
        · simp; omega

theorem bytesOf_ascii {c : Char} (h : c.toNat < 128) (cs : List Char) :
    bytesOf (c :: cs) = c.toUInt8 :: bytesOf cs := by
  obtain ⟨b, more, henc, -, hplain, -⟩ := utf8EncodeChar_cases c
  obtain ⟨hb, hmore⟩ := hplain h
  rw [bytesOf_cons, henc, hb, hmore]
  rfl

theorem toNat_toUInt8 {c : Char} (h : c.toNat < 128) : c.toUInt8.toNat = c.toNat := by
  change c.val.toUInt8.toNat = c.toNat
  have hc : c.val.toNat = c.toNat := rfl
  rw [UInt32.toNat_toUInt8]
  omega

theorem toNat_ofUInt8 (b : UInt8) : (Char.ofUInt8 b).toNat = b.toNat := UInt8.toNat_toUInt32 b

theorem ofUInt8_toUInt8 {c : Char} (h : c.toNat < 128) : Char.ofUInt8 c.toUInt8 = c :=
  Char.toNat_inj.mp ((toNat_ofUInt8 _).trans (toNat_toUInt8 h))

/-- A test that only characters of ASCII pass. -/
def IsPlainTest (test : Char → Bool) : Prop := ∀ c, test c = true → c.toNat < 128

theorem isPlainTest_isDigit : IsPlainTest Char.isDigit := by
  intro c h
  have hrange := Char.isDigit_iff_toNat.mp h
  have hnine : '9'.toNat = 57 := rfl
  omega

theorem isPlainTest_isAlpha : IsPlainTest Char.isAlpha := by
  intro c h
  rcases Bool.or_eq_true_iff.mp h with hupper | hlower
  · have hhigh : c.toNat ≤ 90 := (of_decide_eq_true hupper).2
    omega
  · have hhigh : c.toNat ≤ 122 := of_decide_eq_true (Bool.and_eq_true_iff.mp hlower).2
    omega

theorem isPlainTest_isWordChar : IsPlainTest isWordChar := by
  intro c h
  have hletters : c.isAlpha = true ∨ c.isDigit = true ∨ c = '_' := by
    simpa [isWordChar, Char.isAlphanum, or_assoc] using h
  rcases hletters with h | h | rfl
  · exact isPlainTest_isAlpha c h
  · exact isPlainTest_isDigit c h
  · decide

theorem IsPlainTest.ofUInt8 {test : Char → Bool} (ht : IsPlainTest test) {b : UInt8}
    (hb : 128 ≤ b.toNat) : test (Char.ofUInt8 b) = false := by
  refine Bool.eq_false_iff.mpr fun h => ?_
  have hsmall := ht _ h
  rw [toNat_ofUInt8] at hsmall
  omega

theorem firstByte_cases (c : Char) (cs : List Char) :
    ∃ b more, bytesOf (c :: cs) = b :: (more ++ bytesOf cs) ∧
      (∀ q : Char, q.toNat < 128 → (b = q.toUInt8 ↔ c = q)) ∧
      (∀ test, IsPlainTest test → test (Char.ofUInt8 b) = test c) ∧
      (∀ x ∈ more, 128 ≤ x.toNat) ∧ (c.toNat < 128 → more = []) := by
  obtain ⟨b, more, henc, hmore, hplain, hlarge⟩ := utf8EncodeChar_cases c
  refine ⟨b, more, by rw [bytesOf_cons, henc, List.cons_append], fun q hq => ?_, fun test ht => ?_,
    hmore, fun h => (hplain h).2⟩
  · by_cases hc : c.toNat < 128
    · rw [(hplain hc).1]
      refine ⟨fun he => ?_, fun he => by rw [he]⟩
      have := congrArg Char.ofUInt8 he
      rwa [ofUInt8_toUInt8 hc, ofUInt8_toUInt8 hq] at this
    · have hb := hlarge (by omega)
      constructor
      · intro he
        rw [he, toNat_toUInt8 hq] at hb
        omega
      · rintro rfl
        exact absurd hq hc
  · by_cases hc : c.toNat < 128
    · rw [(hplain hc).1, ofUInt8_toUInt8 hc]
    · rw [ht.ofUInt8 (hlarge (by omega))]
      exact (Bool.eq_false_iff.mpr fun h => hc (ht c h)).symm

/-! ### Moving on -/

theorem getElem_of_drop {bytes tail : List UInt8} {i : Nat} {b : UInt8}
    (h : bytes.drop i = b :: tail) : ∃ hi : i < bytes.length, bytes[i] = b := by
  have hi : i < bytes.length := by
    by_contra hge
    rw [List.drop_eq_nil_of_le (by omega)] at h
    cases h
  rw [List.drop_eq_getElem_cons hi] at h
  exact ⟨hi, (List.cons.inj h).1⟩

theorem takeWhile_bytesOf {test : Char → Bool} (ht : IsPlainTest test) (cs : List Char) :
    (bytesOf cs).takeWhile (fun b => test (Char.ofUInt8 b)) = bytesOf (cs.takeWhile test) := by
  induction cs with
  | nil => rfl
  | cons c cs ih =>
    by_cases hc : test c = true
    · have hsmall := ht c hc
      have hb : test (Char.ofUInt8 c.toUInt8) = true := by rw [ofUInt8_toUInt8 hsmall, hc]
      rw [List.takeWhile_cons_of_pos hc, bytesOf_ascii hsmall, bytesOf_ascii hsmall, ← ih]
      exact List.takeWhile_cons_of_pos hb
    · obtain ⟨b, more, henc, -, htest, -⟩ := firstByte_cases c cs
      have hb : ¬ test (Char.ofUInt8 b) = true := by rwa [htest test ht]
      rw [List.takeWhile_cons_of_neg hc, henc]
      exact List.takeWhile_cons_of_neg hb

/-- Behind a word the offset is that of the characters behind it. -/
theorem skipWord_bytesOf (pre rest : List Char) :
    skipWord (bytesOf (pre ++ rest)) (bytesOf pre).length =
      (bytesOf (pre ++ rest.takeWhile isWordChar)).length := by
  have htake := takeWhile_bytesOf isPlainTest_isWordChar rest
  rw [skipWord, drop_bytesOf, bytesOf_append, List.length_append]
  exact congrArg (fun bytes => (bytesOf pre).length + bytes.length) htake

/-- Bytes that are neither quotes nor backslashes are passed one by one. -/
theorem skipString_passes {bytes : List UInt8} : ∀ {plain tail : List UInt8} {i : Nat},
    bytes.drop i = plain ++ tail → (∀ b ∈ plain, b ≠ '"'.toUInt8 ∧ b ≠ '\\'.toUInt8) →
    skipString bytes i = skipString bytes (i + plain.length)
  | [], _, _, _, _ => rfl
  | b :: plain, tail, i, hdrop, hplain => by
    obtain ⟨hi, hb⟩ := getElem_of_drop hdrop
    obtain ⟨hquote, hslash⟩ := hplain b List.mem_cons_self
    have hnext : bytes.drop (i + 1) = plain ++ tail := by
      rw [← List.drop_drop, hdrop]
      rfl
    have ih := skipString_passes hnext fun x hx => hplain x (List.mem_cons_of_mem b hx)
    rw [skipString, dif_pos hi, hb, if_neg hquote, if_neg hslash, ih, List.length_cons]
    congr 1
    omega

theorem ne_of_large {b : UInt8} (h : 128 ≤ b.toNat) : b ≠ '"'.toUInt8 ∧ b ≠ '\\'.toUInt8 := by
  constructor <;> rintro rfl <;> revert h <;> decide

/-- From inside a string in front of `rest` the reader comes to the characters `after`, or there
are none and it comes to an offset behind the end. -/
def LeavesString (pre rest after : List Char) : Prop :=
  (∃ inside, rest = inside ++ after ∧
    skipString (bytesOf (pre ++ rest)) (bytesOf pre).length = (bytesOf (pre ++ inside)).length) ∨
  after = [] ∧
    (bytesOf (pre ++ rest)).length ≤ skipString (bytesOf (pre ++ rest)) (bytesOf pre).length

theorem LeavesString.step {pre head rest after : List Char}
    (hstep : skipString (bytesOf (pre ++ (head ++ rest))) (bytesOf pre).length =
      skipString (bytesOf (pre ++ (head ++ rest))) (bytesOf (pre ++ head)).length)
    (h : LeavesString (pre ++ head) rest after) : LeavesString pre (head ++ rest) after := by
  unfold LeavesString at h ⊢
  rw [List.append_assoc] at h
  rcases h with ⟨inside, hsplit, hskip⟩ | ⟨hnil, hskip⟩
  · left
    refine ⟨head ++ inside, by rw [hsplit, List.append_assoc], ?_⟩
    rw [hstep, hskip, List.append_assoc]
  · right
    rw [hstep]
    exact ⟨hnil, hskip⟩

/-- Characters whose bytes are neither quotes nor backslashes are passed. -/
theorem skipString_char {c : Char} (hquote : c ≠ '"') (hslash : c ≠ '\\') (pre rest : List Char) :
    skipString (bytesOf (pre ++ ([c] ++ rest))) (bytesOf pre).length =
      skipString (bytesOf (pre ++ ([c] ++ rest))) (bytesOf (pre ++ [c])).length := by
  obtain ⟨b, more, henc, hfirst, -, hmore, -⟩ := firstByte_cases c []
  have hbytes : bytesOf [c] = b :: more := by simpa [bytesOf] using henc
  have hdrop : (bytesOf (pre ++ ([c] ++ rest))).drop (bytesOf pre).length =
      (b :: more) ++ bytesOf rest := by
    rw [drop_bytesOf, bytesOf_append, hbytes]
  have hplain : ∀ x ∈ b :: more, x ≠ '"'.toUInt8 ∧ x ≠ '\\'.toUInt8 := by
    intro x hx
    rcases List.mem_cons.mp hx with rfl | hx
    · exact ⟨fun he => hquote ((hfirst '"' (by decide)).mp he),
        fun he => hslash ((hfirst '\\' (by decide)).mp he)⟩
    · exact ne_of_large (hmore x hx)
  rw [skipString_passes hdrop hplain, bytesOf_append pre [c], hbytes, List.length_append]

/-- An escaped character is passed, although the reader stands inside of it after the backslash
if it has several bytes. -/
theorem skipString_escaped (c : Char) (pre rest : List Char) :
    skipString (bytesOf (pre ++ (['\\', c] ++ rest))) (bytesOf pre).length =
      skipString (bytesOf (pre ++ (['\\', c] ++ rest))) (bytesOf (pre ++ ['\\', c])).length := by
  obtain ⟨b, more, henc, hmore, -⟩ := utf8EncodeChar_cases c
  have hbytes : bytesOf ['\\', c] = '\\'.toUInt8 :: b :: more := by
    rw [bytesOf_ascii (by decide), bytesOf_cons, henc]
    simp [bytesOf]
  have hdrop : (bytesOf (pre ++ (['\\', c] ++ rest))).drop (bytesOf pre).length =
      '\\'.toUInt8 :: b :: (more ++ bytesOf rest) := by
    rw [drop_bytesOf, bytesOf_append, hbytes]
    rfl
  obtain ⟨hi, hb⟩ := getElem_of_drop hdrop
  have hinside : (bytesOf (pre ++ (['\\', c] ++ rest))).drop ((bytesOf pre).length + 2) =
      more ++ bytesOf rest := by
    rw [← List.drop_drop, hdrop]
    rfl
  have hpass := skipString_passes hinside fun x hx => ne_of_large (hmore x hx)
  rw [skipString, dif_pos hi, hb, if_neg (by decide), if_pos rfl, hpass,
    bytesOf_append pre ['\\', c], hbytes, List.length_append, List.length_cons, List.length_cons]
  congr 1
  omega

theorem ne_backslash {c : Char} {rest : List Char} (hlast : c = '\\' → rest = [] → False)
    (hescape : ∀ d tail, c = '\\' → rest = d :: tail → False) : c ≠ '\\' := by
  intro hc
  rcases rest with _ | ⟨d, tail⟩
  · exact hlast hc rfl
  · exact hescape d tail hc rfl

/-- Behind a string the reader stands in front of the characters that follow it. -/
theorem leavesString_afterQuote (pre rest : List Char) :
    LeavesString pre rest (afterQuote rest) := by
  fun_induction afterQuote rest generalizing pre with
  | case1 =>
    right
    rw [List.append_nil, skipString, dif_neg (by omega)]
    exact ⟨rfl, by omega⟩
  | case2 rest =>
    left
    have hdrop := drop_bytesOf pre ('"' :: rest)
    rw [bytesOf_ascii (by decide)] at hdrop
    obtain ⟨hi, hb⟩ := getElem_of_drop hdrop
    refine ⟨['"'], rfl, ?_⟩
    rw [skipString, dif_pos hi, hb, if_pos rfl, bytesOf_append, List.length_append]
    rfl
  | case3 =>
    right
    have hdrop := drop_bytesOf pre ['\\']
    rw [bytesOf_ascii (by decide)] at hdrop
    obtain ⟨hi, hb⟩ := getElem_of_drop hdrop
    have hlength : (bytesOf (pre ++ ['\\'])).length = (bytesOf pre).length + 1 := by
      rw [bytesOf_append, List.length_append]
      rfl
    rw [skipString, dif_pos hi, hb, if_neg (by decide), if_pos rfl, skipString,
      dif_neg (by omega)]
    exact ⟨rfl, by omega⟩
  | case4 c rest ih => exact (ih (pre ++ ['\\', c])).step (skipString_escaped c pre rest)
  | case5 c rest hquote hlast hescape ih =>
    have hslash : c ≠ '\\' := ne_backslash hlast hescape
    exact (ih (pre ++ [c])).step (skipString_char hquote hslash pre rest)

/-! ### Cutting -/

theorem utf8Len_eq (cs : List Char) : String.utf8Len cs = (bytesOf cs).length := by
  induction cs with
  | nil => rfl
  | cons c cs ih =>
    rw [String.utf8Len_cons, ih, bytesOf_cons, List.length_append, String.length_utf8EncodeChar]
    omega

theorem isValid_bytesOf {text : String} {pre rest : List Char} (h : text.toList = pre ++ rest) :
    String.Pos.Raw.isValid text ⟨(bytesOf pre).length⟩ = true := by
  rw [String.Pos.Raw.isValid_eq_true_iff, String.Pos.Raw.isValid_iff_exists_append]
  refine ⟨String.ofList pre, String.ofList rest, ?_, ?_⟩
  · rw [← String.ofList_append, ← h, String.ofList_toList]
  · rw [← utf8Len_eq, ← String.utf8ByteSize_ofList]
    rfl

/-- Between characters the text can be cut. -/
theorem slice?_bytesOf {text : String} {pre word rest : List Char}
    (h : text.toList = pre ++ (word ++ rest)) :
    slice? text (bytesOf pre).length (bytesOf (pre ++ word)).length =
      some (String.ofList word) := by
  have hstop : text.toList = (pre ++ word) ++ rest := by rw [h, List.append_assoc]
  have hle : (bytesOf pre).length ≤ (bytesOf (pre ++ word)).length := by
    rw [bytesOf_append, List.length_append]
    omega
  have hextract := String.extract_of_valid pre word rest
  rw [← hstop, String.ofList_toList, utf8Len_eq, utf8Len_eq, ← List.length_append,
    ← bytesOf_append] at hextract
  rw [slice?, if_pos ⟨hle, isValid_bytesOf h, isValid_bytesOf hstop⟩, hextract]

/-! ### The same references -/

/-- What a byte between characters is, it is by the character behind it. -/
theorem byteAt {cs pre rest : List Char} {c : Char} (h : cs = pre ++ c :: rest) :
    ∃ hi : (bytesOf pre).length < (bytesOf cs).length,
      ((bytesOf cs)[(bytesOf pre).length] = '"'.toUInt8 ↔ c = '"') ∧
      isDigitByte (bytesOf cs)[(bytesOf pre).length] = c.isDigit ∧
      isWordByte (bytesOf cs)[(bytesOf pre).length] = isWordChar c := by
  obtain ⟨b, more, henc, hfirst, htest, -⟩ := firstByte_cases c rest
  have hdrop := drop_bytesOf pre (c :: rest)
  rw [← h, henc] at hdrop
  obtain ⟨hi, hb⟩ := getElem_of_drop hdrop
  refine ⟨hi, ?_⟩
  rw [hb]
  exact ⟨hfirst '"' (by decide), htest _ isPlainTest_isDigit, htest _ isPlainTest_isWordChar⟩

/-- A byte between characters is a character of ASCII if that stands behind it. -/
theorem getElem?_bytesOf {cs pre rest : List Char} (h : cs = pre ++ rest) {q : Char}
    (hq : q.toNat < 128) :
    (bytesOf cs)[(bytesOf pre).length]? = some q.toUInt8 ↔ rest.head? = some q := by
  rw [h, ← List.head?_drop, drop_bytesOf]
  cases rest with
  | nil => simp [bytesOf]
  | cons c rest =>
    obtain ⟨b, more, henc, hfirst, -⟩ := firstByte_cases c rest
    simp [henc, hfirst q hq]

/-- Bytes that begin neither a string nor a word are passed one by one. -/
theorem scanFrom_passes (text : String) {bytes : List UInt8} :
    ∀ {plain tail : List UInt8} {i : Nat},
    bytes.drop i = plain ++ tail → (∀ b ∈ plain, b ≠ '"'.toUInt8 ∧ isWordByte b = false) →
    scanFrom text bytes i = scanFrom text bytes (i + plain.length)
  | [], _, _, _, _ => rfl
  | b :: plain, tail, i, hdrop, hplain => by
    obtain ⟨hi, hb⟩ := getElem_of_drop hdrop
    obtain ⟨hquote, hword⟩ := hplain b List.mem_cons_self
    have hdigit : ¬ isDigitByte b = true := fun hd => by
      rw [isWordByte_of_isDigitByte hd] at hword
      cases hword
    have hnext : bytes.drop (i + 1) = plain ++ tail := by
      rw [← List.drop_drop, hdrop]
      rfl
    have ih := scanFrom_passes text hnext fun x hx => hplain x (List.mem_cons_of_mem b hx)
    have hlength : i + (b :: plain).length = i + 1 + plain.length := by
      rw [List.length_cons]
      omega
    rw [hlength, ← ih, scanFrom, dif_pos hi, hb, if_neg hquote, dif_neg hdigit,
      dif_neg (by rw [hword]; decide)]

/-- A character that begins neither a string nor a word is passed, however many bytes it has. -/
theorem scanFrom_char {text : String} {pre rest : List Char} {c : Char}
    (h : text.toList = pre ++ c :: rest) (hquote : c ≠ '"') (hword : isWordChar c = false) :
    scanFrom text (bytesOf text.toList) (bytesOf pre).length =
      scanFrom text (bytesOf text.toList) (bytesOf (pre ++ [c])).length := by
  obtain ⟨b, more, henc, hfirst, htest, hmore, -⟩ := firstByte_cases c []
  have hbytes : bytesOf [c] = b :: more := by simpa [bytesOf] using henc
  have hdrop : (bytesOf text.toList).drop (bytesOf pre).length = (b :: more) ++ bytesOf rest := by
    rw [h, drop_bytesOf, ← List.singleton_append, bytesOf_append, hbytes]
  have hplain : ∀ x ∈ b :: more, x ≠ '"'.toUInt8 ∧ isWordByte x = false := by
    intro x hx
    rcases List.mem_cons.mp hx with rfl | hx
    · exact ⟨fun he => hquote ((hfirst '"' (by decide)).mp he),
        (htest _ isPlainTest_isWordChar).trans hword⟩
    · exact ⟨(ne_of_large (hmore x hx)).1, isPlainTest_isWordChar.ofUInt8 (hmore x hx)⟩
  rw [scanFrom_passes text hdrop hplain, bytesOf_append pre [c], hbytes, List.length_append]

/-- The offset behind a word, from an offset `mark.length` behind which the word begins. -/
theorem skipWord_behind {cs pre rest : List Char} (mark : List Char)
    (h : cs = pre ++ (mark ++ rest)) (hmark : (bytesOf mark).length = mark.length) :
    skipWord (bytesOf cs) ((bytesOf pre).length + mark.length) =
      (bytesOf (pre ++ (mark ++ rest.takeWhile isWordChar))).length := by
  have hskip := skipWord_bytesOf (pre ++ mark) rest
  rw [List.append_assoc, ← h, bytesOf_append, List.length_append, hmark] at hskip
  rw [hskip, List.append_assoc]

/-- What stands behind a name is passed with what is selected. -/
theorem skipSelector_bytesOf {cs pre rest : List Char} (h : cs = pre ++ rest) :
    ∃ passed, rest = passed ++ afterSelector rest ∧
      skipSelector (bytesOf cs) (String.ofList rest) (bytesOf pre).length =
        (bytesOf (pre ++ passed)).length := by
  have hat := getElem?_bytesOf h (q := '@') (by decide)
  unfold skipSelector
  rw [@String.toList_ofList rest]
  fun_cases afterSelector rest with
  | case1 rest =>
    refine ⟨[':', ':'] ++ rest.takeWhile isWordChar, by simp, ?_⟩
    rw [if_pos (by simp)]
    exact skipWord_behind [':', ':'] h rfl
  | case2 rest =>
    refine ⟨['@'] ++ rest.takeWhile isWordChar, by simp, ?_⟩
    rw [if_neg (by simp), if_pos (hat.mpr rfl)]
    exact skipWord_behind ['@'] h rfl
  | case3 _ hcolons hmark =>
    refine ⟨[], rfl, ?_⟩
    have hnotcolons : ¬ "::".toList <+: rest := by
      rintro ⟨tail, htail⟩
      exact hcolons tail htail.symm
    have hnotat : ¬ rest.head? = some '@' := by
      intro hhead
      obtain ⟨tail, htail⟩ := List.head?_eq_some_iff.mp hhead
      exact hmark tail htail
    rw [if_neg hnotcolons, if_neg (mt hat.mp hnotat), List.append_nil]

/-- A word is cut out of the text. It is left out if a call follows, and else what is selected of
it is passed too. -/
theorem scanFrom_word {text : String} {pre rest : List Char} {c : Char}
    (h : text.toList = pre ++ c :: rest) (hquote : c ≠ '"') (hdigit : ¬ c.isDigit = true)
    (hword : isWordChar c = true) :
    ∃ passed, rest.dropWhile isWordChar = passed ++ afterSelector (rest.dropWhile isWordChar) ∧
      scanFrom text (bytesOf text.toList) (bytesOf pre).length =
        if (rest.dropWhile isWordChar).head? = some '(' then
          scanFrom text (bytesOf text.toList)
            (bytesOf (pre ++ c :: rest.takeWhile isWordChar)).length
        else
          (scanFrom text (bytesOf text.toList)
            (bytesOf ((pre ++ c :: rest.takeWhile isWordChar) ++ passed)).length).map
            (String.ofList (c :: rest.takeWhile isWordChar) :: ·) := by
  obtain ⟨hi, hq, hd, hw⟩ := byteAt h
  have hskip := skipWord_bytesOf pre (c :: rest)
  rw [← h, List.takeWhile_cons_of_pos hword] at hskip
  have hsplit : text.toList =
      pre ++ (c :: rest.takeWhile isWordChar ++ rest.dropWhile isWordChar) := by simp [h]
  have hbehind : text.toList =
      (pre ++ c :: rest.takeWhile isWordChar) ++ rest.dropWhile isWordChar := by simp [h]
  have hrest : slice? text (bytesOf (pre ++ c :: rest.takeWhile isWordChar)).length
      (bytesOf text.toList).length = some (String.ofList (rest.dropWhile isWordChar)) := by
    have hend : text.toList = (pre ++ c :: rest.takeWhile isWordChar) ++
        (rest.dropWhile isWordChar ++ []) := by simp [h]
    have hcut := slice?_bytesOf hend
    rwa [← hbehind] at hcut
  obtain ⟨passed, hpassed, hnext⟩ := skipSelector_bytesOf hbehind
  refine ⟨passed, hpassed, ?_⟩
  rw [scanFrom, dif_pos hi, if_neg (mt hq.mp hquote), dif_neg (by rwa [hd]),
    dif_pos (hw.trans hword), hskip, slice?_bytesOf hsplit, Option.bind_some, hrest,
    Option.bind_some, hnext]
  simp only [getElem?_bytesOf hbehind (q := '(') (by decide)]

/-- From behind some characters on, the references by offsets are those in the other characters. -/
theorem scanFrom_bytesOf {text : String} {pre rest : List Char} (h : text.toList = pre ++ rest) :
    scanFrom text (bytesOf text.toList) (bytesOf pre).length =
      some ((references rest).map String.ofList) := by
  induction rest using references.induct generalizing pre with
  | case1 =>
    rw [references_nil, scanFrom, dif_neg (by simp [h])]
    rfl
  | case2 rest ih =>
    obtain ⟨hi, hquote, -⟩ := byteAt h
    have hnext : (bytesOf pre).length + 1 = (bytesOf (pre ++ ['"'])).length := by
      rw [bytesOf_append, List.length_append]
      rfl
    have hinside : text.toList = (pre ++ ['"']) ++ rest := by simpa using h
    rw [references, if_pos rfl, scanFrom, dif_pos hi, if_pos (hquote.mpr rfl), hnext]
    rcases leavesString_afterQuote (pre ++ ['"']) rest with ⟨inside, hsplit, hskip⟩ | ⟨hnil, hskip⟩
    · rw [hinside, hskip, ← hinside]
      exact ih (by rw [hinside, List.append_assoc _ inside, ← hsplit])
    · rw [← hinside] at hskip
      rw [hnil, references_nil, scanFrom, dif_neg (by omega)]
      rfl
  | case3 c rest hquote hdigit ih =>
    obtain ⟨hi, hq, hd, -⟩ := byteAt h
    have hword : isWordChar c = true := isWordChar_of_isDigit hdigit
    have hskip := skipWord_bytesOf pre (c :: rest)
    rw [← h, List.takeWhile_cons_of_pos hword] at hskip
    rw [references, if_neg hquote, if_pos hdigit, scanFrom, dif_pos hi, if_neg (mt hq.mp hquote),
      dif_pos (hd.trans hdigit), hskip]
    exact ih (by simp [h])
  | case4 c rest hquote hdigit hword hcall ih =>
    obtain ⟨passed, -, hscan⟩ := scanFrom_word h hquote hdigit hword
    rw [references, if_neg hquote, if_neg hdigit, if_pos hword, if_pos hcall, hscan, if_pos hcall]
    exact ih (by simp [h])
  | case5 c rest hquote hdigit hword hcall ih =>
    obtain ⟨passed, hpassed, hscan⟩ := scanFrom_word h hquote hdigit hword
    have hbehind : text.toList = ((pre ++ c :: rest.takeWhile isWordChar) ++ passed) ++
        afterSelector (rest.dropWhile isWordChar) := by
      rw [List.append_assoc _ passed, ← hpassed]
      simp [h]
    rw [references, if_neg hquote, if_neg hdigit, if_pos hword, if_neg hcall, hscan,
      if_neg hcall, ih hbehind]
    rfl
  | case6 c rest hquote hdigit hword ih =>
    have hplain : isWordChar c = false := by simpa using hword
    rw [references_skip hquote hplain, scanFrom_char h hquote hplain]
    exact ih (by simp [h])

/-! ### Where the references stand -/

/-- Whether a place in a value is outside of strings, inside of one, or inside of one and behind a
backslash. -/
inductive StringPlace
  | outside
  | inside
  | escaped
deriving DecidableEq

/-- The place behind a character. -/
def StringPlace.next : StringPlace → Char → StringPlace
  | outside, c => if c = '"' then inside else outside
  | inside, c => if c = '"' then outside else if c = '\\' then escaped else inside
  | escaped, _ => inside

/-- The place behind some characters. -/
def StringPlace.behind (place : StringPlace) (cs : List Char) : StringPlace := cs.foldl next place

theorem StringPlace.behind_append (place : StringPlace) (cs ds : List Char) :
    place.behind (cs ++ ds) = (place.behind cs).behind ds := List.foldl_append

/-- Without a quote no string begins. -/
theorem StringPlace.outside_behind {cs : List Char} (h : '"' ∉ cs) :
    outside.behind cs = outside := by
  induction cs with
  | nil => rfl
  | cons c cs ih =>
    rw [List.mem_cons, not_or] at h
    obtain ⟨hc, hcs⟩ := h
    have hnext : outside.next c = outside := if_neg fun e => hc e.symm
    calc outside.behind (c :: cs) = (outside.next c).behind cs := rfl
      _ = outside := by rw [hnext, ih hcs]

/-- Behind a string is outside of it, if anything follows. -/
theorem afterQuote_outside (rest : List Char) :
    ∃ inside, rest = inside ++ afterQuote rest ∧
      (StringPlace.inside.behind inside = .outside ∨ afterQuote rest = []) := by
  fun_induction afterQuote rest with
  | case1 => exact ⟨[], rfl, Or.inr rfl⟩
  | case2 rest => exact ⟨['"'], rfl, Or.inl rfl⟩
  | case3 => exact ⟨['\\'], rfl, Or.inr rfl⟩
  | case4 c rest ih =>
    obtain ⟨inside, hsplit, hend⟩ := ih
    exact ⟨'\\' :: c :: inside, by simp [← hsplit], hend⟩
  | case5 c rest hquote hlast hescape ih =>
    obtain ⟨inside, hsplit, hend⟩ := ih
    have hslash : c ≠ '\\' := ne_backslash hlast hescape
    have hquote : c ≠ '"' := hquote
    have hnext : StringPlace.inside.next c = .inside := by simp [StringPlace.next, hquote, hslash]
    refine ⟨c :: inside, by simp [← hsplit], hend.imp_left fun hin => ?_⟩
    calc StringPlace.inside.behind (c :: inside)
        = (StringPlace.inside.next c).behind inside := rfl
      _ = .outside := by rw [hnext, hin]

/-- Words at places in a text, counted in characters: one behind the other, each outside of strings
and not before `start`. -/
structure Places (text : List Char) (start : Nat) (found : List (Nat × List Char)) : Prop where
  /-- No two of them overlap, and they stand in order. -/
  apart : found.Pairwise fun a b => a.1 + a.2.length ≤ b.1
  /-- None stands before `start`. -/
  behind : ∀ f ∈ found, start ≤ f.1
  /-- Each stands at its place. -/
  there : ∀ f ∈ found, f.2 <+: text.drop f.1
  /-- Its place is outside of strings. -/
  outside : ∀ f ∈ found, StringPlace.outside.behind (text.take f.1) = .outside

theorem Places.nil (text : List Char) (start : Nat) : Places text start [] := by
  constructor <;> simp

theorem Places.mono {text : List Char} {start start' : Nat} {found : List (Nat × List Char)}
    (h : Places text start found) (hle : start' ≤ start) : Places text start' found :=
  ⟨h.apart, fun f hf => hle.trans (h.behind f hf), h.there, h.outside⟩

/-- One more word in front of the others. -/
theorem Places.cons {pre word rest : List Char} {start : Nat} {found : List (Nat × List Char)}
    (h : Places (pre ++ (word ++ rest)) start found) (hstart : (pre ++ word).length ≤ start)
    (houtside : StringPlace.outside.behind pre = .outside) :
    Places (pre ++ (word ++ rest)) pre.length ((pre.length, word) :: found) where
  apart := by
    refine List.pairwise_cons.mpr ⟨fun f hf => ?_, h.apart⟩
    have := h.behind f hf
    rw [List.length_append] at hstart
    exact hstart.trans this
  behind := by
    refine List.forall_mem_cons.mpr ⟨Nat.le_refl _, fun f hf => ?_⟩
    have := h.behind f hf
    rw [List.length_append] at hstart
    omega
  there := by
    refine List.forall_mem_cons.mpr ⟨?_, h.there⟩
    rw [List.drop_left]
    exact List.prefix_append _ _
  outside := by
    refine List.forall_mem_cons.mpr ⟨?_, h.outside⟩
    rw [List.take_left]
    exact houtside

theorem isWordChar_of_mem_takeWhile {cs : List Char} {c : Char}
    (h : c ∈ cs.takeWhile isWordChar) : isWordChar c = true :=
  List.all_eq_true.mp List.all_takeWhile c h

/-- Nothing that selects an output of a record is a quote. -/
theorem afterSelector_passed (rest : List Char) :
    ∃ passed, rest = passed ++ afterSelector rest ∧ '"' ∉ passed := by
  have hword : ∀ cs : List Char, '"' ∉ cs.takeWhile isWordChar := fun cs hmem =>
    absurd (isWordChar_of_mem_takeWhile hmem) (by decide)
  fun_cases afterSelector rest with
  | case1 rest => exact ⟨':' :: ':' :: rest.takeWhile isWordChar, by simp, by simp [hword]⟩
  | case2 rest => exact ⟨'@' :: rest.takeWhile isWordChar, by simp, by simp [hword]⟩
  | case3 => exact ⟨[], rfl, List.not_mem_nil⟩

/-- The references in `rest`, at places behind `pre`. -/
def StandBehind (pre rest : List Char) : Prop :=
  ∃ found, found.map Prod.snd = references rest ∧ Places (pre ++ rest) pre.length found

/-- Characters that hold no reference are passed. -/
theorem StandBehind.of_passed {pre passed rest whole : List Char}
    (h : StandBehind (pre ++ passed) rest) (hsplit : whole = passed ++ rest)
    (hnone : references whole = references rest) : StandBehind pre whole := by
  obtain ⟨found, hfound, hplaces⟩ := h
  rw [List.append_assoc, ← hsplit] at hplaces
  refine ⟨found, hfound.trans hnone.symm, hplaces.mono ?_⟩
  rw [List.length_append]
  omega

theorem outside_behind_append {pre passed : List Char}
    (h : StringPlace.outside.behind pre = .outside) (hpassed : '"' ∉ passed) :
    StringPlace.outside.behind (pre ++ passed) = .outside := by
  rw [StringPlace.behind_append, h, StringPlace.outside_behind hpassed]

/-- Where no string is open, the references in what follows stand at places outside of strings. -/
theorem standBehind {pre rest : List Char} (h : StringPlace.outside.behind pre = .outside) :
    StandBehind pre rest := by
  have hnoquote : ∀ {c : Char} (cs : List Char), isWordChar c = true →
      '"' ∉ c :: cs.takeWhile isWordChar := by
    intro c cs hc hmem
    rcases List.mem_cons.mp hmem with rfl | hmem
    · exact absurd hc (by decide)
    · exact absurd (isWordChar_of_mem_takeWhile hmem) (by decide)
  induction rest using references.induct generalizing pre with
  | case1 => exact ⟨[], references_nil.symm, Places.nil _ _⟩
  | case2 rest ih =>
    have hstring : references ('"' :: rest) = references (afterQuote rest) := by
      rw [references, if_pos rfl]
    obtain ⟨inside, hsplit, hend | hend⟩ := afterQuote_outside rest
    · have hout : StringPlace.outside.behind (pre ++ '"' :: inside) = .outside := by
        rw [StringPlace.behind_append, h]
        exact hend
      exact (ih hout).of_passed (by rw [List.cons_append, ← hsplit]) hstring
    · refine ⟨[], ?_, Places.nil _ _⟩
      rw [hstring, hend, references_nil]
      rfl
  | case3 c rest hquote hdigit ih =>
    have hword : isWordChar c = true := isWordChar_of_isDigit hdigit
    refine (ih (outside_behind_append h (hnoquote rest hword))).of_passed (by simp) ?_
    rw [references, if_neg hquote, if_pos hdigit]
  | case4 c rest hquote hdigit hword hcall ih =>
    refine (ih (outside_behind_append h (hnoquote rest hword))).of_passed (by simp) ?_
    rw [references, if_neg hquote, if_neg hdigit, if_pos hword, if_pos hcall]
  | case5 c rest hquote hdigit hword hcall ih =>
    obtain ⟨passed, hsplit, hnone⟩ := afterSelector_passed (rest.dropWhile isWordChar)
    have hname := outside_behind_append h (hnoquote rest hword)
    obtain ⟨found, hfound, hplaces⟩ := ih (outside_behind_append hname hnone)
    have hwhole : (pre ++ c :: rest.takeWhile isWordChar ++ passed) ++
        afterSelector (rest.dropWhile isWordChar) =
        pre ++ (c :: rest.takeWhile isWordChar ++ rest.dropWhile isWordChar) := by
      rw [List.append_assoc _ passed, ← hsplit, List.append_assoc]
    have hrest : c :: rest = c :: rest.takeWhile isWordChar ++ rest.dropWhile isWordChar := by simp
    rw [hwhole] at hplaces
    have hstart : (pre ++ c :: rest.takeWhile isWordChar).length ≤
        (pre ++ c :: rest.takeWhile isWordChar ++ passed).length := by
      rw [@List.length_append _ _ passed]
      omega
    have hadd := hplaces.cons hstart h
    refine ⟨_, ?_, by rw [hrest]; exact hadd⟩
    rw [List.map_cons, hfound, references, if_neg hquote, if_neg hdigit, if_pos hword,
      if_neg hcall]
  | case6 c rest hquote hdigit hword ih =>
    have hplain : isWordChar c = false := by simpa using hword
    have hnone : '"' ∉ [c] := by simpa using fun e => hquote e.symm
    exact (ih (outside_behind_append h hnone)).of_passed rfl (references_skip hquote hplain rest)

/-- A reference is a word that starts with no digit. -/
theorem isIdentifier_of_mem_references {cs word : List Char} (h : word ∈ references cs) :
    isIdentifier (String.ofList word) = true := by
  fun_induction references cs with
  | case1 => cases h
  | case2 rest ih => exact ih h
  | case3 c rest hquote hdigit ih => exact ih h
  | case4 c rest hquote hdigit hword hcall ih => exact ih h
  | case5 c rest hquote hdigit hword hcall ih =>
    rcases List.mem_cons.mp h with rfl | h
    · have hnodigit : c.isDigit = false := by simpa using hdigit
      exact isIdentifier_iff.mpr ⟨c, rest.takeWhile isWordChar, String.toList_ofList, hnodigit,
        hword, fun d hd => isWordChar_of_mem_takeWhile hd⟩
    · exact ih h
  | case6 c rest hquote hdigit hword ih => exact ih h

/-- **References are found in place, whatever the text is.** A reader by byte offsets never cuts a
text outside of its bounds or inside a character, and it comes to the references of the text. These
are words that start with no digit; they stand in the text in their order, without overlapping and
outside of strings. -/
theorem references_found_in_place (text : String) :
    ∃ found : List (Nat × String),
      scanReferences? text = some (found.map Prod.snd) ∧
      (references text.toList).map String.ofList = found.map Prod.snd ∧
      (found.Pairwise fun a b => a.1 + a.2.length ≤ b.1) ∧
      ∀ f ∈ found, isIdentifier f.2 = true ∧ f.2.toList <+: text.toList.drop f.1 ∧
        StringPlace.outside.behind (text.toList.take f.1) = .outside := by
  have hstart : StringPlace.outside.behind [] = .outside := rfl
  obtain ⟨found, hfound, hplaces⟩ : StandBehind [] text.toList := standBehind hstart
  have hwords : (references text.toList).map String.ofList =
      (found.map fun f => (f.1, String.ofList f.2)).map Prod.snd := by
    rw [← hfound, List.map_map, List.map_map]
    rfl
  refine ⟨found.map fun f => (f.1, String.ofList f.2), ?_, hwords, ?_, ?_⟩
  · have hwhole : text.toList = [] ++ text.toList := rfl
    rw [← hwords]
    exact scanFrom_bytesOf hwhole
  · rw [List.pairwise_map]
    simpa using hplaces.apart
  · intro f hf
    obtain ⟨g, hg, rfl⟩ := List.mem_map.mp hf
    have hmem : g.2 ∈ references text.toList := hfound ▸ List.mem_map_of_mem hg
    refine ⟨isIdentifier_of_mem_references hmem, ?_, hplaces.outside g hg⟩
    rw [String.toList_ofList]
    exact hplaces.there g hg

/-- A backslash in front of a character of two bytes, and a string that is not closed. -/
example : scanReferences? "List(Ärm,-2e5,Lid::out,\"\\é\",Lid@\"Top" =
    some ["rm", "Lid", "Lid"] := by
  cbv

end ShadeNet
