/-
# What the command takes for arguments

A list of arguments is a row of items: files, and options with the argument behind them, whatever
that is. An option is told by its spelling alone, so a list has one reading at most. The command
takes a list if it has a reading with two files in which frames are asked for as ranges, and of the
items it keeps the order of the files and the order of the options: how the ones stand between the
others does not matter.

Key definitions: `FrameRange.IsSpelled`, `ArgumentItem`, `ArgumentItem.Reading`.
Key theorems: `int32OfNumeral?_eq_some_iff`, `splitDots?_eq_some_iff`, `addAll_eq_ok_iff`,
`arguments_read_exactly`.
-/
import Mathlib.Data.List.Infix
import Mathlib.Data.Nat.Digits.Defs
import ShadeNet.Command.Arguments

namespace ShadeNet

/-! ### Numerals -/

/-- The number that a row of decimal digits stands for, the last one for the ones. -/
def decimalValue (digits : List Char) : Nat :=
  Nat.ofDigits 10 (digits.reverse.map fun c => c.toNat - '0'.toNat)

/-- A numeral of a number: digits, with a sign in front or without one. -/
def IsSignedNumeral (cs : List Char) (value : Int) : Prop :=
  ∃ sign digits, cs = sign ++ digits ∧ digits ≠ [] ∧ (∀ c ∈ digits, c.isDigit = true) ∧
    (sign ∈ [[], ['+']] ∧ value = decimalValue digits ∨ sign = ['-'] ∧ value = -decimalValue digits)

theorem isDigit_iff (c : Char) : c.isDigit = true ↔ 48 ≤ c.toNat ∧ c.toNat ≤ 57 := by
  rw [Char.isDigit, Bool.and_eq_true, decide_eq_true_iff, decide_eq_true_iff]
  exact Iff.rfl

theorem digit?_eq_some_iff {c : Char} {d : Nat} :
    digit? 10 c = some d ↔ c.isDigit = true ∧ d = c.toNat - '0'.toNat := by
  have hzero : '0'.toNat = 48 := rfl
  by_cases h : '0' ≤ c ∧ c ≤ '9'
  · have hdigit : c.isDigit = true := (isDigit_iff c).mpr h
    have hvalue : hexDigit? c = some (c.toNat - '0'.toNat) := if_pos h
    have hbound := (isDigit_iff c).mp hdigit
    have hsmall : c.toNat - '0'.toNat < 10 := by omega
    unfold digit?
    rw [hvalue, Option.filter_some, if_pos (decide_eq_true hsmall), Option.some_inj]
    exact ⟨fun he => ⟨hdigit, he.symm⟩, fun he => he.2.symm⟩
  · have hdigit : ¬ c.isDigit = true := fun hd => h ((isDigit_iff c).mp hd)
    have hlarge : ∀ e, hexDigit? c = some e → ¬ e < 10 := by
      intro e he
      unfold hexDigit? at he
      rw [if_neg h] at he
      rcases ite_eq_iff.mp he with ⟨-, he⟩ | ⟨-, he⟩
      · cases he
        exact Nat.not_lt.mpr (Nat.le_add_left 10 _)
      · rcases ite_eq_iff.mp he with ⟨-, he⟩ | ⟨-, he⟩ <;> cases he
        exact Nat.not_lt.mpr (Nat.le_add_left 10 _)
    unfold digit?
    refine ⟨fun he => ?_, fun he => absurd he.1 hdigit⟩
    obtain ⟨hd, hlt⟩ := Option.filter_eq_some_iff.mp he
    exact absurd (of_decide_eq_true hlt) (hlarge d hd)

theorem accumulateDigits?_eq_some_iff {v n : Nat} {cs : List Char} :
    accumulateDigits? 10 v cs = some n ↔
      (∀ c ∈ cs, c.isDigit = true) ∧ n = 10 ^ cs.length * v + decimalValue cs := by
  induction cs generalizing v with
  | nil =>
    rw [accumulateDigits?, Option.some_inj]
    simp [decimalValue, eq_comm (a := v)]
  | cons c rest ih =>
    have hvalue : decimalValue (c :: rest) =
        decimalValue rest + 10 ^ rest.length * (c.toNat - '0'.toNat) := by
      simp [decimalValue, Nat.ofDigits_append]
    simp only [accumulateDigits?, Option.bind_eq_some_iff, digit?_eq_some_iff, ih,
      List.forall_mem_cons, List.length_cons, hvalue]
    constructor
    · rintro ⟨d, ⟨hc, rfl⟩, hrest, rfl⟩
      exact ⟨⟨hc, hrest⟩, by ring⟩
    · rintro ⟨⟨hc, hrest⟩, rfl⟩
      exact ⟨_, ⟨hc, rfl⟩, hrest, by ring⟩

theorem natOfDigits?_eq_some_iff {n : Nat} {cs : List Char} :
    natOfDigits? 10 cs = some n ↔
      cs ≠ [] ∧ (∀ c ∈ cs, c.isDigit = true) ∧ n = decimalValue cs := by
  unfold natOfDigits?
  cases cs with
  | nil => simp
  | cons c rest => simp [accumulateDigits?_eq_some_iff]

theorem int32OfMagnitude?_eq_some_iff {negative : Bool} {n : Nat} {value : Int32} :
    int32OfMagnitude? negative n = some value ↔
      value.toInt = if negative then -(n : Int) else n := by
  unfold int32OfMagnitude?
  simp only
  generalize (if negative = true then -(n : Int) else n) = z
  constructor
  · intro h
    split at h
    · rename_i hz
      cases h
      exact Int32.toInt_ofInt_of_le hz.1 (Int.lt_add_one_of_le hz.2)
    · cases h
  · rintro rfl
    rw [if_pos ⟨Int32.le_toInt value, Int32.toInt_le value⟩, Int32.ofInt_toInt]

theorem splitSign_digits {digits : List Char} (h : ∀ c ∈ digits, c.isDigit = true) :
    splitSign digits = (false, digits) := by
  unfold splitSign
  split
  · exact absurd (h '-' List.mem_cons_self) (by decide)
  · exact absurd (h '+' List.mem_cons_self) (by decide)
  · rfl

/-- A sign that is split off is a minus, or it is a plus or none at all. -/
theorem splitSign_eq {cs digits : List Char} {negative : Bool}
    (h : splitSign cs = (negative, digits)) : ∃ sign, cs = sign ++ digits ∧
      (negative = false ∧ sign ∈ [[], ['+']] ∨ negative = true ∧ sign = ['-']) := by
  unfold splitSign at h
  split at h <;> cases h
  · exact ⟨['-'], rfl, Or.inr ⟨rfl, rfl⟩⟩
  · exact ⟨['+'], rfl, Or.inl ⟨rfl, by simp⟩⟩
  · exact ⟨[], rfl, Or.inl ⟨rfl, by simp⟩⟩

/-- Exactly the numerals of a number of 32 bits are read, as that number. -/
theorem int32OfNumeral?_eq_some_iff {cs : List Char} {value : Int32} :
    int32OfNumeral? cs = some value ↔ IsSignedNumeral cs value.toInt := by
  have hread : ∀ {negative : Bool} {digits : List Char},
      (natOfDigits? 10 digits).bind (int32OfMagnitude? negative) = some value ↔
        digits ≠ [] ∧ (∀ c ∈ digits, c.isDigit = true) ∧
          value.toInt = if negative then -(decimalValue digits : Int) else decimalValue digits := by
    intro negative digits
    simp only [Option.bind_eq_some_iff, natOfDigits?_eq_some_iff, int32OfMagnitude?_eq_some_iff]
    constructor
    · rintro ⟨n, ⟨hne, hdigits, rfl⟩, hvalue⟩
      exact ⟨hne, hdigits, hvalue⟩
    · rintro ⟨hne, hdigits, hvalue⟩
      exact ⟨_, ⟨hne, hdigits, rfl⟩, hvalue⟩
  constructor
  · intro h
    unfold int32OfNumeral? at h
    rcases hsplit : splitSign cs with ⟨negative, digits⟩
    rw [hsplit] at h
    obtain ⟨hne, hdigits, hvalue⟩ := hread.mp h
    obtain ⟨sign, rfl, ⟨rfl, hsign⟩ | ⟨rfl, rfl⟩⟩ := splitSign_eq hsplit
    · exact ⟨sign, digits, rfl, hne, hdigits, Or.inl ⟨hsign, hvalue⟩⟩
    · exact ⟨['-'], digits, rfl, hne, hdigits, Or.inr ⟨rfl, hvalue⟩⟩
  · rintro ⟨sign, digits, rfl, hne, hdigits, ⟨hsign, hvalue⟩ | ⟨rfl, hvalue⟩⟩
    · have hsplit : splitSign (sign ++ digits) = (false, digits) := by
        rcases List.mem_cons.mp hsign with rfl | hplus
        · exact splitSign_digits hdigits
        · rw [List.mem_singleton.mp hplus]
          rfl
      unfold int32OfNumeral?
      rw [hsplit]
      exact hread.mpr ⟨hne, hdigits, hvalue⟩
    · exact hread.mpr ⟨hne, hdigits, hvalue⟩

/-! ### Frames -/

/-- A numeral of a frame, with any spacing around it. -/
def IsFrameText (cs : List Char) (frame : Int32) : Prop :=
  ∃ before numeral after, cs = before ++ numeral ++ after ∧ (∀ c ∈ before, isSpacing c = true) ∧
    (∀ c ∈ after, isSpacing c = true) ∧ IsSignedNumeral numeral frame.toInt

/-- The spelling of a range: its first frame stands before the first two points in a row, and its
last frame behind them. -/
def FrameRange.IsSpelled (range : FrameRange) (text : String) : Prop :=
  ∃ before after, text.toList = before ++ '.' :: '.' :: after ∧ ¬ ['.', '.'] <:+: before ++ ['.'] ∧
    IsFrameText before range.first ∧ IsFrameText after range.last

/-- The first two points in a row are found, and nothing else. -/
theorem splitDots?_eq_some_iff {cs before after : List Char} :
    splitDots? cs = some (before, after) ↔
      cs = before ++ '.' :: '.' :: after ∧ ¬ ['.', '.'] <:+: before ++ ['.'] := by
  induction cs using splitDots?.induct generalizing before with
  | case1 rest =>
    rw [splitDots?, Option.some_inj, Prod.mk.injEq]
    constructor
    · rintro ⟨rfl, rfl⟩
      exact ⟨rfl, by decide⟩
    · rintro ⟨hcs, hfirst⟩
      -- whatever stands before them begins with two points itself
      match before with
      | [] =>
        cases hcs
        exact ⟨rfl, rfl⟩
      | [a] =>
        cases hcs
        exact absurd (List.infix_refl _) hfirst
      | a :: b :: more =>
        cases hcs
        exact absurd (List.infix_append' [] _ _) hfirst
  | case2 c rest hc ih =>
    rw [splitDots?.eq_2 _ _ hc, Option.map_eq_some_iff]
    constructor
    · rintro ⟨⟨b, a⟩, hrest, heq⟩
      cases heq
      obtain ⟨rfl, hfirst⟩ := ih.mp hrest
      refine ⟨rfl, fun hinfix => ?_⟩
      rcases List.infix_cons_iff.mp hinfix with hhead | htail
      · obtain ⟨hdot, hnext⟩ := List.cons_prefix_cons.mp hhead
        cases b with
        | nil => exact hc _ hdot.symm rfl
        | cons d b =>
          obtain ⟨hdot', -⟩ := List.cons_prefix_cons.mp hnext
          exact hc _ hdot.symm (by rw [hdot']; rfl)
      · exact hfirst htail
    · rintro ⟨hcs, hfirst⟩
      cases before with
      | nil =>
        cases hcs
        exact absurd rfl (hc _ rfl)
      | cons d before =>
        cases hcs
        have hlater : ¬ ['.', '.'] <:+: before ++ ['.'] := fun hinfix =>
          hfirst (List.infix_cons_iff.mpr (Or.inr hinfix))
        exact ⟨(before, after), ih.mpr ⟨rfl, hlater⟩, rfl⟩
  | case3 => simp [splitDots?]

theorem isSpacing_of_isDigit {c : Char} (h : c.isDigit = true) : isSpacing c = false := by
  have hbound := (isDigit_iff c).mp h
  simp only [isSpacing, spacingRanges, List.any_cons, List.any_nil, Bool.or_eq_false_iff,
    Bool.and_eq_false_iff, decide_eq_false_iff_not, and_true]
  omega

/-- A numeral holds no spacing. -/
theorem IsSignedNumeral.unspaced {cs : List Char} {value : Int} (h : IsSignedNumeral cs value) :
    cs ≠ [] ∧ ∀ c ∈ cs, isSpacing c = false := by
  obtain ⟨sign, digits, rfl, hne, hdigits, hsign⟩ := h
  refine ⟨by simp [hne], fun c hc => ?_⟩
  rcases List.mem_append.mp hc with hc | hc
  · have hone : c = '+' ∨ c = '-' := by
      rcases hsign with ⟨hplus, -⟩ | ⟨rfl, -⟩
      · rcases List.mem_pair.mp hplus with rfl | rfl
        · cases hc
        · exact Or.inl (List.mem_singleton.mp hc)
      · exact Or.inr (List.mem_singleton.mp hc)
    rcases hone with rfl | rfl <;> rfl
  · exact isSpacing_of_isDigit (hdigits c hc)

theorem dropWhile_spacing {l cs : List Char} (hl : ∀ c ∈ l, isSpacing c = true) (hne : cs ≠ [])
    (hcs : ∀ c ∈ cs, isSpacing c = false) (r : List Char) :
    (l ++ cs ++ r).dropWhile isSpacing = cs ++ r := by
  obtain ⟨c, rest, rfl⟩ := List.exists_cons_of_ne_nil hne
  rw [List.append_assoc, List.dropWhile_append_of_pos hl, List.cons_append,
    List.dropWhile_cons_of_neg (by simp [hcs c List.mem_cons_self])]

/-- Spacing around a text that holds none is trimmed. -/
theorem trimSpacing_append {l cs r : List Char} (hl : ∀ c ∈ l, isSpacing c = true)
    (hr : ∀ c ∈ r, isSpacing c = true) (hne : cs ≠ []) (hcs : ∀ c ∈ cs, isSpacing c = false) :
    trimSpacing (l ++ cs ++ r) = cs := by
  have hend : (r.reverse ++ cs.reverse ++ []).dropWhile isSpacing = cs.reverse ++ [] :=
    dropWhile_spacing (by simpa using hr) (by simpa using hne) (by simpa using hcs) []
  unfold trimSpacing
  rw [dropWhile_spacing hl hne hcs, List.reverse_append]
  rw [List.append_nil, List.append_nil] at hend
  rw [hend, List.reverse_reverse]

/-- What is trimmed at both ends is spacing. -/
theorem trimSpacing_eq (cs : List Char) : ∃ l r, cs = l ++ trimSpacing cs ++ r ∧
    (∀ c ∈ l, isSpacing c = true) ∧ ∀ c ∈ r, isSpacing c = true := by
  have hspacing : ∀ l : List Char, ∀ c ∈ l.takeWhile isSpacing, isSpacing c = true := fun l =>
    List.all_eq_true.mp List.all_takeWhile
  refine ⟨cs.takeWhile isSpacing, ((cs.dropWhile isSpacing).reverse.takeWhile isSpacing).reverse,
    ?_, hspacing cs, fun c hc => hspacing _ c (List.mem_reverse.mp hc)⟩
  unfold trimSpacing
  rw [List.append_assoc, ← List.reverse_append, List.takeWhile_append_dropWhile, List.reverse_reverse,
    List.takeWhile_append_dropWhile]

theorem frameOfText?_eq_some_iff {cs : List Char} {frame : Int32} :
    frameOfText? cs = some frame ↔ IsFrameText cs frame := by
  unfold frameOfText?
  constructor
  · intro h
    obtain ⟨l, r, hcs, hl, hr⟩ := trimSpacing_eq cs
    exact ⟨l, trimSpacing cs, r, hcs, hl, hr, int32OfNumeral?_eq_some_iff.mp h⟩
  · rintro ⟨l, numeral, r, rfl, hl, hr, hnumeral⟩
    rw [trimSpacing_append hl hr hnumeral.unspaced.1 hnumeral.unspaced.2]
    exact int32OfNumeral?_eq_some_iff.mpr hnumeral

/-- Exactly the spellings of a range are read, as that range. -/
theorem FrameRange.ofText?_eq_some_iff {text : String} {range : FrameRange} :
    FrameRange.ofText? text = some range ↔ range.IsSpelled text := by
  have hopen : ∀ {first last : Int32}, (if h : first ≤ last then some (⟨first, last, h⟩ : FrameRange)
      else none) = some range ↔ first = range.first ∧ last = range.last := by
    intro first last
    obtain ⟨a, b, hab⟩ := range
    split
    · simp
    · rename_i hlt
      simp only [reduceCtorEq, false_iff]
      rintro ⟨rfl, rfl⟩
      exact hlt hab
  unfold FrameRange.ofText? FrameRange.IsSpelled
  simp only [Option.bind_eq_bind, Option.bind_eq_some_iff, hopen, Prod.exists,
    splitDots?_eq_some_iff, frameOfText?_eq_some_iff]
  constructor
  · rintro ⟨before, after, ⟨htext, hdots⟩, first, hfirst, last, hlast, rfl, rfl⟩
    exact ⟨before, after, htext, hdots, hfirst, hlast⟩
  · rintro ⟨before, after, htext, hdots, hfirst, hlast⟩
    exact ⟨before, after, ⟨htext, hdots⟩, _, hfirst, _, hlast, rfl, rfl⟩

/-! ### Items -/

/-- What stands in a list of arguments. -/
inductive ArgumentItem
  /-- An option, with the argument behind it. -/
  | option (flag : Flag) (value : String)
  /-- A file. -/
  | file (path : String)
deriving DecidableEq

namespace ArgumentItem

/-- The arguments that make an item. -/
def spelling : ArgumentItem → List String
  | option flag value => [flag.name, value]
  | file path => [path]

/-- Whether an item is taken: frames are asked for as a range, whatever belongs to no option does
not look like one. -/
def IsTaken : ArgumentItem → Prop
  | option .frames value => ∃ range : FrameRange, range.IsSpelled value
  | option _ _ => True
  | file path => ¬ ['-', '-'] <+: path.toList

/-- The option of an item and its value. -/
def option? : ArgumentItem → Option (Flag × String)
  | option flag value => some (flag, value)
  | file _ => none

/-- The file of an item. -/
def file? : ArgumentItem → Option String
  | option _ _ => none
  | file path => some path

/-- The files, from the first to the last. -/
def files (items : List ArgumentItem) : List String := items.filterMap file?

/-- The options with their values, from the first to the last. -/
def options (items : List ArgumentItem) : List (Flag × String) := items.filterMap option?

/-- The values that an option has, from the first to the last. -/
def values (flag : Flag) (items : List ArgumentItem) : List String :=
  (options items).filterMap fun (f, value) => if f = flag then some value else none

/-- A list of arguments, read from left to right, is a row of items that are taken. -/
def Reading (list : List String) (items : List ArgumentItem) : Prop :=
  items.flatMap spelling = list ∧ ∀ item ∈ items, item.IsTaken

@[simp]
theorem files_option (flag : Flag) (value : String) (items : List ArgumentItem) :
    files (option flag value :: items) = files items := rfl

@[simp]
theorem files_file (path : String) (items : List ArgumentItem) :
    files (file path :: items) = path :: files items := rfl

@[simp]
theorem values_option (flag f : Flag) (value : String) (items : List ArgumentItem) :
    values flag (option f value :: items) =
      if f = flag then value :: values flag items else values flag items := by
  unfold values options
  rw [List.filterMap_cons_some (rfl : option? (option f value) = some (f, value)),
    List.filterMap_cons]
  by_cases h : f = flag <;> simp [h]

@[simp]
theorem values_file (flag : Flag) (path : String) (items : List ArgumentItem) :
    values flag (file path :: items) = values flag items := rfl

@[simp]
theorem files_nil : files [] = [] := rfl

@[simp]
theorem values_nil (flag : Flag) : values flag [] = [] := rfl

end ArgumentItem

open ArgumentItem

/-! ### Options -/

namespace Flag

theorem ofName?_eq_some_iff {flag : Flag} {text : String} :
    ofName? text = some flag ↔ flag.name = text := by
  constructor
  · intro h
    unfold ofName? at h
    simpa using List.find?_some h
  · rintro rfl
    cases flag <;> decide

theorem ofName?_eq_none {text : String} (h : ¬ ['-', '-'] <+: text.toList) :
    ofName? text = none := by
  cases hf : ofName? text with
  | none => rfl
  | some flag =>
    rw [ofName?_eq_some_iff] at hf
    subst hf
    exact absurd (by cases flag <;> decide) h

end Flag

theorem bind_eq_ok_iff {ε α β : Type} {x : Except ε α} {f : α → Except ε β} {b : β} :
    (x >>= f) = .ok b ↔ ∃ a, x = .ok a ∧ f a = .ok b := by
  cases x with
  | error e => exact ⟨nofun, nofun⟩
  | ok a => exact ⟨fun h => ⟨a, rfl, h⟩, fun ⟨_, ha, hb⟩ => by cases ha; exact hb⟩

namespace ArgumentDraft

variable {d d' : ArgumentDraft}

/-- What is read after the items of a row. -/
def addItems (d : ArgumentDraft) (items : List ArgumentItem) : ArgumentDraft where
  files := d.files ++ ArgumentItem.files items
  settings := (values .settings items).getLast?.or d.settings
  catalogs := d.catalogs ++ values .catalog items
  frames := ((values .frames items).filterMap FrameRange.ofText?).getLast?.or d.frames

@[simp]
theorem addItems_nil (d : ArgumentDraft) : d.addItems [] = d := by
  simp [addItems]

theorem addFile_eq_ok_iff {path : String} :
    d.addFile path = .ok d' ↔ (file path).IsTaken ∧ d' = d.addItems [file path] := by
  unfold addFile IsTaken
  split
  · rename_i rest hpath
    simp [hpath]
  · rename_i hpath
    have hplain : ¬ ['-', '-'] <+: path.toList := by
      rintro ⟨rest, hrest⟩
      exact hpath rest hrest.symm
    simp [hplain, addItems, eq_comm]

theorem addFlag_eq_ok_iff {flag : Flag} {value : String} :
    d.addFlag value flag = .ok d' ↔
      (option flag value).IsTaken ∧ d' = d.addItems [option flag value] := by
  cases flag with
  | settings => simp [addFlag, IsTaken, addItems, eq_comm]
  | catalog => simp [addFlag, IsTaken, addItems, eq_comm]
  | frames =>
    unfold addFlag IsTaken
    cases hrange : FrameRange.ofText? value with
    | some range =>
      have htaken : ∃ range : FrameRange, range.IsSpelled value :=
        ⟨range, FrameRange.ofText?_eq_some_iff.mp hrange⟩
      simp [htaken, addItems, hrange, eq_comm]
    | none =>
      simp only [reduceCtorEq, false_iff, not_and]
      rintro ⟨range, hspelled⟩
      rw [FrameRange.ofText?_eq_some_iff.mpr hspelled] at hrange
      cases hrange

/-- One item after another. -/
theorem addItems_cons (d : ArgumentDraft) {item : ArgumentItem} (h : item.IsTaken)
    (items : List ArgumentItem) :
    d.addItems (item :: items) = (d.addItems [item]).addItems items := by
  have hlast : ∀ {α : Type} (a : α) (rest : List α) (before : Option α),
      (a :: rest).getLast?.or before = rest.getLast?.or (some a) := by
    intro α a rest before
    rw [List.getLast?_cons]
    cases rest.getLast? <;> rfl
  cases item with
  | file path => simp [addItems]
  | option flag value =>
    cases flag with
    | settings => simp [addItems, hlast]
    | catalog => simp [addItems]
    | frames =>
      obtain ⟨range, hrange⟩ := h
      rw [← FrameRange.ofText?_eq_some_iff] at hrange
      simp [addItems, hrange, hlast]

theorem addAll_option (flag : Flag) (value : String) (rest : List String) :
    d.addAll (flag.name :: value :: rest) = (d.addFlag value flag >>= fun d => d.addAll rest) := by
  rw [addAll, Flag.ofName?_eq_some_iff.mpr rfl]

theorem addAll_file {path : String} (h : Flag.ofName? path = none) (rest : List String) :
    d.addAll (path :: rest) = (d.addFile path >>= fun d => d.addAll rest) := by
  cases rest with
  | nil =>
    rw [addAll, h]
    cases d.addFile path <;> rfl
  | cons next rest => rw [addAll, h]

/-- An item that is taken is read first. -/
theorem addAll_spelling {item : ArgumentItem} (h : item.IsTaken) (rest : List String) :
    d.addAll (item.spelling ++ rest) = (d.addItems [item]).addAll rest := by
  cases item with
  | option flag value =>
    refine (addAll_option flag value rest).trans ?_
    rw [addFlag_eq_ok_iff.mpr ⟨h, rfl⟩]
    rfl
  | file path =>
    refine (addAll_file (Flag.ofName?_eq_none h) rest).trans ?_
    rw [addFile_eq_ok_iff.mpr ⟨h, rfl⟩]
    rfl

/-- Arguments are read to their end if they have a reading, and then they are its items. -/
theorem addAll_eq_ok_iff {list : List String} :
    d.addAll list = .ok d' ↔ ∃ items, Reading list items ∧ d' = d.addItems items := by
  constructor
  · intro h
    have hmore : ∀ {d : ArgumentDraft} {rest : List String} {item : ArgumentItem}, item.IsTaken →
        (∃ items, Reading rest items ∧ d' = (d.addItems [item]).addItems items) →
        ∃ items, Reading (item.spelling ++ rest) items ∧ d' = d.addItems items := by
      rintro d _ item htaken ⟨items, ⟨rfl, hrest⟩, rfl⟩
      exact ⟨item :: items, ⟨rfl, List.forall_mem_cons.mpr ⟨htaken, hrest⟩⟩,
        (d.addItems_cons htaken items).symm⟩
    induction d, list using addAll.induct with
    | case1 d =>
      cases h
      exact ⟨[], ⟨rfl, by simp⟩, (addItems_nil _).symm⟩
    | case2 d argument flag hflag =>
      simp only [addAll, hflag] at h
      cases h
    | case3 d argument hflag =>
      simp only [addAll, hflag] at h
      obtain ⟨htaken, rfl⟩ := addFile_eq_ok_iff.mp h
      exact hmore htaken ⟨[], ⟨rfl, by simp⟩, (addItems_nil _).symm⟩
    | case4 d argument next rest flag hflag ih =>
      simp only [addAll, hflag] at h
      obtain ⟨first, hfirst, h⟩ := bind_eq_ok_iff.mp h
      obtain ⟨htaken, rfl⟩ := addFlag_eq_ok_iff.mp hfirst
      rw [← Flag.ofName?_eq_some_iff.mp hflag]
      exact hmore htaken (ih _ h)
    | case5 d argument next rest hflag ih =>
      simp only [addAll, hflag] at h
      obtain ⟨first, hfirst, h⟩ := bind_eq_ok_iff.mp h
      obtain ⟨htaken, rfl⟩ := addFile_eq_ok_iff.mp hfirst
      exact hmore htaken (ih _ h)
  · rintro ⟨items, ⟨rfl, htaken⟩, rfl⟩
    induction items generalizing d with
    | nil => rw [addItems_nil]; rfl
    | cons item items ih =>
      obtain ⟨hitem, hrest⟩ := List.forall_mem_cons.mp htaken
      rw [List.flatMap_cons, addAll_spelling hitem, addItems_cons d hitem items]
      exact ih hrest

end ArgumentDraft

/-! ### Arguments -/

/-- Arguments are the items of a row: the two files in order, of settings and frames the last
ones, and all catalogs in order. -/
structure Arguments.Gather (arguments : Arguments) (items : List ArgumentItem) : Prop where
  files : files items = [arguments.scene, arguments.output]
  settings : arguments.settings = (values .settings items).getLast?
  catalogs : arguments.catalogs = values .catalog items
  frames : ∀ range, arguments.frames = some range ↔
    ∃ value, (values .frames items).getLast? = some value ∧ range.IsSpelled value

/-- The last range of frames is that of the last value, if all values are ranges. -/
theorem getLast?_frames {items : List ArgumentItem} (h : ∀ item ∈ items, item.IsTaken)
    (range : FrameRange) :
    ((values .frames items).filterMap FrameRange.ofText?).getLast? = some range ↔
      ∃ value, (values .frames items).getLast? = some value ∧ range.IsSpelled value := by
  have hspelled : ∀ value ∈ values .frames items, ∃ range : FrameRange, range.IsSpelled value := by
    intro value hvalue
    obtain ⟨⟨flag, value'⟩, hoption, hframes⟩ := List.mem_filterMap.mp hvalue
    obtain ⟨item, hitem, hof⟩ := List.mem_filterMap.mp hoption
    obtain ⟨rfl, rfl⟩ : flag = .frames ∧ value' = value := by simpa using hframes
    cases item with
    | file path => cases hof
    | option flag value =>
      cases hof
      exact h _ hitem
  generalize values .frames items = texts at hspelled
  rcases List.eq_nil_or_concat texts with rfl | ⟨before, last, rfl⟩
  · simp
  · obtain ⟨range', hrange'⟩ := hspelled last (by simp)
    simp only [List.concat_eq_append, ← FrameRange.ofText?_eq_some_iff] at hrange' ⊢
    simp [List.filterMap_append, hrange']

namespace ArgumentItem.Reading

variable {list list' : List String} {items items' : List ArgumentItem}

/-- Options and files are told apart, so a list has one reading at most. -/
theorem unique (h : Reading list items) (h' : Reading list items') : items = items' := by
  have hoption : ∀ {flag : Flag} {path : String}, (file path).IsTaken → flag.name ≠ path := by
    rintro flag _ htaken rfl
    have hname := Flag.ofName?_eq_none htaken
    rw [Flag.ofName?_eq_some_iff.mpr rfl] at hname
    cases hname
  obtain ⟨rfl, htaken⟩ := h
  obtain ⟨hlist, htaken'⟩ := h'
  induction items generalizing items' with
  | nil =>
    cases items' with
    | nil => rfl
    | cons item' _ => cases item' <;> simp [spelling] at hlist
  | cons item items ih =>
    obtain ⟨hitem, hitems⟩ := List.forall_mem_cons.mp htaken
    cases items' with
    | nil => cases item <;> simp [spelling] at hlist
    | cons item' items' =>
      obtain ⟨hitem', hitems'⟩ := List.forall_mem_cons.mp htaken'
      cases item with
      | option flag value =>
        cases item' with
        | option flag' value' =>
          simp only [List.flatMap_cons, spelling, List.cons_append, List.nil_append,
            List.cons.injEq] at hlist
          obtain ⟨hname, rfl, hrest⟩ := hlist
          have hflag := Flag.ofName?_eq_some_iff.mpr hname
          rw [Flag.ofName?_eq_some_iff.mpr rfl] at hflag
          cases hflag
          rw [ih hitems hrest hitems']
        | file path =>
          exact absurd (List.cons.inj hlist).1.symm (hoption hitem')
      | file path =>
        cases item' with
        | option flag' value' => exact absurd (List.cons.inj hlist).1 (hoption hitem)
        | file path' =>
          simp only [List.flatMap_cons, spelling, List.cons_append, List.nil_append,
            List.cons.injEq] at hlist
          obtain ⟨rfl, hrest⟩ := hlist
          rw [ih hitems hrest hitems']

theorem ofList_eq (h : Reading list items) :
    Arguments.ofList list = (({} : ArgumentDraft).addItems items).finish := by
  unfold Arguments.ofList
  rw [ArgumentDraft.addAll_eq_ok_iff.mpr ⟨items, h, rfl⟩]
  rfl

/-- What the command makes of a row of items. -/
theorem ofList_eq_ok_iff (h : Reading list items) {arguments : Arguments} :
    Arguments.ofList list = .ok arguments ↔ arguments.Gather items := by
  rw [h.ofList_eq]
  unfold ArgumentDraft.finish ArgumentDraft.addItems
  simp only [List.nil_append, Option.or_none]
  constructor
  · intro hfinish
    split at hfinish
    · rename_i scene output hfiles
      cases hfinish
      exact ⟨hfiles, rfl, rfl, getLast?_frames h.2⟩
    · cases hfinish
  · intro hgather
    have hlast : ((values .frames items).filterMap FrameRange.ofText?).getLast? = arguments.frames :=
      Option.ext fun range => (getLast?_frames h.2 range).trans (hgather.frames range).symm
    simp only [hgather.files, ← hgather.settings, ← hgather.catalogs, hlast]

end ArgumentItem.Reading

/-- **The command takes exactly the lists that have a reading.** A list of arguments is accepted
if and only if it is a row of items, read from left to right, with two files in it: options with
the argument behind them, of which frames are a range, and files that do not begin with two dashes.
What comes of it is gathered from the items, and it does not depend on where the options stand
between the files. A range of frames is read from exactly its spellings: two numerals of 32 bits
with spacing around them, parted by the first two points in a row. -/
theorem arguments_read_exactly :
    (∀ list, (∃ arguments, Arguments.ofList list = .ok arguments) ↔
      ∃ items, Reading list items ∧ (files items).length = 2) ∧
    (∀ list items arguments, Reading list items → Arguments.ofList list = .ok arguments →
      arguments.Gather items) ∧
    (∀ list items list' items', Reading list items → Reading list' items' →
      files items = files items' → options items = options items' →
      Arguments.ofList list = Arguments.ofList list') ∧
    ∀ text range, FrameRange.ofText? text = some range ↔ range.IsSpelled text := by
  refine ⟨fun list => ⟨?_, ?_⟩, fun list items arguments hread hof => hread.ofList_eq_ok_iff.mp hof,
    fun list items list' items' hread hread' hfiles hoptions => ?_,
    fun text range => FrameRange.ofText?_eq_some_iff⟩
  · rintro ⟨arguments, hof⟩
    obtain ⟨draft, hdraft, -⟩ := bind_eq_ok_iff.mp hof
    obtain ⟨items, hread, -⟩ := ArgumentDraft.addAll_eq_ok_iff.mp hdraft
    have hgather := hread.ofList_eq_ok_iff.mp hof
    exact ⟨items, hread, by rw [hgather.files]; rfl⟩
  · rintro ⟨items, hread, hlength⟩
    obtain ⟨scene, output, hfiles⟩ := List.length_eq_two.mp hlength
    rw [hread.ofList_eq]
    unfold ArgumentDraft.finish ArgumentDraft.addItems
    simp [hfiles]
  · have hvalues : ∀ flag, values flag items = values flag items' := fun flag => by
      unfold values
      rw [hoptions]
    rw [hread.ofList_eq, hread'.ofList_eq]
    unfold ArgumentDraft.addItems
    simp only [hfiles, hvalues]

example : Arguments.ofList ["--frames", " -2 .. +3", "shot.ron", "--catalog", "--settings", "out"] =
    .ok ⟨"shot.ron", "out", none, ["--settings"], some ⟨-2, 3, by decide⟩⟩ := by decide +kernel

end ShadeNet
