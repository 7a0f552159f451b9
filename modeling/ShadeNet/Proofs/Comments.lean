/-
# Reading past comments

A file is read in two steps: comments are taken out, each up to the end of its line, and what is
left is read as records. Two slashes open a comment unless they are in quotes. The text of records
has none outside quotes, so it is left as it is, whatever strings are in it. The comment at the
head of a pass is taken out whole if the name of the scene is on one line.

Key definitions: `Lexing`, `Lexing.strip`, `readText`, `Lexing.Keeps`.
Key theorems: `keeps_value`, `keeps_records`, `readText_records`, `readText_headed`.
-/
import ShadeNet.Export
import ShadeNet.Proofs.Decoding

namespace ShadeNet

/-- Where a reader is that takes comments out. -/
inductive Lexing
  /-- Outside quotes and comments. -/
  | code
  /-- Behind a slash, which may open a comment. -/
  | slash
  /-- In a comment. -/
  | comment
  /-- In quotes. -/
  | quoted
  /-- Behind a backslash in quotes. -/
  | escaped
deriving DecidableEq

namespace Lexing

/-- Goes over one character, and gives what is left by it. -/
def next : Lexing → Char → Lexing × List Char
  | code, c => if c = '"' then (quoted, [c]) else if c = '/' then (slash, []) else (code, [c])
  | slash, c =>
    if c = '/' then (comment, []) else if c = '"' then (quoted, ['/', c]) else (code, ['/', c])
  | comment, c => if c = '\n' then (code, [c]) else (comment, [])
  | quoted, c => (if c = '"' then code else if c = '\\' then escaped else quoted, [c])
  | escaped, c => (quoted, [c])

/-- The characters without their comments. -/
def strip : Lexing → List Char → List Char
  | place, [] => if place = slash then ['/'] else []
  | place, c :: rest => (place.next c).2 ++ strip (place.next c).1 rest

end Lexing

/-- The records in a file that is nothing but records and comments. -/
def readText (text : String) : Option (List Block) := readBlocks (Lexing.code.strip text.toList)

/-! ### What is left as it is -/

/-- Between these places the characters are left as they are, whatever stands behind them. -/
def Lexing.Keeps (before : Lexing) (cs : List Char) (after : Lexing) : Prop :=
  ∀ rest, before.strip (cs ++ rest) = cs ++ after.strip rest

namespace Lexing.Keeps

variable {before between after : Lexing} {cs ds : List Char} {c : Char}

theorem nil (place : Lexing) : place.Keeps [] place := fun _ => rfl

theorem append (h : before.Keeps cs between) (k : between.Keeps ds after) :
    before.Keeps (cs ++ ds) after := fun rest => by
  rw [List.append_assoc, h, k, List.append_assoc]

theorem cons (hc : before.next c = (between, [c])) (h : between.Keeps cs after) :
    before.Keeps (c :: cs) after := fun rest => by
  show (before.next c).2 ++ (before.next c).1.strip (cs ++ rest) = c :: cs ++ after.strip rest
  rw [hc, h]
  rfl

end Lexing.Keeps

/-- Characters that are neither quotes nor slashes are left as they are. -/
theorem keeps_plain {cs : List Char} (h : cs.all (fun c => c != '"' && c != '/') = true) :
    Lexing.code.Keeps cs .code := by
  induction cs with
  | nil => exact .nil .code
  | cons c rest ih =>
    rw [List.all_cons, Bool.and_eq_true, Bool.and_eq_true, bne_iff_ne, bne_iff_ne] at h
    obtain ⟨⟨hquote, hslash⟩, hrest⟩ := h
    exact .cons (by simp [Lexing.next, hquote, hslash]) (ih hrest)

theorem keeps_identifier {word : String} (h : isIdentifier word = true) :
    Lexing.code.Keeps word.toList .code := by
  refine keeps_plain (List.all_eq_true.mpr fun c hc => ?_)
  have hword := isWordChar_of_isIdentifier h c hc
  have hquote : c ≠ '"' := fun e => absurd (e ▸ hword) (by decide)
  have hslash : c ≠ '/' := fun e => absurd (e ▸ hword) (by decide)
  rw [Bool.and_eq_true, bne_iff_ne, bne_iff_ne]
  exact ⟨hquote, hslash⟩

/-- Where a reader of a value is, as it is seen by who takes comments out. -/
def Quoting.lexing : Quoting → Lexing
  | outside => .code
  | inside => .quoted
  | escaped => .escaped

theorem next_lexing {before after : Quoting} {c : Char} (h : before.next c = some after) :
    before.lexing.next c = (after.lexing, [c]) := by
  cases before with
  | outside =>
    simp only [Quoting.next] at h
    split at h
    · cases h
      simp [Quoting.lexing, Lexing.next, *]
    · rename_i hquote
      split at h
      · cases h
      · rename_i hrest
        cases h
        simp [Quoting.lexing, Lexing.next, hquote, (not_or.mp hrest).2]
  | inside =>
    simp only [Quoting.next] at h
    split at h
    · cases h
      simp [Quoting.lexing, Lexing.next, *]
    · split at h <;> cases h <;> simp [Quoting.lexing, Lexing.next, *]
  | escaped =>
    cases h
    rfl

/-- What a reader of a value goes over is left as it is. -/
theorem keeps_value {cs : List Char} {before after : Quoting}
    (h : cs.foldlM Quoting.next before = some after) : before.lexing.Keeps cs after.lexing := by
  induction cs generalizing before with
  | nil =>
    cases h
    exact .nil _
  | cons c rest ih =>
    rw [List.foldlM_cons] at h
    obtain ⟨between, hc, hrest⟩ := Option.bind_eq_some_iff.mp h
    exact .cons (next_lexing hc) (ih hrest)

theorem keeps_assignment {a : String × String} (hname : isIdentifier a.1 = true)
    (hvalue : IsSealed a.2) : Lexing.code.Keeps (Record.assignmentText a).toList .code := by
  have htext : (Record.assignmentText a).toList =
      ['\n', '\t'] ++ a.1.toList ++ ['='] ++ a.2.toList ++ [';'] := by
    simp [Record.assignmentText]
  rw [htext]
  have hstart : Lexing.code.Keeps (['\n', '\t'] ++ a.1.toList ++ ['=']) .code :=
    ((keeps_plain (by decide)).append (keeps_identifier hname)).append (keeps_plain (by decide))
  exact (hstart.append (keeps_value hvalue)).append (keeps_plain (by decide))

/-- Texts that are left as they are one by one are left so one behind another. -/
theorem keeps_join {texts : List String}
    (h : ∀ text ∈ texts, Lexing.code.Keeps text.toList .code) :
    Lexing.code.Keeps (String.join texts).toList .code := by
  induction texts with
  | nil => exact .nil .code
  | cons text rest ih =>
    rw [String.join_cons, String.toList_append]
    exact (h text List.mem_cons_self).append (ih fun t ht => h t (List.mem_cons_of_mem text ht))

theorem keeps_record {r : Record} (h : r.IsSealed) : Lexing.code.Keeps r.text.toList .code := by
  have htext : r.text.toList = ['\n'] ++ r.plugin.toList ++ [' '] ++ r.name.toList ++
      [' ', '\x7b'] ++ (String.join (r.attrs.map Record.assignmentText)).toList ++
        ['\n', '\x7d', '\n'] := by
    simp [Record.text]
  have hattrs : Lexing.code.Keeps (String.join (r.attrs.map Record.assignmentText)).toList .code :=
    keeps_join <| List.forall_mem_map.mpr fun a ha =>
      keeps_assignment (h.attrs a ha).1 (h.attrs a ha).2
  have hplugin : Lexing.code.Keeps (['\n'] ++ r.plugin.toList ++ [' ']) .code :=
    ((keeps_plain (by decide)).append (keeps_identifier h.plugin)).append (keeps_plain (by decide))
  have hopen : Lexing.code.Keeps [' ', '\x7b'] .code := keeps_plain (by decide)
  have hhead := (hplugin.append (keeps_identifier h.name)).append hopen
  rw [htext]
  exact (hhead.append hattrs).append (keeps_plain (by decide))

theorem keeps_records {rs : List Record} (h : ∀ r ∈ rs, r.IsSealed) :
    Lexing.code.Keeps (String.join (rs.map Record.text)).toList .code :=
  keeps_join (List.forall_mem_map.mpr fun r hr => keeps_record (h r hr))

/-- The text of records is read as what is written of them. -/
theorem readText_records {rs : List Record} (h : ∀ r ∈ rs, r.IsSealed) :
    readText (String.join (rs.map Record.text)) = some (rs.map Record.block) := by
  have hstrip := keeps_records h []
  have hnil : Lexing.code.strip [] = [] := rfl
  rw [hnil, List.append_nil] at hstrip
  unfold readText
  rw [hstrip, readBlocks_records h]

/-! ### The comment at the head -/

/-- A comment ends with its line. -/
theorem strip_comment {cs : List Char} (h : '\n' ∉ cs) (rest : List Char) :
    Lexing.comment.strip (cs ++ '\n' :: rest) = '\n' :: Lexing.code.strip rest := by
  induction cs with
  | nil => rfl
  | cons c cs ih =>
    rw [List.mem_cons, not_or] at h
    obtain ⟨hc, hcs⟩ := h
    have hnext : Lexing.comment.next c = (.comment, []) := by simp [Lexing.next, Ne.symm hc]
    show (Lexing.comment.next c).2 ++ (Lexing.comment.next c).1.strip (cs ++ '\n' :: rest) = _
    rw [hnext]
    exact ih hcs

/-- A line that begins with two slashes leaves nothing but its end. -/
theorem strip_line {line : String} (h : '\n' ∉ line.toList) (rest : List Char) :
    Lexing.code.strip (("//" ++ line ++ "\n").toList ++ rest) =
      '\n' :: Lexing.code.strip rest := by
  have hopen : "//".toList = ['/', '/'] := by decide
  have hclose : "\n".toList = ['\n'] := by decide
  rw [String.toList_append, String.toList_append, hopen, hclose, List.append_assoc,
    List.append_assoc]
  exact strip_comment h rest

theorem newline_not_mem_int (i : Int) : '\n' ∉ (toString i).toList := fun h =>
  (isNumeral_int i).ne h (by decide) rfl

/-- The head of a pass is two lines. -/
theorem headerText_eq (scene : String) (frame : Int32) : headerText scene frame =
    ("//" ++ " vrscene_export 0.1.0" ++ "\n") ++
      ("//" ++ (" Scene: " ++ scene ++ " Frame: " ++ toString frame.toInt) ++ "\n") := by
  have hfirst : "// vrscene_export 0.1.0\n// Scene: " =
      "//" ++ " vrscene_export 0.1.0" ++ "\n" ++ "//" ++ " Scene: " := by decide
  unfold headerText
  rw [hfirst]
  simp only [String.append_assoc]

/-- The head of a pass leaves the ends of its lines if the scene's name is on one line. -/
theorem strip_headerText {scene : String} (h : '\n' ∉ scene.toList) (frame : Int32)
    (rest : List Char) : Lexing.code.strip ((headerText scene frame).toList ++ rest) =
      '\n' :: '\n' :: Lexing.code.strip rest := by
  have hsecond :
      '\n' ∉ (" Scene: " ++ scene ++ " Frame: " ++ toString frame.toInt).toList := by
    simp only [String.toList_append, List.mem_append, not_or]
    exact ⟨⟨⟨by decide, h⟩, by decide⟩, newline_not_mem_int _⟩
  rw [headerText_eq, String.toList_append, List.append_assoc, strip_line (by decide),
    strip_line hsecond]

/-- A file that is the head of a pass and something behind it is read as what is behind, if the
scene's name is on one line. -/
theorem readText_headed {scene : String} (h : '\n' ∉ scene.toList) (frame : Int32)
    (body : String) : readText (headerText scene frame ++ body) = readText body := by
  unfold readText
  rw [String.toList_append, strip_headerText h]
  rfl

end ShadeNet
