/-
# References in values

The names of other records in the spelled value of an attribute. Constructors,
numbers, quoted strings and the selectors behind a name are not references.

Key definitions: `afterQuote`, `references`, `Record.references`.
-/
import ShadeNet.Network.Record
import ShadeNet.Text.Name

namespace ShadeNet

/-- What follows the quote that closes a string; a backslash hides the character
behind it. -/
def afterQuote : List Char → List Char
  | [] => []
  | '"' :: rest => rest
  | ['\\'] => []
  | '\\' :: _ :: rest => afterQuote rest
  | _ :: rest => afterQuote rest

theorem length_afterQuote_le (cs : List Char) : (afterQuote cs).length ≤ cs.length := by
  fun_induction afterQuote cs <;> simp_all <;> omega

/-- What follows a name: the text behind its selector, if it has one. -/
def afterSelector : List Char → List Char
  | ':' :: ':' :: rest => rest.dropWhile isWordChar
  | '@' :: rest => rest.dropWhile isWordChar
  | cs => cs

theorem length_afterSelector_le (cs : List Char) : (afterSelector cs).length ≤ cs.length := by
  fun_cases afterSelector cs
  · rename_i rest
    have := (List.dropWhile_sublist isWordChar (l := rest)).length_le
    simp
    omega
  · rename_i rest
    have := (List.dropWhile_sublist isWordChar (l := rest)).length_le
    simp
    omega
  · simp

theorem length_dropWhile_le (p : Char → Bool) (cs : List Char) :
    (cs.dropWhile p).length ≤ cs.length :=
  (List.dropWhile_sublist p).length_le

/-- The names in a value, from left to right: words that start with no digit,
stand outside quotes and are not called. -/
def references : List Char → List (List Char)
  | [] => []
  | c :: rest =>
    if c = '"' then references (afterQuote rest)
    else if c.isDigit then references (rest.dropWhile isWordChar)
    else if isWordChar c then
      if (rest.dropWhile isWordChar).head? = some '(' then references (rest.dropWhile isWordChar)
      else (c :: rest.takeWhile isWordChar) ::
        references (afterSelector (rest.dropWhile isWordChar))
    else references rest
termination_by cs => cs.length
decreasing_by
  · exact Nat.lt_succ_of_le (length_afterQuote_le rest)
  · exact Nat.lt_succ_of_le (length_dropWhile_le isWordChar rest)
  · exact Nat.lt_succ_of_le (length_dropWhile_le isWordChar rest)
  · exact Nat.lt_succ_of_le (Nat.le_trans (length_afterSelector_le _)
      (length_dropWhile_le isWordChar rest))
  · exact Nat.lt_succ_self rest.length

/-- The names of the records that a record refers to, in the order of writing. -/
def Record.references (r : Record) : List String :=
  r.attrs.flatMap fun a => (ShadeNet.references a.2.toList).map String.ofList

end ShadeNet
