/-
# Free and fit instance names

A record of a node or an object gets the first name derived from its own that is
not taken. Every instance name is a letter with word characters behind it, and its
first two characters tell what has it: the names of nodes and objects, of meshes
and of the default material never meet, whatever the names of the scene are.

Key definitions: `candidateName`, `isInstanceName`, `tagOf`, `ownTags`, `meshTag`.
Key theorems: `freeName_eq_candidate`, `freeName_not_mem`, `isInstanceName_freeName`,
`OwnBase.tagOf_freeName`, `meshName_fit`.
-/
import ShadeNet.Proofs.Contract
import ShadeNet.Proofs.Reading

namespace ShadeNet

/-! ### Free names -/

theorem numberedName_injective {base : String} {i j : Nat}
    (h : numberedName base i = numberedName base j) : i = j := by
  have hdigits := congrArg String.toList ((String.append_right_inj _).mp h)
  rw [Nat.toString_eq_repr, Nat.toString_eq_repr, Nat.toList_repr, Nat.toList_repr] at hdigits
  exact toDigits_inj hdigits

/-- The names that are tried for `base`, in order: the name itself, then the numbered ones. -/
def candidateName (base : String) : Nat → String
  | 0 => base
  | index + 1 => numberedName base (index + 1)

theorem candidateName_injective {base : String} {i j : Nat}
    (h : candidateName base i = candidateName base j) : i = j := by
  have hlonger : ∀ k, base ≠ numberedName base k := fun k he => by
    have hlength := congrArg String.length he
    simp only [numberedName, String.length_append] at hlength
    have hmark : "_".length = 1 := rfl
    omega
  match i, j with
  | 0, 0 => rfl
  | 0, j + 1 => exact absurd h (hlonger _)
  | i + 1, 0 => exact absurd h.symm (hlonger _)
  | i + 1, j + 1 => exact numberedName_injective h

/-- Different names are tried, so no more of them are taken than names are. -/
theorem le_length_of_candidates {taken : List String} {base : String} {k : Nat}
    (h : ∀ j < k, candidateName base j ∈ taken) : k ≤ taken.length := by
  have hnodup : ((List.range k).map (candidateName base)).Nodup :=
    List.pairwise_map.mpr
      (List.nodup_range.imp fun hne he => hne (candidateName_injective he))
  have hsub : (List.range k).map (candidateName base) ⊆ taken := by
    intro name hname
    obtain ⟨j, hj, rfl⟩ := List.mem_map.mp hname
    exact h j (List.mem_range.mp hj)
  have hlength := hnodup.length_le_of_subset hsub
  simpa using hlength

/-- The search passes over names that are taken. It ends at a name that is free, or at the last
one it may try. -/
theorem firstFreeName_eq (taken : List String) (base : String) : ∀ more index : Nat,
    ∃ k ≤ more, firstFreeName taken base more index = numberedName base (index + k) ∧
      (∀ j < k, numberedName base (index + j) ∈ taken) ∧
      (k < more → numberedName base (index + k) ∉ taken)
  | 0, index => ⟨0, Nat.le_refl 0, rfl, nofun, nofun⟩
  | more + 1, index => by
    unfold firstFreeName
    by_cases htaken : numberedName base index ∈ taken
    · obtain ⟨k, hk, hname, hbefore, hfree⟩ := firstFreeName_eq taken base more (index + 1)
      have hshift : ∀ j, index + (j + 1) = index + 1 + j := fun j => by omega
      refine ⟨k + 1, by omega, ?_, fun j hj => ?_, fun hlt => ?_⟩
      · rw [if_pos htaken, hname, hshift k]
      · cases j with
        | zero => exact htaken
        | succ j =>
          rw [hshift j]
          exact hbefore j (by omega)
      · rw [hshift k]
        exact hfree (by omega)
    · exact ⟨0, Nat.zero_le _, if_neg htaken, nofun, fun _ => htaken⟩

/-- A name that is claimed is the first candidate that is free. -/
theorem freeName_eq_candidate (taken : List String) (base : String) :
    ∃ k, freeName taken base = candidateName base k ∧ candidateName base k ∉ taken ∧
      ∀ j < k, candidateName base j ∈ taken := by
  unfold freeName
  by_cases hbase : base ∈ taken
  · obtain ⟨k, hk, hname, hbefore, hfree⟩ := firstFreeName_eq taken base taken.length 1
    have hnumbered : ∀ j, numberedName base (1 + j) = candidateName base (j + 1) := fun j => by
      rw [Nat.add_comm]
      rfl
    have htaken : ∀ j < k + 1, candidateName base j ∈ taken := fun j hj => by
      cases j with
      | zero => exact hbase
      | succ j =>
        rw [← hnumbered]
        exact hbefore j (by omega)
    -- the search has not run out: with the last name it may try, more names would be taken
    have hlt : k < taken.length := by
      have := le_length_of_candidates htaken
      omega
    rw [hnumbered] at hname hfree
    exact ⟨k + 1, by rw [if_pos hbase, hname], hfree hlt, htaken⟩
  · exact ⟨0, if_neg hbase, hbase, nofun⟩

/-- A name that is claimed was free. -/
theorem freeName_not_mem (taken : List String) (base : String) : freeName taken base ∉ taken := by
  obtain ⟨k, hname, hfree, -⟩ := freeName_eq_candidate taken base
  rwa [hname]

/-- A claimed name begins with the name that was asked for. -/
theorem freeName_eq (taken : List String) (base : String) :
    freeName taken base = base ∨ ∃ k, freeName taken base = numberedName base k := by
  obtain ⟨k, hname, -, -⟩ := freeName_eq_candidate taken base
  cases k with
  | zero => exact Or.inl hname
  | succ k => exact Or.inr ⟨_, hname⟩

/-! ### Fit names -/

/-- Whether a name is a letter with letters, digits and underscores behind it. -/
def isInstanceName (name : String) : Bool :=
  match name.toList with
  | [] => false
  | c :: rest => c.isAlpha && rest.all isWordChar

/-- The first two characters of a name, which tell what has it. -/
def tagOf (name : String) : List Char := name.toList.take 2

/-- A fit name with word characters behind it is fit. -/
theorem isInstanceName_append {base rest : String} (h : isInstanceName base = true)
    (hr : rest.toList.all isWordChar = true) : isInstanceName (base ++ rest) = true := by
  unfold isInstanceName at *
  rw [String.toList_append]
  rcases hb : base.toList with _ | ⟨c, cs⟩
  · simp [hb] at h
  · rw [hb] at h
    simp only [Bool.and_eq_true] at h
    simp only [List.cons_append, List.all_append, Bool.and_eq_true]
    exact ⟨h.1, h.2, hr⟩

theorem isInstanceName_numberedName {base : String} (h : isInstanceName base = true) (k : Nat) :
    isInstanceName (numberedName base k) = true := by
  have hdigits : (toString k).toList.all isWordChar = true := by
    rw [List.all_eq_true]
    intro c hc
    rw [Nat.toString_eq_repr, Nat.toList_repr] at hc
    exact isWordChar_of_isDigit (Nat.isDigit_of_mem_toDigits (by omega) (by omega) hc)
  unfold numberedName
  rw [String.append_assoc]
  refine isInstanceName_append h ?_
  rw [String.toList_append, List.all_append, hdigits]
  decide

theorem isInstanceName_freeName {base : String} (h : isInstanceName base = true)
    (taken : List String) : isInstanceName (freeName taken base) = true := by
  rcases freeName_eq taken base with he | ⟨k, he⟩
  · rwa [he]
  · rw [he]
    exact isInstanceName_numberedName h k

/-- A sanitized text behind a tag of two letters is a fit name with that tag. -/
theorem sanitize_tagged {tag : String} {a b : Char} (ht : tag.toList = [a, b])
    (ha : a.isAlpha = true) (hb : isWordChar b = true) (rest : String) :
    isInstanceName (sanitize (tag ++ rest)) = true ∧ tagOf (sanitize (tag ++ rest)) = [a, b] := by
  have hwa : isWordChar a = true := by simp [isWordChar, Char.isAlphanum, ha]
  have hl : (sanitize (tag ++ rest)).toList = a :: b :: rest.toList.map sanitizeChar := by
    simp [sanitize, ht, sanitizeChar_of_isWordChar hwa, sanitizeChar_of_isWordChar hb]
  refine ⟨?_, ?_⟩
  · unfold isInstanceName
    rw [hl]
    simp only [Bool.and_eq_true, List.all_eq_true, List.all_cons, ha, hb, true_and]
    intro c hc
    obtain ⟨d, -, rfl⟩ := List.mem_map.mp hc
    exact isWordChar_sanitizeChar d
  · unfold tagOf
    rw [hl]
    rfl

/-- The tags of nodes and of objects. -/
def ownTags : List (List Char) := [['N', 'T'], ['O', 'B']]

/-- The tag of meshes. -/
def meshTag : List Char := ['M', 'E']

theorem OwnBase.fit {base : String} (h : OwnBase base) :
    isInstanceName base = true ∧ tagOf base ∈ ownTags := by
  obtain ⟨tag, rest, rfl | rfl, rfl⟩ := h
  · have := sanitize_tagged (show "NT".toList = ['N', 'T'] by decide) (by decide) (by decide) rest
    exact ⟨this.1, by rw [this.2]; decide⟩
  · have := sanitize_tagged (show "OB".toList = ['O', 'B'] by decide) (by decide) (by decide) rest
    exact ⟨this.1, by rw [this.2]; decide⟩

theorem meshName_fit (mesh : String) :
    isInstanceName (meshName mesh) = true ∧ tagOf (meshName mesh) = meshTag :=
  sanitize_tagged (by decide) (by decide) (by decide) mesh

theorem tagOf_append {base : String} (h : (tagOf base).length = 2) (rest : String) :
    tagOf (base ++ rest) = tagOf base := by
  unfold tagOf at *
  rw [List.length_take] at h
  rw [String.toList_append, List.take_append_of_le_length (by omega)]

theorem OwnBase.tagOf_freeName {base : String} (h : OwnBase base) (taken : List String) :
    tagOf (freeName taken base) ∈ ownTags := by
  have htag := h.fit.2
  have hlen : (tagOf base).length = 2 := by
    simp only [ownTags, List.mem_cons, List.not_mem_nil, or_false] at htag
    rcases htag with he | he <;> rw [he] <;> rfl
  rcases freeName_eq taken base with he | ⟨k, he⟩
  · rwa [he]
  · rwa [he, numberedName, String.append_assoc, tagOf_append hlen]

end ShadeNet
