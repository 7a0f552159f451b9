/-
# The directory of a path

A path names its directory by its text alone. It consists of the slash of the root, of a dot in
front, and of the names that lead on; what else it has between its slashes leads nowhere. The
directory is the shortest beginning of the path with all its components but the last one. So the
directory of a single name is the empty path, and a path of no component but the root has none.

Key definitions: `stops`, `components`, `IsDirectoryOf`, `IsSceneDirectory`.
Key theorems: `length_components_le`, `eq_of_components`, `parentPath?_spec`,
`isSceneDirectory_iff`.
-/
import Mathlib.Data.List.Induction
import Mathlib.Data.List.TakeWhile
import ShadeNet.Command.Run

namespace ShadeNet

/-! ### Stops -/

/-- Whether a name leads on. An empty one and a dot do not. -/
def isStop (name : List Char) : Bool := name != [] && name != ['.']

/-- The names of a path that lead on. -/
def stops (cs : List Char) : List (List Char) := (pathNames cs).filter isStop

theorem pathNames_cons {c : Char} (hc : c ≠ '/') {rest name : List Char} {names : List (List Char)}
    (h : pathNames rest = name :: names) : pathNames (c :: rest) = (c :: name) :: names := by
  rw [pathNames.eq_3 c rest (by simpa using hc), h]

theorem pathNames_eq_cons (cs : List Char) : ∃ name names, pathNames cs = name :: names := by
  induction cs with
  | nil => exact ⟨[], [], rfl⟩
  | cons c rest ih =>
    obtain ⟨name, names, hrest⟩ := ih
    by_cases hc : c = '/'
    · subst hc
      exact ⟨[], name :: names, by rw [pathNames, hrest]⟩
    · exact ⟨c :: name, names, pathNames_cons hc hrest⟩

/-- A slash parts the names before it from the names behind it. -/
theorem pathNames_append (before after : List Char) :
    pathNames (before ++ '/' :: after) = pathNames before ++ pathNames after := by
  induction before with
  | nil => rfl
  | cons c rest ih =>
    by_cases hc : c = '/'
    · subst hc
      rw [List.cons_append, pathNames, ih, pathNames, List.cons_append]
    · obtain ⟨name, names, hrest⟩ := pathNames_eq_cons rest
      rw [hrest, List.cons_append] at ih
      rw [List.cons_append, pathNames_cons hc ih, pathNames_cons hc hrest, List.cons_append]

theorem pathNames_of_forall_ne {cs : List Char} (h : ∀ c ∈ cs, c ≠ '/') : pathNames cs = [cs] := by
  induction cs with
  | nil => rfl
  | cons c rest ih =>
    obtain ⟨hc, hrest⟩ := List.forall_mem_cons.mp h
    exact pathNames_cons hc (ih hrest)

theorem stops_append (before after : List Char) :
    stops (before ++ '/' :: after) = stops before ++ stops after := by
  unfold stops
  rw [pathNames_append, List.filter_append]

theorem stops_nil : stops [] = [] := rfl

theorem stops_cons (cs : List Char) : stops ('/' :: cs) = stops cs := stops_append [] cs

theorem stops_of_forall_ne {cs : List Char} (h : ∀ c ∈ cs, c ≠ '/') :
    stops cs = if isStop cs = true then [cs] else [] := by
  unfold stops
  rw [pathNames_of_forall_ne h, List.filter_cons, List.filter_nil]

/-- Slashes at the end lead nowhere. -/
theorem stops_append_slashes (cs : List Char) {slashes : List Char} (h : ∀ c ∈ slashes, c = '/') :
    stops (cs ++ slashes) = stops cs := by
  induction slashes generalizing cs with
  | nil => rw [List.append_nil]
  | cons c slashes ih =>
    obtain ⟨rfl, hrest⟩ := List.forall_mem_cons.mp h
    have hnone : stops slashes = [] := ih [] hrest
    rw [stops_append, hnone, List.append_nil]

theorem pathNames_split {cs name : List Char} {names : List (List Char)}
    (h : pathNames cs = name :: names) : cs = name ∨ ∃ rest, cs = name ++ '/' :: rest := by
  induction cs generalizing name names with
  | nil =>
    cases h
    exact Or.inl rfl
  | cons c rest ih =>
    by_cases hc : c = '/'
    · subst hc
      cases h
      exact Or.inr ⟨rest, rfl⟩
    · obtain ⟨name', names', hrest⟩ := pathNames_eq_cons rest
      rw [pathNames_cons hc hrest] at h
      cases h
      rcases ih hrest with hname | ⟨more, hname⟩
      · exact Or.inl (congrArg (c :: ·) hname)
      · exact Or.inr ⟨more, congrArg (c :: ·) hname⟩

/-! ### Components -/

/-- The components of a path: the slash of the root or a dot that is the first name, and the names
that lead on. -/
def components (cs : List Char) : List (List Char) :=
  (if cs.head? = some '/' then [['/']]
    else if (pathNames cs).head? = some ['.'] then [['.']] else []) ++ stops cs

theorem components_slash (cs : List Char) : components ('/' :: cs) = ['/'] :: stops cs := by
  unfold components
  rw [List.head?_cons, if_pos rfl, stops_cons, List.singleton_append]

theorem components_of_pathNames {cs first : List Char} {names : List (List Char)}
    (hhead : cs.head? ≠ some '/') (h : pathNames cs = first :: names) :
    components cs = (if first = [] then [] else [first]) ++ names.filter isStop := by
  unfold components stops
  rw [if_neg hhead, h, List.head?_cons]
  by_cases hempty : first = []
  · subst hempty
    rfl
  · by_cases hdot : first = ['.']
    · subst hdot
      rfl
    · have hstop : isStop first = true := by simp [isStop, hempty, hdot]
      rw [if_neg (by simpa using hdot), if_neg hempty, List.filter_cons_of_pos hstop]
      rfl

/-- Behind a slash all names that lead on are components. -/
theorem components_append (before after : List Char) :
    components (before ++ '/' :: after) = components (before ++ ['/']) ++ stops after := by
  have hstops : ∀ rest, stops (before ++ '/' :: rest) = stops before ++ stops rest :=
    stops_append before
  obtain ⟨name, names, hnames⟩ := pathNames_eq_cons before
  unfold components
  rw [hstops, hstops, pathNames_append, pathNames_append, hnames, stops_nil, List.append_nil,
    List.append_assoc]
  cases before <;> rfl

theorem components_append_slash {cs : List Char} (h : cs ≠ []) :
    components (cs ++ ['/']) = components cs := by
  obtain ⟨name, names, hnames⟩ := pathNames_eq_cons cs
  unfold components
  rw [stops_append, pathNames_append, hnames, stops_nil, List.append_nil]
  cases cs with
  | nil => exact absurd rfl h
  | cons c cs => rfl

/-- A name at the end of a path is a component, if it leads on or comes first. -/
theorem components_concat {before name : List Char} (hname : ∀ c ∈ name, c ≠ '/')
    (hbefore : before = [] ∨ ∃ rest, before = rest ++ ['/']) :
    components (before ++ name) =
      components before ++ if name = [] ∨ before ≠ [] ∧ name = ['.'] then [] else [name] := by
  rcases hbefore with rfl | ⟨rest, rfl⟩
  · have hhead : name.head? ≠ some '/' := fun h => hname _ (List.mem_of_mem_head? h) rfl
    rw [List.nil_append, components_of_pathNames hhead (pathNames_of_forall_ne hname)]
    simp [show components [] = [] from rfl]
  · rw [List.append_assoc, List.singleton_append, components_append, stops_of_forall_ne hname]
    congr 1
    by_cases hempty : name = [] <;> by_cases hdot : name = ['.'] <;> simp [isStop, hempty, hdot]

/-- The names of a beginning of a path: the last one may go on, and the others are those of the
path. -/
theorem pathNames_of_prefix {cs ds : List Char} (h : cs <+: ds) :
    ∃ first names first' names', pathNames cs = first :: names ∧ pathNames ds = first' :: names' ∧
      first <+: first' ∧ (names.filter isStop).length ≤ (names'.filter isStop).length := by
  induction cs generalizing ds with
  | nil =>
    obtain ⟨first', names', hnames'⟩ := pathNames_eq_cons ds
    exact ⟨[], [], first', names', rfl, hnames', List.nil_prefix, Nat.zero_le _⟩
  | cons c cs ih =>
    obtain ⟨ds, rfl⟩ : ∃ rest, ds = c :: rest := by
      obtain ⟨more, rfl⟩ := h
      exact ⟨cs ++ more, rfl⟩
    obtain ⟨first, names, first', names', hnames, hnames', hfirst, hle⟩ :=
      ih (List.prefix_cons_inj c |>.mp h)
    by_cases hc : c = '/'
    · subst hc
      refine ⟨[], _, [], _, rfl, rfl, List.nil_prefix, ?_⟩
      -- a name that leads on still does when it goes on
      have hstop : isStop first = true → isStop first' = true := by
        intro hstop
        obtain ⟨hempty, hdot⟩ : first ≠ [] ∧ first ≠ ['.'] := by simpa [isStop] using hstop
        have hempty' : first' ≠ [] := fun hnil => hempty (List.prefix_nil.mp (hnil ▸ hfirst))
        have hdot' : first' ≠ ['.'] := by
          rintro rfl
          rcases List.prefix_cons_iff.mp hfirst with hnil | ⟨rest, hrest, hnil⟩
          · exact hempty hnil
          · exact hdot (by rw [hrest, List.prefix_nil.mp hnil])
        simp [isStop, hempty', hdot']
      rw [hnames, hnames', List.filter_cons, List.filter_cons]
      split
      · rename_i hstop'
        rw [if_pos (hstop hstop')]
        exact Nat.succ_le_succ hle
      · split
        · exact Nat.le_succ_of_le hle
        · exact hle
    · exact ⟨_, _, _, _, pathNames_cons hc hnames, pathNames_cons hc hnames',
        List.prefix_cons_inj c |>.mpr hfirst, hle⟩

/-- A beginning of a path has no more components than the path. -/
theorem length_components_le {cs ds : List Char} (h : cs <+: ds) :
    (components cs).length ≤ (components ds).length := by
  cases cs with
  | nil => exact Nat.zero_le _
  | cons c cs =>
    obtain ⟨ds, rfl⟩ : ∃ rest, ds = c :: rest := by
      obtain ⟨more, rfl⟩ := h
      exact ⟨cs ++ more, rfl⟩
    by_cases hc : c = '/'
    · subst hc
      obtain ⟨first, names, first', names', hnames, hnames', -, hle⟩ := pathNames_of_prefix h
      cases hnames
      cases hnames'
      rw [components_slash, components_slash]
      exact Nat.succ_le_succ hle
    · obtain ⟨first, names, first', names', hnames, hnames', hfirst, hle⟩ := pathNames_of_prefix h
      have hhead : ∀ rest : List Char, (c :: rest).head? ≠ some '/' := by simp [hc]
      rw [components_of_pathNames (hhead cs) hnames, components_of_pathNames (hhead ds) hnames',
        List.length_append, List.length_append]
      refine Nat.add_le_add ?_ hle
      by_cases hempty : first = []
      · rw [if_pos hempty]
        exact Nat.zero_le _
      · have hempty' : first' ≠ [] := by
          rintro rfl
          exact hempty (List.prefix_nil.mp hfirst)
        rw [if_neg hempty, if_neg hempty']
        exact Nat.le_refl 1

theorem split_at_last_slash (cs : List Char) : ∃ before name, cs = before ++ name ∧
    (∀ c ∈ name, c ≠ '/') ∧ (before = [] ∨ ∃ rest, before = rest ++ ['/']) := by
  induction cs using List.reverseRecOn with
  | nil => exact ⟨[], [], rfl, nofun, Or.inl rfl⟩
  | append_singleton cs c ih =>
    by_cases hc : c = '/'
    · subst hc
      exact ⟨cs ++ ['/'], [], (List.append_nil _).symm, nofun, Or.inr ⟨cs, rfl⟩⟩
    · obtain ⟨before, name, rfl, hname, hbefore⟩ := ih
      refine ⟨before, name ++ [c], List.append_assoc _ _ _, fun x hx => ?_, hbefore⟩
      rcases List.mem_append.mp hx with hx | hx
      · exact hname x hx
      · exact List.mem_singleton.mp hx ▸ hc

/-- A path that ends in a component, with no slash and no dot behind it, has more components than
what it begins with. -/
theorem eq_of_components {cs : List Char} (hslash : ∀ rest, cs.reverse = '/' :: rest → rest = [])
    (hdot : ∀ rest, cs.reverse ≠ '.' :: '/' :: rest) {other : List Char} (h : other <+: cs)
    (hsame : components other = components cs) : other = cs := by
  obtain ⟨before, name, rfl, hname, hbefore⟩ := split_at_last_slash cs
  obtain ⟨more, hmore⟩ := h
  have hcs := components_concat hname hbefore
  by_cases hempty : name = []
  · subst hempty
    rw [List.append_nil] at hslash hsame hmore ⊢
    rcases hbefore with rfl | ⟨rest, rfl⟩
    · exact (List.append_eq_nil_iff.mp hmore).1
    · have hrest : rest = [] := by simpa using hslash rest.reverse (by simp)
      subst hrest
      cases other with
      | nil => cases hsame
      | cons c other =>
        obtain ⟨rfl, hnil⟩ := List.cons_eq_cons.mp hmore
        rw [(List.append_eq_nil_iff.mp hnil).1]
        rfl
  · have hlast : ¬ (name = [] ∨ before ≠ [] ∧ name = ['.']) := by
      rintro (hnil | ⟨hne, rfl⟩)
      · exact hempty hnil
      · obtain ⟨rest, rfl⟩ := hbefore.resolve_left hne
        exact hdot rest.reverse (by simp)
    rw [if_neg hlast] at hcs
    rcases List.append_eq_append_iff.mp hmore with ⟨gap, rfl, -⟩ | ⟨name', rfl, hsplit⟩
    · have hle := length_components_le (List.prefix_append other gap)
      rw [hsame, hcs, List.length_append, List.length_singleton] at hle
      omega
    · have hname' : ∀ c ∈ name', c ≠ '/' := fun c hc => by
        rw [hsplit] at hname
        exact hname c (List.mem_append_left more hc)
      rw [components_concat hname' hbefore, hcs] at hsame
      have htail := List.append_cancel_left hsame
      split at htail
      · cases htail
      · rw [(List.cons_eq_cons.mp htail).1]

/-! ### The end of a path -/

theorem trimTail_suffix (cs : List Char) : trimTail cs <:+ cs := by
  induction cs using trimTail.induct with
  | case1 rest ih => exact ih.trans (List.suffix_cons _ _)
  | case2 => exact List.nil_suffix
  | case3 rest ih => exact ih.trans ((List.suffix_cons _ _).trans (List.suffix_cons _ _))
  | case4 cs h₁ h₂ h₃ => exact ⟨[], trimTail.eq_4 cs h₁ h₂ h₃⟩

/-- Nothing that leads on is dropped at the end of a path. -/
theorem stops_trimTail (cs : List Char) : stops (trimTail cs).reverse = stops cs.reverse := by
  have hdot : stops ['.'] = [] := rfl
  induction cs using trimTail.induct with
  | case1 rest ih => rw [trimTail, ih, List.reverse_cons, stops_append, stops_nil, List.append_nil]
  | case2 => rfl
  | case3 rest ih =>
    rw [trimTail, ih, List.reverse_cons, List.reverse_cons, List.append_assoc, List.cons_append,
      List.nil_append, stops_append, hdot, List.append_nil]
  | case4 cs h₁ h₂ h₃ => rw [trimTail.eq_4 cs h₁ h₂ h₃]

theorem trimTail_ends (cs : List Char) : (∀ rest, trimTail cs ≠ '/' :: rest) ∧
    trimTail cs ≠ ['.'] ∧ ∀ rest, trimTail cs ≠ '.' :: '/' :: rest := by
  induction cs using trimTail.induct with
  | case1 rest ih => exact ih
  | case2 => exact ⟨nofun, nofun, nofun⟩
  | case3 rest ih => exact ih
  | case4 cs h₁ h₂ h₃ =>
    rw [trimTail.eq_4 cs h₁ h₂ h₃]
    exact ⟨h₁, h₂, h₃⟩

theorem head_dropWhile_slash {cs : List Char} {c : Char} {rest : List Char}
    (h : cs.dropWhile (· ≠ '/') = c :: rest) : c = '/' := by
  have hne : cs.dropWhile (· ≠ '/') ≠ [] := by
    rw [h]
    exact List.cons_ne_nil c rest
  have hnot := List.head_dropWhile_not (· ≠ '/') hne
  simp only [h, List.head_cons] at hnot
  simpa using hnot

/-- What is left at the end of a path is a name that leads on, with the directory before it. -/
theorem stops_split {cs : List Char} (h : trimTail cs ≠ []) :
    ∃ name, isStop name = true ∧ (∀ c ∈ name, c ≠ '/') ∧ stops (trimTail cs).reverse =
      stops ((trimTail cs).dropWhile (· ≠ '/')).reverse ++ [name] := by
  obtain ⟨hslash, hdot, hdots⟩ := trimTail_ends cs
  generalize trimTail cs = named at *
  have hsplit : named.takeWhile (· ≠ '/') ++ named.dropWhile (· ≠ '/') = named :=
    List.takeWhile_append_dropWhile
  have hname : ∀ c ∈ named.takeWhile (· ≠ '/'), c ≠ '/' := fun c hc =>
    of_decide_eq_true (List.all_eq_true.mp List.all_takeWhile c hc)
  have hhead : ∀ c rest, named.dropWhile (· ≠ '/') = c :: rest → c = '/' := fun c rest =>
    head_dropWhile_slash
  generalize named.takeWhile (· ≠ '/') = name at *
  generalize named.dropWhile (· ≠ '/') = directory at *
  subst hsplit
  have hstop : isStop name.reverse = true := by
    have hempty : name ≠ [] := by
      rintro rfl
      rcases directory with _ | ⟨c, rest⟩
      · exact h rfl
      · exact hslash rest (by rw [hhead c rest rfl]; rfl)
    have hsingle : name ≠ ['.'] := by
      rintro rfl
      rcases directory with _ | ⟨c, rest⟩
      · exact hdot rfl
      · exact hdots rest (by rw [hhead c rest rfl]; rfl)
    have hsingle' : name.reverse ≠ ['.'] := fun heq => hsingle (List.reverse_eq_iff.mp heq)
    simp [isStop, hempty, hsingle']
  have hlast : stops name.reverse = [name.reverse] := by
    rw [stops_of_forall_ne fun c hc => hname c (List.mem_reverse.mp hc), if_pos hstop]
  refine ⟨name.reverse, hstop, fun c hc => hname c (List.mem_reverse.mp hc), ?_⟩
  rcases directory with _ | ⟨c, rest⟩
  · rw [List.append_nil, hlast]
    rfl
  · cases hhead c rest rfl
    rw [List.reverse_append, List.reverse_cons, List.append_assoc, List.cons_append,
      List.nil_append, stops_append, stops_append, stops_nil, List.append_nil, hlast]

theorem trimTail_cut (cs : List Char) : trimTail cs = [] ∨ trimTail cs = cs ∨
    ∃ dropped, cs = dropped ++ '/' :: trimTail cs := by
  have hmore : ∀ rest front : List Char, (trimTail rest = [] ∨ trimTail rest = rest ∨
      ∃ dropped, rest = dropped ++ '/' :: trimTail rest) → trimTail rest = [] ∨
      ∃ dropped, front ++ '/' :: rest = dropped ++ '/' :: trimTail rest := by
    rintro rest front (hnil | hsame | ⟨dropped, hdropped⟩)
    · exact Or.inl hnil
    · exact Or.inr ⟨front, by rw [hsame]⟩
    · exact Or.inr ⟨front ++ '/' :: dropped, by
        rw [List.append_assoc, List.cons_append, ← hdropped]⟩
  induction cs using trimTail.induct with
  | case1 rest ih => exact (hmore rest [] ih).imp id Or.inr
  | case2 => exact Or.inl rfl
  | case3 rest ih => exact (hmore rest ['.'] ih).imp id Or.inr
  | case4 cs h₁ h₂ h₃ => exact Or.inr (Or.inl (trimTail.eq_4 cs h₁ h₂ h₃))

/-- A beginning of a text that ends before a slash, at the start or at the end. -/
def IsCut (front rest : List Char) : Prop :=
  front = rest ∨ front = [] ∨ ∃ more, rest = front ++ '/' :: more

theorem IsCut.isPrefix {front rest : List Char} (h : IsCut front rest) : front <+: rest := by
  rcases h with rfl | rfl | ⟨more, rfl⟩
  · exact List.prefix_rfl
  · exact List.nil_prefix
  · exact List.prefix_append front _

theorem isCut_trimTail {named rest : List Char} (h : named <:+ rest.reverse) :
    IsCut (trimTail (named.dropWhile (· ≠ '/'))).reverse rest := by
  obtain ⟨front, hfront⟩ := (List.dropWhile_suffix (· ≠ '/')).trans h
  have hrest : rest = (named.dropWhile (· ≠ '/')).reverse ++ front.reverse := by
    rw [← List.reverse_append, hfront, List.reverse_reverse]
  rcases trimTail_cut (named.dropWhile (· ≠ '/')) with hnil | hsame | ⟨dropped, hdropped⟩
  · exact Or.inr (Or.inl (by rw [hnil]; rfl))
  · cases hdrop : named.dropWhile (· ≠ '/') with
    | nil => exact Or.inr (Or.inl rfl)
    | cons c tail =>
      rw [hdrop, head_dropWhile_slash hdrop] at hsame
      exact absurd hsame ((trimTail_ends _).1 tail)
  · refine Or.inr (Or.inr ⟨(front ++ dropped).reverse, ?_⟩)
    rw [hdropped] at hrest
    rw [hrest]
    simp

/-- Without a slash or a dot in front, the names that lead on are all components. -/
theorem IsCut.components_eq {front rest : List Char} (h : IsCut front rest)
    (hslash : ∀ tail, rest ≠ '/' :: tail) (hdot : rest ≠ ['.'])
    (hdots : ∀ tail, rest ≠ '.' :: '/' :: tail) : components front = stops front := by
  have hnone : front.head? ≠ some '/' := by
    intro hhead
    obtain ⟨tail, rfl⟩ := List.head?_eq_some_iff.mp hhead
    obtain ⟨gap, rfl⟩ := h.isPrefix
    exact hslash _ rfl
  have hfirst : (pathNames front).head? ≠ some ['.'] := by
    intro hhead
    obtain ⟨names, hnames⟩ := List.head?_eq_some_iff.mp hhead
    rcases pathNames_split hnames with rfl | ⟨after, rfl⟩
    · rcases h with rfl | hnil | ⟨more, rfl⟩
      · exact hdot rfl
      · cases hnil
      · exact hdots _ rfl
    · obtain ⟨gap, rfl⟩ := h.isPrefix
      exact hdots _ rfl
  unfold components
  rw [if_neg hnone, if_neg hfirst]
  rfl

/-- A path is its anchor and the rest. The anchor is a component, and the others are the names that
lead on in the rest. -/
theorem splitAnchor_spec {cs anchor rest : List Char} (h : splitAnchor cs = (anchor, rest)) :
    cs = anchor ++ rest ∧ ∀ front, IsCut front rest →
      components (anchor ++ front) = (if anchor = [] then [] else [anchor]) ++ stops front := by
  unfold splitAnchor at h
  split at h <;> cases h
  · exact ⟨rfl, fun front _ => components_slash front⟩
  · refine ⟨rfl, fun front hfront => ?_⟩
    obtain rfl : front = [] := List.prefix_nil.mp hfront.isPrefix
    rfl
  · rename_i rest
    refine ⟨rfl, fun front hfront => ?_⟩
    cases front with
    | nil => rfl
    | cons c front =>
      obtain ⟨rfl, -⟩ := List.cons_prefix_cons.mp hfront.isPrefix
      have hdot : components (['.'] ++ ['/']) = [['.']] := rfl
      rw [components_append, hdot, stops_cons]
      rfl
  · rename_i hslash hdot hdots
    exact ⟨rfl, fun front hfront => hfront.components_eq hslash hdot hdots⟩

/-- The anchor is the slash of the root or a dot, if there is one. -/
theorem splitAnchor_cases {cs anchor rest : List Char} (h : splitAnchor cs = (anchor, rest)) :
    anchor = [] ∨ anchor = ['/'] ∨ anchor = ['.'] := by
  unfold splitAnchor at h
  split at h <;> cases h <;> simp

/-- Nothing is dropped from the end of an anchor and what is left behind it, but for the slash of
the root. -/
theorem ends_of_anchor {anchor : List Char}
    (hanchor : anchor = [] ∨ anchor = ['/'] ∨ anchor = ['.']) (cs : List Char) :
    (∀ rest, (anchor ++ (trimTail cs).reverse).reverse = '/' :: rest → rest = []) ∧
      ∀ rest, (anchor ++ (trimTail cs).reverse).reverse ≠ '.' :: '/' :: rest := by
  obtain ⟨hslash, hdot, hdots⟩ := trimTail_ends cs
  generalize trimTail cs = cut at *
  rw [List.reverse_append, List.reverse_reverse]
  constructor
  · intro rest hends
    cases cut with
    | nil =>
      rcases hanchor with rfl | rfl | rfl <;> simp at hends
      exact hends
    | cons c cut =>
      cases hends
      exact absurd rfl (hslash cut)
  · intro rest hends
    rcases cut with _ | ⟨c, _ | ⟨c', cut⟩⟩
    · rcases hanchor with rfl | rfl | rfl <;> simp at hends
    · obtain ⟨rfl, -⟩ := List.cons_eq_cons.mp hends
      exact hdot rfl
    · cases hends
      exact hdots cut rfl

/-! ### The directory of a path -/

/-- The directory of a path is the shortest beginning of it that has all its components but the
last one. -/
structure IsDirectoryOf (directory path : String) : Prop where
  /-- It is a beginning of the path. -/
  beginning : directory.toList <+: path.toList
  /-- The last component is left out. -/
  others : components directory.toList = (components path.toList).dropLast
  /-- No shorter beginning has as many. -/
  shortest : ∀ other, other <+: path.toList →
    components other = (components path.toList).dropLast →
      directory.toList.length ≤ other.length

theorem isDirectoryOf_of_concat {directory path : String} {name : List Char}
    (hbeginning : directory.toList <+: path.toList)
    (hcomponents : components path.toList = components directory.toList ++ [name])
    (hslash : ∀ rest, directory.toList.reverse = '/' :: rest → rest = [])
    (hdot : ∀ rest, directory.toList.reverse ≠ '.' :: '/' :: rest) :
    IsDirectoryOf directory path := by
  refine ⟨hbeginning, by rw [hcomponents, List.dropLast_concat], fun other hother hsame => ?_⟩
  rw [hcomponents, List.dropLast_concat] at hsame
  rcases List.prefix_or_prefix_of_prefix hother hbeginning with hle | hge
  · rw [eq_of_components hslash hdot hle hsame]
  · exact hge.length_le

theorem IsDirectoryOf.unique {path first second : String} (hfirst : IsDirectoryOf first path)
    (hsecond : IsDirectoryOf second path) : first = second := by
  have hle := hfirst.shortest _ hsecond.beginning hsecond.others
  have hge := hsecond.shortest _ hfirst.beginning hfirst.others
  exact String.toList_injective ((List.prefix_of_prefix_length_le hfirst.beginning
    hsecond.beginning hle).eq_of_length (Nat.le_antisymm hle hge))

/-- A directory that ends in a slash is the root. -/
theorem IsDirectoryOf.eq_root {directory path : String} (h : IsDirectoryOf directory path)
    {front : List Char} (hslash : directory.toList = front ++ ['/']) : front = [] := by
  by_contra hne
  have hbeginning : front <+: path.toList := by
    have hdirectory := h.beginning
    rw [hslash] at hdirectory
    exact (List.prefix_append front _).trans hdirectory
  have hsame := h.others
  rw [hslash, components_append_slash hne] at hsame
  have hle := h.shortest front hbeginning hsame
  rw [hslash, List.length_append, List.length_singleton] at hle
  omega

/-- A path whose only component is the root, or that has none. -/
def IsBare (path : String) : Prop :=
  components path.toList = [] ∨ components path.toList = [['/']]

theorem not_isBare_of_concat {path : String} {names : List (List Char)} {name : List Char}
    (hname : ∀ c ∈ name, c ≠ '/') (h : components path.toList = names ++ [name]) :
    ¬ IsBare path := by
  unfold IsBare
  rw [h]
  rintro (hnil | hroot)
  · exact List.concat_ne_nil _ _ hnil
  · obtain ⟨-, hslash⟩ | ⟨-, hnil⟩ := List.append_eq_singleton_iff.mp hroot
    · exact hname '/' ((List.cons_eq_cons.mp hslash).1 ▸ List.mem_singleton_self _) rfl
    · cases hnil

/-- A path whose end is a name is not bare, and what is left without the name is its directory. -/
theorem isDirectoryOf_of_named {path : String} {anchor rest named : List Char}
    (hsplit : splitAnchor path.toList = (anchor, rest)) (hnamed : trimTail rest.reverse = named)
    (hne : named ≠ []) : ¬ IsBare path ∧ IsDirectoryOf
      (String.ofList (anchor ++ (trimTail (named.dropWhile (· ≠ '/'))).reverse)) path := by
  obtain ⟨hpath, hfront⟩ := splitAnchor_spec hsplit
  obtain ⟨hslash, hdots⟩ := ends_of_anchor (splitAnchor_cases hsplit) (named.dropWhile (· ≠ '/'))
  have hcut := isCut_trimTail (hnamed ▸ trimTail_suffix rest.reverse)
  -- the components are those of what is left, and the name
  obtain ⟨name, -, hname, hlast⟩ := stops_split (hnamed ▸ hne)
  have hcomponents : components path.toList =
      components (anchor ++ (trimTail (named.dropWhile (· ≠ '/'))).reverse) ++ [name] := by
    rw [hfront _ hcut, stops_trimTail, List.append_assoc, ← hnamed, ← hlast, stops_trimTail,
      List.reverse_reverse, hpath]
    exact hfront rest (Or.inl rfl)
  refine ⟨not_isBare_of_concat hname hcomponents, @isDirectoryOf_of_concat _ _ name ?_ ?_ ?_ ?_⟩
  · rw [String.toList_ofList, hpath]
    exact (List.prefix_append_right_inj anchor).mpr hcut.isPrefix
  · rw [String.toList_ofList, hcomponents]
  · rw [String.toList_ofList]
    exact hslash
  · rw [String.toList_ofList]
    exact hdots

/-- A path without a name has no component but its anchor. -/
theorem components_of_anchor {path : String} {anchor rest : List Char}
    (hsplit : splitAnchor path.toList = (anchor, rest)) (hnil : trimTail rest.reverse = []) :
    components path.toList = if anchor = [] then [] else [anchor] := by
  obtain ⟨hpath, hfront⟩ := splitAnchor_spec hsplit
  have hstops := stops_trimTail rest.reverse
  rw [hnil, List.reverse_reverse] at hstops
  rw [hpath, hfront rest (Or.inl rfl), ← hstops]
  exact List.append_nil _

/-- A bare path has no directory, and that of any other path is found. -/
theorem parentPath?_spec (path : String) :
    match parentPath? path with
    | none => IsBare path
    | some directory => ¬ IsBare path ∧ IsDirectoryOf directory path := by
  rcases hsplit : splitAnchor path.toList with ⟨anchor, rest⟩
  unfold parentPath?
  simp only [hsplit]
  cases hnamed : trimTail rest.reverse with
  | nil =>
    have hcomponents := components_of_anchor hsplit hnamed
    rcases splitAnchor_cases hsplit with rfl | rfl | rfl
    · exact Or.inl hcomponents
    · exact Or.inr hcomponents
    · refine ⟨?_, List.nil_prefix, ?_, fun _ _ _ => Nat.zero_le _⟩
      · unfold IsBare
        rw [hcomponents]
        decide
      · rw [hcomponents]
        rfl
  | cons last before => exact isDirectoryOf_of_named hsplit hnamed (List.cons_ne_nil last before)

/-! ### The directory of a scene -/

/-- The directory of a scene is that of the path of its file, or a dot if that path is bare. -/
def IsSceneDirectory (directory scene : String) : Prop :=
  (IsBare scene → directory = ".") ∧ (¬ IsBare scene → IsDirectoryOf directory scene)

theorem isSceneDirectory_iff {arguments : Arguments} {directory : String} :
    IsSceneDirectory directory arguments.scene ↔ directory = arguments.sceneDirectory := by
  have hparent := parentPath?_spec arguments.scene
  unfold IsSceneDirectory Arguments.sceneDirectory
  cases hfound : parentPath? arguments.scene with
  | none =>
    rw [hfound] at hparent
    exact ⟨fun h => h.1 hparent, fun h => ⟨fun _ => h, fun hbare => absurd hparent hbare⟩⟩
  | some found =>
    rw [hfound] at hparent
    refine ⟨fun h => (h.2 hparent.1).unique hparent.2, ?_⟩
    rintro rfl
    exact ⟨fun hbare => absurd hbare hparent.1, fun _ => hparent.2⟩

theorem sceneDirectory_eq_root {arguments : Arguments} {front : List Char}
    (h : arguments.sceneDirectory.toList = front ++ ['/']) : arguments.sceneDirectory = "/" := by
  obtain ⟨hdot, hdirectory⟩ := isSceneDirectory_iff.mpr (Eq.refl arguments.sceneDirectory)
  have hbare : ¬ IsBare arguments.scene := by
    intro hbare
    rw [hdot hbare] at h
    have hlast := congrArg List.getLast? h
    rw [List.getLast?_concat] at hlast
    exact absurd hlast (by decide)
  rw [(hdirectory hbare).eq_root h] at h
  exact String.toList_injective h

/-- The directory of a scene is the empty path if the path of the scene is a single component,
which is not the root. -/
theorem sceneDirectory_eq_empty_iff (arguments : Arguments) : arguments.sceneDirectory = "" ↔
    ∃ name, components arguments.scene.toList = [name] ∧ name ≠ ['/'] := by
  rw [eq_comm, ← isSceneDirectory_iff]
  constructor
  · rintro ⟨hdot, hdirectory⟩
    have hbare : ¬ IsBare arguments.scene := fun hbare => nomatch hdot hbare
    have hlast := (hdirectory hbare).others
    obtain ⟨name, names, hnames⟩ := List.exists_cons_of_ne_nil fun hnone => hbare (Or.inl hnone)
    rw [hnames] at hlast
    cases names with
    | nil => exact ⟨name, hnames, fun hroot => hbare (Or.inr (by rw [hnames, hroot]))⟩
    | cons _ _ => cases hlast
  · rintro ⟨name, hname, hroot⟩
    refine ⟨fun hbare => ?_,
      fun _ => ⟨List.nil_prefix, by rw [hname]; rfl, fun _ _ _ => Nat.zero_le _⟩⟩
    rcases hbare with hnone | hslash
    · cases hname.symm.trans hnone
    · cases hname.symm.trans hslash
      exact absurd rfl hroot

end ShadeNet
