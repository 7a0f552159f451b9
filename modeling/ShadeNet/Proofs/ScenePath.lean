/-
# Paths relative to the scene

A text with two slashes in front is put behind the directory of the scene, and so it leads from
that directory to where the rest of the text leads. The directory is the path of the scene without
its last name, with forward slashes. But of a scene that is given by its name alone nothing is left
without that name, and then the path that is written starts at the root.

Key definitions: `Location.along`, `slashed`, `Pass.givenLiteral?`.
Key theorems: `IsDirectoryOf.stops_eq`, `ofPath_sceneDirectory`, `ofPath_trimSlashes`,
`scene_paths_lead_on`.
-/
import Mathlib.Data.List.TakeWhile
import ShadeNet.Proofs.Loading

namespace ShadeNet

/-! ### Places along a path -/

/-- The place that a path leads to from another place. -/
def Location.along (l : Location) (path : List Char) : Location :=
  ((pathNames path).map String.ofList).foldl enter l

theorem Location.along_eq (l : Location) (path : List Char) :
    l.along path = ((stops path).map String.ofList).foldl enter l := by
  unfold along stops
  induction pathNames path generalizing l with
  | nil => rfl
  | cons name names ih =>
    rw [List.map_cons, List.foldl_cons, ih]
    by_cases hstop : isStop name = true
    · rw [List.filter_cons_of_pos hstop, List.map_cons, List.foldl_cons]
    · have hstay : l.enter (String.ofList name) = l := by
        unfold enter
        refine if_pos ?_
        by_cases hempty : name = []
        · exact Or.inl (by rw [hempty])
        · refine Or.inr ?_
          have hdot : name = ['.'] := by simpa [isStop, hempty] using hstop
          rw [hdot]
      rw [List.filter_cons_of_neg hstop, hstay]

theorem pathAnchor_eq (path : String) :
    pathAnchor path = if path.toList.head? = some '/' then ⟨.root, []⟩ else {} := by
  unfold pathAnchor
  split
  · rename_i rest hslash
    rw [hslash]
    rfl
  · rename_i hslash
    refine (if_neg fun hhead => ?_).symm
    obtain ⟨rest, hrest⟩ := List.head?_eq_some_iff.mp hhead
    exact hslash rest hrest

/-! ### The directory of a scene -/

theorem not_mem_pathNames {cs name : List Char} (h : name ∈ pathNames cs) : '/' ∉ name := by
  induction cs generalizing name with
  | nil =>
    rw [List.mem_singleton.mp h]
    exact List.not_mem_nil
  | cons c rest ih =>
    by_cases hc : c = '/'
    · subst hc
      rcases List.mem_cons.mp h with rfl | h
      · exact List.not_mem_nil
      · exact ih h
    · obtain ⟨first, names, hrest⟩ := pathNames_eq_cons rest
      rw [hrest] at ih
      rw [pathNames_cons hc hrest] at h
      rcases List.mem_cons.mp h with rfl | h
      · exact List.not_mem_cons_of_ne_of_not_mem (Ne.symm hc) (ih List.mem_cons_self)
      · exact ih (List.mem_cons_of_mem first h)

/-- A component that leads on, and is not the root. -/
def isName (component : List Char) : Bool := isStop component && component != ['/']

theorem isName_of_mem_stops {cs name : List Char} (h : name ∈ stops cs) : isName name = true := by
  obtain ⟨hname, hstop⟩ := List.mem_filter.mp h
  have hroot : name ≠ ['/'] := by
    rintro rfl
    exact not_mem_pathNames hname (List.mem_singleton_self _)
  simp [isName, hstop, hroot]

theorem filter_components (cs : List Char) : (components cs).filter isName = stops cs := by
  have hstart : ∀ start : List (List Char), start.filter isName = [] →
      (start ++ stops cs).filter isName = stops cs := fun start h => by
    rw [List.filter_append, h, List.nil_append,
      List.filter_eq_self.mpr fun _ => isName_of_mem_stops]
  unfold components
  refine hstart _ ?_
  split
  · rfl
  · split <;> rfl

theorem root_mem_components {cs : List Char} : ['/'] ∈ components cs ↔ cs.head? = some '/' := by
  have hstops : ['/'] ∉ stops cs := fun hmem => nomatch isName_of_mem_stops hmem
  unfold components
  rw [List.mem_append, or_iff_left hstops]
  split
  · simp [*]
  · split <;> simp [*]

/-- The directory of a path that ends in a name has the other names, and starts where the path
does. -/
theorem IsDirectoryOf.stops_eq {directory path : String} {last : List Char}
    (h : IsDirectoryOf directory path) (hlast : (stops path.toList).getLast? = some last) :
    stops path.toList = stops directory.toList ++ [last] ∧
      (directory.toList.head? = some '/' ↔ path.toList.head? = some '/') := by
  obtain ⟨front, hfront⟩ := List.getLast?_eq_some_iff.mp hlast
  have hname : isName last = true := isName_of_mem_stops (List.mem_of_getLast? hlast)
  obtain ⟨others, hothers⟩ : ∃ others, components path.toList = others ++ [last] := by
    unfold components
    rw [hfront, ← List.append_assoc]
    exact ⟨_, rfl⟩
  have hdirectory := h.others
  rw [hothers, List.dropLast_concat] at hdirectory
  rw [← filter_components, ← filter_components, ← root_mem_components, ← root_mem_components,
    hothers, hdirectory, List.filter_append, List.filter_cons_of_pos hname]
  refine ⟨rfl, List.mem_append.trans (or_iff_left fun hroot => ?_) |>.symm⟩
  cases List.mem_singleton.mp hroot
  cases hname

theorem Location.parent_enter {l : Location} {name : List Char} (hstop : isStop name = true)
    (hout : name ≠ ['.', '.']) : (l.enter (String.ofList name)).parent = l := by
  obtain ⟨hempty, hdot⟩ : name ≠ [] ∧ name ≠ ['.'] := by simpa [isStop] using hstop
  have hne : ∀ cs : List Char, name ≠ cs → String.ofList name ≠ String.ofList cs := fun cs h heq =>
    h (String.ofList_injective heq)
  unfold enter
  rw [if_neg (not_or.mpr ⟨hne [] hempty, hne ['.'] hdot⟩), if_neg (hne ['.', '.'] hout)]
  rfl

/-- The scene is called by a name. It is not if its path ends in two dots, or has no name at all. -/
def Arguments.NamesScene (arguments : Arguments) : Prop :=
  ∃ name, (stops arguments.scene.toList).getLast? = some name ∧ name ≠ ['.', '.']

/-- The directory of the scene is the directory that holds it. -/
theorem ofPath_sceneDirectory {arguments : Arguments} (h : arguments.NamesScene) :
    Location.ofPath arguments.sceneDirectory = (Location.ofPath arguments.scene).parent := by
  obtain ⟨last, hlast, hout⟩ := h
  have hmem : last ∈ stops arguments.scene.toList := List.mem_of_getLast? hlast
  have hbare : ¬ IsBare arguments.scene := by
    have hcomponent : last ∈ components arguments.scene.toList := List.mem_append_right _ hmem
    rintro (hnone | hroot)
    · rw [hnone] at hcomponent
      exact absurd hcomponent List.not_mem_nil
    · rw [hroot, List.mem_singleton] at hcomponent
      subst hcomponent
      cases isName_of_mem_stops hmem
  have hdirectory := (isSceneDirectory_iff.mpr (Eq.refl arguments.sceneDirectory)).2 hbare
  obtain ⟨hstops, hhead⟩ := hdirectory.stops_eq hlast
  have hscene : Location.ofPath arguments.scene =
      (Location.ofPath arguments.sceneDirectory).enter (String.ofList last) := by
    change (pathAnchor _).along _ = ((pathAnchor _).along _).enter _
    rw [Location.along_eq, Location.along_eq, hstops, pathAnchor_eq, pathAnchor_eq,
      List.map_append, List.foldl_append]
    simp only [hhead]
    rfl
  rw [hscene, Location.parent_enter (List.mem_filter.mp hmem).2 hout]

/-! ### Paths behind a directory -/

/-- A path with forward slashes. -/
def slashed (path : String) : String := String.ofList (path.toList.map slashChar)

/-- A path that starts at the root. -/
def IsAbsolute (path : String) : Prop := path.toList.head? = some '/'

instance (path : String) : Decidable (IsAbsolute path) :=
  inferInstanceAs (Decidable (path.toList.head? = some '/'))

theorem slashed_toList (path : String) : (slashed path).toList = path.toList.map slashChar :=
  String.toList_ofList

theorem slashChar_ne (c : Char) : slashChar c ≠ '\\' := by
  unfold slashChar
  split
  · decide
  · assumption

theorem trimSlashes_spec (cs : List Char) :
    ∃ slashes, cs = trimSlashes cs ++ slashes ∧ ∀ c ∈ slashes, c = '/' := by
  refine ⟨(cs.reverse.takeWhile (· = '/')).reverse, ?_, fun c hc => ?_⟩
  · unfold trimSlashes
    rw [← List.reverse_append, List.takeWhile_append_dropWhile, List.reverse_reverse]
  · have hall := List.all_eq_true.mp List.all_takeWhile c (List.mem_reverse.mp hc)
    exact of_decide_eq_true hall

/-- Behind the directory and one slash, a path leads on from the directory, and it starts where
the directory does. -/
theorem ofPath_trimSlashes {directory : String} (h : directory ≠ "") (relative : List Char) :
    let path := String.ofList (trimSlashes directory.toList ++ '/' :: relative)
    Location.ofPath path = (Location.ofPath directory).along relative ∧
      (IsAbsolute path ↔ IsAbsolute directory) := by
  intro path
  obtain ⟨slashes, hdirectory, hslashes⟩ := trimSlashes_spec directory.toList
  have hpath : path.toList = trimSlashes directory.toList ++ '/' :: relative := String.toList_ofList
  have hhead : path.toList.head? = some '/' ↔ directory.toList.head? = some '/' := by
    rw [hpath]
    cases htrim : trimSlashes directory.toList with
    | nil =>
      rw [htrim, List.nil_append] at hdirectory
      obtain ⟨c, rest, hslash⟩ := List.exists_cons_of_ne_nil
        (fun hnil => h (String.toList_eq_nil_iff.mp hnil) : directory.toList ≠ [])
      have hc : c = '/' := hslashes c (by rw [← hdirectory, hslash]; exact List.mem_cons_self)
      rw [hslash, hc]
      simp
    | cons c rest =>
      rw [hdirectory, htrim]
      simp
  refine ⟨?_, hhead⟩
  have hstops : stops (trimSlashes directory.toList) = stops directory.toList := by
    conv_rhs => rw [hdirectory]
    exact (stops_append_slashes _ hslashes).symm
  change (pathAnchor path).along path.toList = ((pathAnchor directory).along _).along relative
  rw [Location.along_eq, Location.along_eq, Location.along_eq, pathAnchor_eq, pathAnchor_eq, hpath,
    stops_append, hstops, List.map_append, List.foldl_append, ← hpath]
  simp only [hhead]

/-! ### The literal of a parameter -/

namespace Pass

variable {params : OrderedMap String Value} {supplied : OrderedMap String Resolved}
  {param : ParamDesc} {value : Value} {text : String}

/-- The literal that a parameter is written from: the one that a socket supplies, or else that of
the node, or else that of the schema. -/
def givenLiteral? (params : OrderedMap String Value) (supplied : OrderedMap String Resolved)
    (param : ParamDesc) : Option Value :=
  match supplied.get? param.attr with
  | some (.literal value) => some value
  | some _ => none
  | none => if param.needsSupply then none else (params.get? param.attr).or param.literal

theorem spellParam_given (pass : Pass) (hout : param.type.isOutput = false)
    (h : givenLiteral? params supplied param = some value) :
    pass.spellParam params supplied param = pass.spellLiteral param value := by
  unfold givenLiteral? at h
  unfold spellParam
  rw [hout, if_neg Bool.false_ne_true]
  cases hsupplied : supplied.get? param.attr with
  | some resolved =>
    rw [hsupplied] at h
    cases resolved <;> cases h
    rfl
  | none =>
    rw [hsupplied] at h
    simp only at h ⊢
    split at h
    · cases h
    · rename_i hneeds
      rw [if_neg hneeds, h]

/-- A literal that is a path, or the text of a parameter that names a file or a directory. -/
def IsPathText (param : ParamDesc) (value : Value) (text : String) : Prop :=
  value = .path text ∨ value = .string text ∧ param.isPath = true

/-- A path is written in its normal form. If it is looked for and is not there, that is
reported. -/
theorem spellLiteral_path (pass : Pass) (href : param.type.isReference = false)
    (hvalue : IsPathText param value text) (hne : text ≠ "") :
    let path := normalizePath text pass.settings.baseDir
    pass.spellLiteral param value = .written (quote path) ∨
      pass.spellLiteral param value = .fileMissing path ∧ pass.settings.checkPaths = true ∧
        pass.fileExists path = false := by
  have htext : ∃ isPath, pass.spellLiteral param value = pass.spellText param isPath text ∧
      (param.isPath || isPath) = true := by
    rcases hvalue with rfl | ⟨rfl, hpath⟩
    · exact ⟨true, rfl, Bool.or_true _⟩
    · exact ⟨false, rfl, by rw [hpath]; rfl⟩
  obtain ⟨isPath, hspelled, hpath⟩ := htext
  rw [hspelled]
  unfold spellText
  rw [if_neg hne, href, if_neg Bool.false_ne_true, if_pos hpath]
  simp only
  split
  · rename_i hcheck
    simp only [Bool.and_eq_true, Bool.not_eq_true'] at hcheck
    exact Or.inr ⟨rfl, hcheck.1.1, hcheck.2⟩
  · exact Or.inl rfl

end Pass

/-! ### Paths relative to the scene -/

/-- What a text becomes that has two slashes in front once it has forward slashes. -/
theorem normalizePath_relative {text directory : String} {relative : List Char}
    (h : (slashed text).toList = '/' :: '/' :: relative) :
    normalizePath text (some directory) =
      String.ofList (trimSlashes (slashed directory).toList ++ '/' :: relative) := by
  rw [slashed_toList] at h
  unfold normalizePath
  simp only [h, slashed_toList]

/-- A path in its normal form has forward slashes only. -/
theorem normalizePath_slashes (text : String) (base : Option String) :
    '\\' ∉ (normalizePath text base).toList := by
  have hmap : ∀ cs : List Char, '\\' ∉ cs.map slashChar := by
    intro cs hmem
    obtain ⟨c, -, hc⟩ := List.mem_map.mp hmem
    exact slashChar_ne c hc
  unfold normalizePath
  simp only
  split
  · rename_i relative directory hunified
    have htext := hmap text.toList
    rw [hunified] at htext
    obtain ⟨slashes, hdirectory, -⟩ := trimSlashes_spec (directory.toList.map slashChar)
    have hbase := hmap directory.toList
    rw [hdirectory] at hbase
    simp only [String.toList_ofList, List.mem_append, List.mem_cons, not_or] at hbase htext ⊢
    exact ⟨hbase.1, htext.2⟩
  · rw [String.toList_ofList]
    exact hmap _

/-- The directory of a scene is a beginning of its path, or a dot where there is none. -/
theorem sceneDirectory_cases (arguments : Arguments) : arguments.sceneDirectory = "." ∨
    arguments.sceneDirectory.toList <+: arguments.scene.toList := by
  obtain ⟨hdot, hdirectory⟩ := isSceneDirectory_iff.mpr (Eq.refl arguments.sceneDirectory)
  by_cases hbare : IsBare arguments.scene
  · exact Or.inl (hdot hbare)
  · exact Or.inr (hdirectory hbare).beginning

/-- The directory of a scene with forward slashes has forward slashes. -/
theorem slashed_sceneDirectory {arguments : Arguments} (h : '\\' ∉ arguments.scene.toList) :
    slashed arguments.sceneDirectory = arguments.sceneDirectory := by
  have hnone : '\\' ∉ arguments.sceneDirectory.toList := by
    rcases sceneDirectory_cases arguments with hdot | hfront
    · rw [hdot]
      decide
    · exact fun hmem => h (hfront.subset hmem)
  have hmap : arguments.sceneDirectory.toList.map slashChar = arguments.sceneDirectory.toList := by
    refine (List.map_congr_left fun c hc => if_neg ?_).trans (List.map_id _)
    rintro rfl
    exact hnone hc
  unfold slashed
  rw [hmap, String.ofList_toList]

/-- The directory of a scene starts at the root only if the path of the scene does. -/
theorem isAbsolute_sceneDirectory {arguments : Arguments}
    (h : IsAbsolute (slashed arguments.sceneDirectory)) : IsAbsolute (slashed arguments.scene) := by
  unfold IsAbsolute at *
  rw [slashed_toList] at *
  rcases sceneDirectory_cases arguments with hdot | ⟨more, hscene⟩
  · rw [hdot] at h
    exact absurd h (by decide)
  · obtain ⟨rest, hrest⟩ := List.head?_eq_some_iff.mp h
    rw [← hscene, List.map_append, hrest]
    rfl

/-- A path without a slash is a single component. -/
theorem components_of_name {arguments : Arguments} (h : '/' ∉ arguments.scene.toList)
    (hne : arguments.scene ≠ "") :
    components arguments.scene.toList = [arguments.scene.toList] := by
  have hhead : arguments.scene.toList.head? ≠ some '/' :=
    fun hhead => h (List.mem_of_mem_head? hhead)
  have hname : ∀ c ∈ arguments.scene.toList, c ≠ '/' := fun c hc heq => h (heq ▸ hc)
  rw [components_of_pathNames hhead (pathNames_of_forall_ne hname),
    if_neg fun hnil => hne (String.toList_eq_nil_iff.mp hnil)]
  rfl

/-- **A path relative to the scene leads on from the directory of the scene.** In whatever the
command exports with settings that have no base directory, take a parameter that is no reference,
and a path for it, or a text if it names a file or a directory, that starts with two slashes once it
has forward slashes. The path that is written, or reported as missing, has forward slashes only.
If the directory of the scene is not the empty path, it leads from there to where the rest of the
text leads, and it is absolute only if the path of the scene is; so for a scene that is called by a
name, in a path with forward slashes, it leads on from the directory that holds the scene. But if
the directory is the empty path, the path that is written starts at the root. The directory is the
empty path if the path of the scene is a single component other than the root, as it is for a scene
that is given by its name alone, and for no other scene. -/
theorem scene_paths_lead_on {d : Directory} {arguments : Arguments} {pass : Pass}
    (hloads : d.Loads arguments pass.toJob)
    (hbase : ∀ settings, d.HoldsSettings arguments settings → settings.baseDir = none)
    {desc : PluginDesc} {param : ParamDesc} (hparam : param ∈ desc.params)
    (hout : param.type.isOutput = false) (href : param.type.isReference = false)
    {params : OrderedMap String Value} {supplied : OrderedMap String Resolved} {value : Value}
    (hgiven : Pass.givenLiteral? params supplied param = some value)
    {text : String} (hvalue : Pass.IsPathText param value text)
    {relative : List Char} (htext : (slashed text).toList = '/' :: '/' :: relative)
    (name : String) :
    ∃ path : String,
      ((param.attr, quote path) ∈ (pass.pluginRecord desc name params supplied).attrs ∨
        .fileMissing path param.attr ∈ pass.pluginReports desc params supplied ∧
          pass.settings.checkPaths = true ∧ pass.fileExists path = false) ∧
      '\\' ∉ path.toList ∧
      (arguments.sceneDirectory ≠ "" →
        Location.ofPath path =
          (Location.ofPath (slashed arguments.sceneDirectory)).along relative ∧
        (IsAbsolute path → IsAbsolute (slashed arguments.scene)) ∧
        ('\\' ∉ arguments.scene.toList → arguments.NamesScene →
          Location.ofPath path = (Location.ofPath arguments.scene).parent.along relative)) ∧
      (arguments.sceneDirectory = "" → path.toList = '/' :: relative) ∧
      (arguments.sceneDirectory = "" ↔
        ∃ name, components arguments.scene.toList = [name] ∧ name ≠ ['/']) ∧
      ('/' ∉ arguments.scene.toList → arguments.sceneDirectory = "") := by
  obtain ⟨settings, hholds, hsettings⟩ := hloads.settings_eq
  have hdirectory : pass.settings.baseDir = some arguments.sceneDirectory := by
    rw [hsettings]
    unfold Settings.withBaseDir
    rw [hbase settings hholds]
    rfl
  have hne : text ≠ "" := by
    rintro rfl
    cases htext
  have hspelled := pass.spellLiteral_path href hvalue hne
  rw [← pass.spellParam_given hout hgiven, hdirectory] at hspelled
  have hsorted := PluginDesc.mem_sortedParams.mpr hparam
  have hpath : normalizePath text (some arguments.sceneDirectory) = _ :=
    normalizePath_relative htext
  refine ⟨normalizePath text (some arguments.sceneDirectory), ?_, normalizePath_slashes _ _,
    fun hdir => ?_, fun hdir => ?_, sceneDirectory_eq_empty_iff arguments, fun hname => ?_⟩
  · rcases hspelled with hwritten | ⟨hmissing, hcheck, hexists⟩
    · exact Or.inl (List.mem_filterMap.mpr ⟨param, hsorted, by rw [hwritten]; rfl⟩)
    · exact Or.inr ⟨List.mem_filterMap.mpr ⟨param, hsorted, by rw [hmissing]; rfl⟩, hcheck, hexists⟩
  · have hdir' : slashed arguments.sceneDirectory ≠ "" := by
      refine fun hempty => hdir (String.toList_eq_nil_iff.mp ?_)
      rw [← String.toList_eq_nil_iff, slashed_toList] at hempty
      exact List.map_eq_nil_iff.mp hempty
    obtain ⟨hleads, habsolute⟩ := ofPath_trimSlashes hdir' relative
    rw [hpath]
    refine ⟨hleads, fun habs => isAbsolute_sceneDirectory (habsolute.mp habs),
      fun hslashes hnames => ?_⟩
    rw [hleads, slashed_sceneDirectory hslashes, ofPath_sceneDirectory hnames]
  · rw [hpath, hdir, String.toList_ofList]
    rfl
  · have hscene : arguments.scene ≠ "" := by
      intro hempty
      have hscene := hloads.scene
      rw [hempty] at hscene
      cases hscene
    refine (sceneDirectory_eq_empty_iff arguments).mpr ⟨_, components_of_name hname hscene, ?_⟩
    intro hroot
    exact hname (hroot ▸ List.mem_singleton_self _)

/-- The arguments of a scene in another directory, with more in the path than is needed. -/
def awkwardArguments : Arguments := { shotArguments with scene := "shots//./hall.ron" }

/-- The file of a picture. -/
def pictureFile : ParamDesc := { attr := "file", type := .string, pathKind := some .file }

/-- The schema of a picture. -/
def pictureDesc : PluginDesc := ⟨"BitmapBuffer", .texture, [pictureFile]⟩

/-- A picture that is given relative to the scene. -/
def pictureParams : OrderedMap String Value := .ofList [("file", .string "\\/tex\\wood.png")]

/-- A pass in which all files are there. -/
def picturePass (job : Job) : Pass :=
  { toJob := job, geometry := .external, fileExists := fun _ => true, frame := 1 }

theorem scene_paths_lead_on_awkward : ∃ job, shotDirectory.Loads awkwardArguments job ∧
    ∃ path : String,
      ("file", quote path) ∈
          ((picturePass job).pluginRecord pictureDesc "Wood" pictureParams ∅).attrs ∧
        Location.ofPath path = ⟨.above 0, ["wood.png", "tex", "shots"]⟩ := by
  have hfound : shotDirectory.hasEntry awkwardArguments.neighbouringSettings = true := by
    decide +kernel
  have hsettings : shotDirectory.Holds awkwardArguments.neighbouringSettings Settings.ofText?
      { animation := true } := by
    decide +kernel
  have hloads : ∃ job, shotDirectory.Loads awkwardArguments job := by
    refine Directory.loads_iff.mpr ⟨Option.isSome_iff_exists.mp (by decide +kernel),
      by simp [awkwardArguments, shotArguments], { animation := true }, ?_⟩
    refine (Directory.holdsSettings_of_none rfl).mpr ?_
    exact (if_pos hfound).mpr hsettings
  have hbase : ∀ settings, shotDirectory.HoldsSettings awkwardArguments settings →
      settings.baseDir = none := by
    intro settings hholds
    rw [Directory.holdsSettings_of_none rfl, if_pos hfound] at hholds
    rw [Directory.Holds, show _ = some _ from hsettings] at hholds
    cases hholds
    rfl
  obtain ⟨job, hjob⟩ := hloads
  obtain ⟨path, hspelled, -, hleads, -⟩ := @scene_paths_lead_on shotDirectory awkwardArguments
    (picturePass job) hjob hbase pictureDesc pictureFile (List.mem_singleton_self _) rfl rfl
    pictureParams ∅ _ rfl _ (Or.inr ⟨rfl, rfl⟩) "tex/wood.png".toList (by decide) "Wood"
  refine ⟨job, hjob, path, hspelled.resolve_right fun hmissing => ?_, ?_⟩
  · cases hmissing.2.2
  · rw [(hleads (by decide)).1]
    decide

/-- A material whose end is a picture beside the scene. -/
def hallTree : NodeTree :=
  .ofParts "Wall"
    [{ name := "Wood", kind := .plugin .texture "BitmapBuffer",
        outputs := [⟨"Out", .output, .material, none, none⟩],
        params := .ofList [("file", .path "//wood.png")] },
      { name := "End", kind := .materialOutput false,
        inputs := [⟨"Material", .input, .material, none, none⟩] }]
    [⟨⟨1⟩, ⟨"Wood", "Out"⟩, ⟨"End", "Material"⟩⟩]

/-- A pass over the scene with the default settings, as the command is asked for it. -/
def hallPass (arguments : Arguments) : Pass where
  scene := (({ name := "Hall" } : Scene).addTree hallTree).addMaterial "Wall" ⟨some "Wall"⟩
  catalog := Catalog.builtin
  settings := ({} : Settings).withBaseDir arguments.sceneDirectory
  geometry := .external
  frame := 1

/-- The picture is in the directory of the scene, and what is written is a path from the root. -/
theorem scene_path_astray : ∃ arguments,
    Arguments.ofList ["hall.ron", "hall.vrscene"] = .ok arguments ∧
    (∃ r ∈ ((hallPass arguments).run.runOn {}).2.sink.recordList,
      ("file", quote "/wood.png") ∈ r.attrs) ∧
    Location.ofPath "/wood.png" ≠
      (Location.ofPath arguments.scene).parent.along "wood.png".toList ∧
    IsAbsolute "/wood.png" ∧ ¬ IsAbsolute arguments.scene := by
  refine ⟨⟨"hall.ron", "hall.vrscene", none, [], none⟩, by decide, ?_, by decide, rfl, by decide⟩
  decide +kernel

end ShadeNet
