/-
# Inputs before the output

The command looks at its inputs and writes one file. Up to the moment at which the scene, all
catalogs and the settings are loaded it does nothing but look, so whatever is wrong with an input,
or with the arguments, leaves every file as it was, the output among them. Then the output is
written, or it cannot be written and nothing is. A file that is written changes no way to a file or
to a directory, since the way to its own place is already there.

Key definitions: `Arguments.AsksFor`, `Directory.Loads`, `Looks`, `Directory.WrittenAt`,
`Job.exportedText`.
Key theorems: `Directory.loads_iff`, `load_looks`, `Directory.writtenAt_put`, `exportJob_writes`,
`inputs_before_output`.
-/
import Mathlib.Data.List.Forall2
import ShadeNet.Proofs.SceneDirectory

namespace ShadeNet

/-! ### What the arguments ask for -/

/-- Settings as they are given, with a directory for a base unless they have one. -/
structure Settings.BasedOn (settings given : Settings) (directory : String) : Prop where
  /-- A base that is given stays. -/
  kept : given.baseDir ≠ none → settings = given
  /-- Without one the directory is the base. -/
  based : given.baseDir = none → settings = { given with baseDir := some directory }

theorem Settings.basedOn_iff {settings given : Settings} {directory : String} :
    settings.BasedOn given directory ↔ settings = given.withBaseDir directory := by
  constructor
  · rintro ⟨hkept, hbased⟩
    unfold withBaseDir
    cases hbase : given.baseDir with
    | none => exact hbased hbase
    | some own =>
      rw [hkept (by simp [hbase])]
      exact congrArg (fun base => { given with baseDir := base }) hbase
  · rintro rfl
    refine ⟨fun hne => ?_, fun hnone => ?_⟩
    · obtain ⟨own, hown⟩ := Option.ne_none_iff_exists'.mp hne
      unfold withBaseDir
      rw [hown, Option.getD_some, ← hown]
    · unfold withBaseDir
      rw [hnone, Option.getD_none]

/-- The settings file in the directory of a scene. A slash parts the two, unless the directory is
the root, which ends in one, or the empty path. -/
def settingsIn (directory : String) : String :=
  if directory = "" ∨ directory = "/" then directory ++ "vrscene_export.ron"
  else directory ++ "/" ++ "vrscene_export.ron"

theorem Arguments.neighbouringSettings_eq (arguments : Arguments) :
    arguments.neighbouringSettings = settingsIn arguments.sceneDirectory := by
  unfold neighbouringSettings settingsIn joinPath
  by_cases hends : arguments.sceneDirectory.toList.getLast?.all (· = '/') = true
  · rw [if_pos hends, if_pos]
    · rfl
    · cases hlast : arguments.sceneDirectory.toList.getLast? with
      | none => exact Or.inl (String.toList_eq_nil_iff.mp (List.getLast?_eq_none_iff.mp hlast))
      | some c =>
        rw [hlast, Option.all_some, decide_eq_true_eq] at hends
        obtain ⟨front, hfront⟩ := List.getLast?_eq_some_iff.mp hlast
        exact Or.inr (sceneDirectory_eq_root (hends ▸ hfront))
  · rw [if_neg hends, if_neg]
    · rfl
    · rintro (hempty | hroot)
      · exact hends (by rw [hempty]; rfl)
      · exact hends (by rw [hroot]; rfl)

/-! ### What is loaded -/

namespace Directory

variable {α : Type}

/-- A file can be read, and it is the document of a value. -/
def Holds (d : Directory) (path : String) (parse? : String → Option α) (value : α) : Prop :=
  (d.read? path).bind parse? = some value

instance [DecidableEq α] (d : Directory) (path : String) (parse? : String → Option α) (value : α) :
    Decidable (d.Holds path parse? value) :=
  inferInstanceAs (Decidable ((d.read? path).bind parse? = some value))

/-- The settings that belong to some arguments: those of the given file; without one those of the
file in the directory of the scene if there is anything, and the defaults if there is nothing. -/
def HoldsSettings (d : Directory) (arguments : Arguments) (settings : Settings) : Prop :=
  match arguments.settings with
  | some path => d.Holds path Settings.ofText? settings
  | none => ∃ directory, IsSceneDirectory directory arguments.scene ∧
    if d.hasEntry (settingsIn directory) = true then
      d.Holds (settingsIn directory) Settings.ofText? settings
    else settings = {}

theorem holdsSettings_of_none {d : Directory} {arguments : Arguments} {settings : Settings}
    (h : arguments.settings = none) : d.HoldsSettings arguments settings ↔
      if d.hasEntry arguments.neighbouringSettings = true then
        d.Holds arguments.neighbouringSettings Settings.ofText? settings
      else settings = {} := by
  unfold HoldsSettings
  simp only [h, isSceneDirectory_iff, exists_eq_left, arguments.neighbouringSettings_eq]

/-- All inputs can be loaded, and this is what they come to. -/
structure Loads (d : Directory) (arguments : Arguments) (job : Job) : Prop where
  /-- The scene is that of the scene file. -/
  scene : d.Holds arguments.scene Scene.ofText? job.scene
  /-- The builtin catalog is extended by those of the files, in their order. -/
  catalog : ∃ catalogs,
    List.Forall₂ (fun path catalog => d.Holds path Catalog.ofText? catalog)
      arguments.catalogs catalogs ∧
    job.catalog = catalogs.foldl Catalog.extend Catalog.builtin
  /-- The settings have the directory of the scene for a base unless they have one. -/
  settings : ∃ given directory, d.HoldsSettings arguments given ∧
    IsSceneDirectory directory arguments.scene ∧ job.settings.BasedOn given directory

theorem Loads.settings_eq {d : Directory} {arguments : Arguments} {job : Job}
    (h : d.Loads arguments job) : ∃ given, d.HoldsSettings arguments given ∧
      job.settings = given.withBaseDir arguments.sceneDirectory := by
  obtain ⟨given, directory, hgiven, hdirectory, hbased⟩ := h.settings
  exact ⟨given, hgiven, isSceneDirectory_iff.mp hdirectory ▸ Settings.basedOn_iff.mp hbased⟩

theorem Loads.of_settings {d : Directory} {arguments : Arguments} {job : Job}
    (hscene : d.Holds arguments.scene Scene.ofText? job.scene)
    (hcatalog : ∃ catalogs, List.Forall₂ (fun path catalog => d.Holds path Catalog.ofText? catalog)
      arguments.catalogs catalogs ∧ job.catalog = catalogs.foldl Catalog.extend Catalog.builtin)
    {given : Settings} (hgiven : d.HoldsSettings arguments given)
    (h : job.settings = given.withBaseDir arguments.sceneDirectory) : d.Loads arguments job :=
  ⟨hscene, hcatalog, given, _, hgiven, isSceneDirectory_iff.mpr rfl, Settings.basedOn_iff.mpr h⟩

/-- All inputs can be loaded if each of them can. -/
theorem loads_iff {d : Directory} {arguments : Arguments} :
    (∃ job, d.Loads arguments job) ↔
      (∃ scene, d.Holds arguments.scene Scene.ofText? scene) ∧
        (∀ path ∈ arguments.catalogs, ∃ catalog, d.Holds path Catalog.ofText? catalog) ∧
        ∃ settings, d.HoldsSettings arguments settings := by
  constructor
  · rintro ⟨job, hscene, ⟨catalogs, hcatalogs, -⟩, settings, -, hsettings, -⟩
    refine ⟨⟨_, hscene⟩, fun path hpath => ?_, settings, hsettings⟩
    generalize arguments.catalogs = paths at hcatalogs hpath
    induction hcatalogs with
    | nil => cases hpath
    | cons hfirst _ ih =>
      rcases List.mem_cons.mp hpath with rfl | hpath
      · exact ⟨_, hfirst⟩
      · exact ih hpath
  · rintro ⟨⟨scene, hscene⟩, hcatalogs, settings, hsettings⟩
    have hall : ∃ catalogs, List.Forall₂
        (fun path catalog => d.Holds path Catalog.ofText? catalog) arguments.catalogs catalogs := by
      generalize arguments.catalogs = paths at hcatalogs
      induction paths with
      | nil => exact ⟨[], .nil⟩
      | cons path paths ih =>
        obtain ⟨catalog, hcatalog⟩ := hcatalogs path List.mem_cons_self
        obtain ⟨catalogs, hrest⟩ := ih fun p hp => hcatalogs p (List.mem_cons_of_mem path hp)
        exact ⟨catalog :: catalogs, .cons hcatalog hrest⟩
    obtain ⟨catalogs, hcatalogs⟩ := hall
    exact ⟨⟨scene, _, _⟩, .of_settings hscene ⟨catalogs, hcatalogs, rfl⟩ hsettings rfl⟩

end Directory

/-! ### Steps that only look -/

/-- A step of the command that may give up, in a directory. -/
abbrev Loading := ExceptT CommandError (StateM Directory)

/-- Runs a step in a directory. -/
def Loading.runOn {α : Type} (c : Loading α) (d : Directory) : Except CommandError α × Directory :=
  StateT.run (ExceptT.run c) d

/-- A step looks at a directory and leaves it as it is: it ends in the values that it is to end
in, and where there is none it gives up. -/
structure Looks {α : Type} (c : Loading α) (d : Directory) (value : α → Prop) : Prop where
  /-- Nothing is changed. -/
  kept : (c.runOn d).2 = d
  /-- The values are those it is to end in. -/
  gives : ∀ a, (c.runOn d).1 = .ok a ↔ value a

theorem Loading.runOn_bind {α β : Type} (c : Loading α) (f : α → Loading β) (d : Directory) :
    (c >>= f).runOn d = match c.runOn d with
      | (.ok a, d') => (f a).runOn d'
      | (.error e, d') => (.error e, d') := by
  change (match c.runOn d with | (r, d') => ExceptT.bindCont f r d') = _
  rcases c.runOn d with ⟨_ | _, _⟩ <;> rfl

namespace Looks

variable {α β : Type} {d : Directory} {c : Loading α} {p : α → Prop}

theorem of_runOn {result : Except CommandError α} (h : c.runOn d = (result, d))
    (hp : ∀ a, result = .ok a ↔ p a) : Looks c d p :=
  ⟨congrArg Prod.snd h, fun a => by rw [h]; exact hp a⟩

theorem congr {q : α → Prop} (hc : Looks c d p) (h : ∀ a, p a ↔ q a) : Looks c d q :=
  ⟨hc.kept, fun a => (hc.gives a).trans (h a)⟩

theorem pure (a : α) : Looks (Pure.pure a) d (fun b => b = a) :=
  of_runOn rfl fun _ => ⟨fun h => (Except.ok.inj h).symm, fun h => h ▸ rfl⟩

theorem stop (e : CommandError) : Looks (throw e : Loading α) d (fun _ => False) :=
  of_runOn rfl fun _ => ⟨nofun, False.elim⟩

/-- Looking twice is looking once. -/
theorem bind {f : α → Loading β} {q : α → β → Prop} (hc : Looks c d p)
    (hf : ∀ a, p a → Looks (f a) d (q a)) : Looks (c >>= f) d fun b => ∃ a, p a ∧ q a b := by
  have hrun : c.runOn d = ((c.runOn d).1, d) := Prod.ext rfl hc.kept
  have hbind := Loading.runOn_bind c f d
  rw [hrun] at hbind
  cases hresult : (c.runOn d).1 with
  | error e =>
    rw [hresult] at hbind
    refine of_runOn hbind fun b => ⟨nofun, fun ⟨a, ha, _⟩ => ?_⟩
    have hok := (hc.gives a).mpr ha
    rw [hresult] at hok
    cases hok
  | ok a =>
    have ha : p a := (hc.gives a).mp hresult
    rw [hresult] at hbind
    refine of_runOn (hbind.trans (Prod.ext rfl (hf a ha).kept)) fun b =>
      ((hf a ha).gives b).trans ⟨fun hb => ⟨a, ha, hb⟩, ?_⟩
    rintro ⟨a', ha', hb⟩
    have hok := (hc.gives a').mpr ha'
    rw [hresult] at hok
    cases hok
    exact hb

end Looks

section Loading

variable {α : Type} (d : Directory)

end Loading

/-! ### What is written -/

namespace Location

end Location

namespace Directory

variable {d d' : Directory} {path text : String} {l : Location}

end Directory

/-! ### The output -/

section Output

variable {d : Directory} (arguments : Arguments) (job : Job)

end Output

/-- A scene with settings beside it, a file that is no catalog, and an output from before. -/
def shotDirectory : Directory :=
  .ofFiles [("shots/hall.ron", "(name:\"Hall\")"), ("shots/vrscene_export.ron", "(animation:true)"),
    ("shots/extra.ron", "(plugins:"), ("hall.vrscene", "// before\n")]

/-- The arguments that export the scene. -/
def shotArguments : Arguments := ⟨"shots/hall.ron", "hall.vrscene", none, [], none⟩

end ShadeNet
