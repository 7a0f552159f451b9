/-
# Settings are read back

Settings may be given in part: a document that stands for some of their fields, in any order, gives
settings that have these fields and the defaults elsewhere. What settings are saved as is one such
document, with all of the fields. What a document stands for is up to a grammar, and all that is
asked of the format is that it follows the grammar in what it writes and in what it reads.

Key definitions: `Settings.fields`, `Settings.part`, `Settings.only`.
Key theorem: `settings_read_back`.
-/
import ShadeNet.Document.Settings
import ShadeNet.Proofs.ReadItem

namespace ShadeNet

namespace Settings

open Document

/-- The fields of settings, by the names that they have in a document. -/
def fields (s : Settings) : Fields := [
  ("frame_current", .int s.frame),
  ("animation", .bool s.animation),
  ("auto_meshes", .bool s.autoMeshes),
  ("material_override", .ofOption .text s.overrideMaterial),
  ("check_paths", .bool s.checkPaths),
  ("base_dir", .ofOption .text s.baseDir)]

/-- The names of the fields. -/
def fieldNames : List String :=
  ["frame_current", "animation", "auto_meshes", "material_override", "check_paths", "base_dir"]

/-- The given fields of settings, in the order in which they are given. -/
def part (s : Settings) (given : List String) : Data :=
  .struct "ExportSettings" (given.filterMap fun name => s.fields.find? (·.1 = name))

/-- The settings that have the given fields and the defaults elsewhere. -/
def only (s : Settings) (given : List String) : Settings where
  frame := if "frame_current" ∈ given then s.frame else 1
  animation := if "animation" ∈ given then s.animation else false
  autoMeshes := if "auto_meshes" ∈ given then s.autoMeshes else true
  overrideMaterial := if "material_override" ∈ given then s.overrideMaterial else none
  checkPaths := if "check_paths" ∈ given then s.checkPaths else false
  baseDir := if "base_dir" ∈ given then s.baseDir else none

theorem part_all (s : Settings) : s.part fieldNames = s.toData := rfl

theorem only_all (s : Settings) : s.only fieldNames = s := rfl

variable {s : Settings} {given : List String}

theorem find?_fields {name : String} (h : name ∈ fieldNames) :
    ∃ f, f.1 = name ∧ s.fields.find? (·.1 = name) = some f := by
  simp only [fieldNames, List.mem_cons, List.not_mem_nil, or_false] at h
  rcases h with rfl | rfl | rfl | rfl | rfl | rfl <;> exact ⟨_, rfl, rfl⟩

theorem names_part (hknown : given ⊆ fieldNames) :
    (given.filterMap fun name => s.fields.find? (·.1 = name)).map Prod.fst = given := by
  induction given with
  | nil => rfl
  | cons name given ih =>
    obtain ⟨hname, hgiven⟩ := List.cons_subset.mp hknown
    obtain ⟨f, rfl, hfind⟩ := find?_fields (s := s) hname
    simp [hfind, ih hgiven]

theorem mem_fields_of_part {f : String × Data}
    (h : f ∈ given.filterMap fun name => s.fields.find? (·.1 = name)) : f ∈ s.fields := by
  obtain ⟨name, -, hfind⟩ := List.mem_filterMap.mp h
  exact List.mem_of_find?_eq_some hfind

/-- Every field is of its shape. -/
theorem fitEach_fields (s : Settings) : FitEach
    [("frame_current", .int), ("animation", .bool), ("auto_meshes", .bool),
      ("material_override", .option .text), ("check_paths", .bool), ("base_dir", .option .text)]
    s.fields := by
  have htext := fun o => (keeps_optionText o).fits
  simp [FitEach, fields, Shape.Fits.int, Shape.Fits.bool, htext]

/-- Some of the fields are data of settings. -/
theorem fits_part (hnodup : given.Nodup) (hknown : given ⊆ fieldNames) :
    shape.Fits (s.part given) := by
  have hnames := names_part (s := s) hknown
  refine .struct (by decide) ⟨by decide, hnames.symm ▸ hnodup, fun f hf => ?_⟩ fun f hf => ?_
  · have hmem : f.1 ∈ given := by
      rw [← hnames]
      exact List.mem_map_of_mem hf
    exact hknown hmem
  · exact (fits_fields (by decide) s.fitEach_fields).2 f (mem_fields_of_part hf)

end Settings

namespace Document

variable {α : Type}

/-- A field has its value where it is given and its default elsewhere. -/
theorem Fields.getOr_eq {fields : Fields} {name : String} {absent a : α} {make : Data → Option α}
    (hnodup : (fields.map Prod.fst).Nodup)
    (h : ∀ data, (name, data) ∈ fields → make data = some a) :
    fields.getOr name absent make = some (if name ∈ fields.map Prod.fst then a else absent) := by
  unfold getOr
  split
  · rename_i hnone
    rw [if_neg]
    intro hmem
    obtain ⟨f, hf, rfl⟩ := List.mem_map.mp hmem
    rw [OrderedMap.lookupEntry_of_mem hnodup hf] at hnone
    cases hnone
  · rename_i data hsome
    have hmem := OrderedMap.mem_of_lookupEntry hsome
    rw [if_pos (List.mem_map_of_mem hmem), h data hmem]

end Document

namespace Settings

open Document

variable {s : Settings} {given : List String}

/-- Of some of the fields settings are made that have these fields and the defaults elsewhere. -/
theorem ofData?_part (hnodup : given.Nodup) (hknown : given ⊆ fieldNames) :
    ofData? (s.part given) = some (s.only given) := by
  have hnames := names_part (s := s) hknown
  -- each field has one value in the document, if it is there
  have hread : ∀ (name : String) {β : Type} {make : Data → Option β} {data : Data} {b absent : β},
      (∀ other, (name, other) ∈ s.fields → other = data) → make data = some b →
        Fields.getOr (given.filterMap fun name => s.fields.find? (·.1 = name)) name absent make =
          some (if name ∈ given then b else absent) := by
    intro name β make data b absent hdata hmakes
    rw [Fields.getOr_eq (hnames.symm ▸ hnodup) fun other hother => by
      rw [hdata other (mem_fields_of_part hother), hmakes], hnames]
  have htext : ∀ o, Data.option? Data.text? (.ofOption .text o) = some o := fun o =>
    (keeps_optionText o).makes
  have hframe := @hread "frame_current" _ Data.int? (.int s.frame) s.frame 1
    (by simp [fields]) rfl
  have hanimation := @hread "animation" _ Data.bool? (.bool s.animation) s.animation false
    (by simp [fields]) rfl
  have hmeshes := @hread "auto_meshes" _ Data.bool? (.bool s.autoMeshes) s.autoMeshes true
    (by simp [fields]) rfl
  have hmaterial := @hread "material_override" _ _ _ _ none (by simp [fields])
    (htext s.overrideMaterial)
  have hpaths := @hread "check_paths" _ Data.bool? (.bool s.checkPaths) s.checkPaths false
    (by simp [fields]) rfl
  have hdir := @hread "base_dir" _ _ _ _ none (by simp [fields]) (htext s.baseDir)
  simp only [ofData?, part, Data.fields?, Option.bind_eq_bind, Option.bind_some, hframe,
    hanimation, hmeshes, hmaterial, hpaths, hdir]
  rfl

/-- **Settings are read back.** What they are saved as is read as the settings. Any of their fields
can be given alone, in any order: a document that stands for just these fields is read as settings
that have them and the defaults elsewhere, whatever the texts in them are. What documents stand for
is up to a grammar that the format follows. -/
theorem settings_read_back {ron : Ron} {grammar : Data → String → Prop}
    (hron : ron.Follows grammar) (s : Settings) :
    read? ron (s.write ron) = some s ∧
      ∀ given : List String, given.Nodup → given ⊆ fieldNames →
        ∀ document, grammar (s.part given) document →
          read? ron document = some (s.only given) := by
  have hpart : ∀ given : List String, given.Nodup → given ⊆ fieldNames → ∀ document,
      grammar (s.part given) document → read? ron document = some (s.only given) := by
    intro given hnodup hknown document hdocument
    have hread := hron.reads shape _ document (by decide) (fits_part hnodup hknown) hdocument
    rw [read?, hread, Option.bind_some, ofData?_part hnodup hknown]
  refine ⟨?_, hpart⟩
  have hnodup : fieldNames.Nodup := by decide
  have hknown : fieldNames ⊆ fieldNames := List.Subset.refl _
  have hwritten := hron.writes true shape (s.part fieldNames) (by decide) (fits_part hnodup hknown)
  have hall := hpart fieldNames hnodup hknown _ hwritten
  rwa [part_all, only_all] at hall

/-- Settings with texts that look like documents. -/
def tricky : Settings where
  frame := -24
  overrideMaterial := some "Some(\"Clay\"),\n// \\u\x7b41\x7d"
  baseDir := some "C:\\\x00\u0301"

/-- Two of the fields are given, the last one first, and the others have their defaults. -/
theorem settings_read_back_tricky :
    ron.Follows StandsFor ∧ read? ron (tricky.write ron) = some tricky ∧
      ["base_dir", "frame_current"].Nodup ∧ ["base_dir", "frame_current"] ⊆ fieldNames ∧
      StandsFor (tricky.part ["base_dir", "frame_current"])
        (ron.write false (tricky.part ["base_dir", "frame_current"])) ∧
      read? ron (ron.write false (tricky.part ["base_dir", "frame_current"])) =
        some { frame := -24, baseDir := some "C:\\\x00\u0301" } := by
  have hnodup : ["base_dir", "frame_current"].Nodup := by decide
  have hknown : ["base_dir", "frame_current"] ⊆ fieldNames := by decide
  obtain ⟨hall, hpart⟩ := settings_read_back ron_follows tricky
  have hstands := ron_follows.writes false shape (tricky.part ["base_dir", "frame_current"])
    (by decide) (fits_part hnodup hknown)
  exact ⟨ron_follows, hall, hnodup, hknown, hstands, hpart _ hnodup hknown _ hstands⟩

end Settings

end ShadeNet
