/-
# Catalogs as documents

A catalog lists its plugins under names of its own, which need not be the names
that the descriptions give.

Key definitions: `Catalog.shape`, `Catalog.toData`, `Catalog.ofData?`,
`Catalog.text`, `Catalog.ofText?`.
-/
import ShadeNet.Document.Ron
import ShadeNet.Document.Value
import ShadeNet.Schema.Catalog

namespace ShadeNet

open Document

/-! ### Shapes -/

/-- The shape of a category. -/
def Category.shape : Shape := .names (Category.all.map Category.name)

/-- What a path may be a path of. -/
def PathKind.all : List PathKind := [.file, .directory]

/-- The shape of a parameter. -/
def ParamDesc.shape : Shape := .struct "ParamDesc" [
  ("attr", .text),
  ("param_type", .names (ParamType.all.map ParamType.name)),
  ("subtype", .option (.names (PathKind.all.map PathKind.name))),
  ("skip", .bool),
  ("default", .option Value.shape)]

/-- The shape of a plugin. -/
def PluginDesc.shape : Shape := .struct "PluginDesc" [
  ("id", .text),
  ("category", Category.shape),
  ("params", .list ParamDesc.shape)]

/-- The shape of a catalog. -/
def Catalog.shape : Shape := .struct "PluginCatalog" [("plugins", .map PluginDesc.shape)]

/-! ### Data of catalogs -/

/-- The data of a category. -/
def Category.toData (c : Category) : Data := .variant c.name

/-- The data of a parameter. -/
def ParamDesc.toData (p : ParamDesc) : Data := .struct "ParamDesc" [
  ("attr", .text p.attr),
  ("param_type", .variant p.type.name),
  ("subtype", .ofOption (fun k => .variant k.name) p.pathKind),
  ("skip", .bool p.skip),
  ("default", .ofOption Value.toData p.literal)]

/-- The data of a plugin. -/
def PluginDesc.toData (d : PluginDesc) : Data := .struct "PluginDesc" [
  ("id", .text d.id),
  ("category", d.category.toData),
  ("params", .ofList ParamDesc.toData d.params)]

/-- The data of a catalog. -/
def Catalog.toData (c : Catalog) : Data :=
  .struct "PluginCatalog" [("plugins", .ofMap PluginDesc.toData c.plugins)]

/-! ### Catalogs of data -/

/-- A category made of data. -/
def Category.ofData? : Data → Option Category := Data.choice? Category.all Category.name

/-- A parameter made of data. -/
def ParamDesc.ofData? (data : Data) : Option ParamDesc := do
  let fields ← data.fields?
  let attr ← fields.get "attr" Data.text?
  let type ← fields.get "param_type" (Data.choice? ParamType.all ParamType.name)
  let pathKind ← fields.getOr "subtype" none
    (Data.option? (Data.choice? PathKind.all PathKind.name))
  let skip ← fields.getOr "skip" false Data.bool?
  let literal ← fields.getOr "default" none (Data.option? Value.ofData?)
  some ⟨attr, type, pathKind, skip, literal⟩

/-- A plugin made of data. -/
def PluginDesc.ofData? (data : Data) : Option PluginDesc := do
  let fields ← data.fields?
  let id ← fields.get "id" Data.text?
  let category ← fields.get "category" Category.ofData?
  let params ← fields.get "params" (Data.list? ParamDesc.ofData?)
  some ⟨id, category, params⟩

/-- A catalog made of data. -/
def Catalog.ofData? (data : Data) : Option Catalog := do
  let fields ← data.fields?
  let plugins ← fields.get "plugins" (Data.map? PluginDesc.ofData?)
  some ⟨plugins⟩

/-- The document that keeps a catalog. -/
def Catalog.text (c : Catalog) : String := ron.write false c.toData

/-- The catalog of a document. -/
def Catalog.ofText? (document : String) : Option Catalog :=
  (ron.read? Catalog.shape document).bind Catalog.ofData?

end ShadeNet
