/-
# The built-in catalog

The plugins that the compiler writes of its own accord and a set of common
shading plugins.

Key definitions: `Catalog.builtin`.
-/
import ShadeNet.Schema.Catalog

namespace ShadeNet

namespace ParamDesc

/-- A parameter without a default. -/
def plain (attr : String) (type : ParamType) : ParamDesc := { attr, type }

/-- A parameter that is left out unless a value is supplied. -/
def skipped (attr : String) (type : ParamType) : ParamDesc := { attr, type, skip := true }

/-- A whole number with a default. -/
def ofInt (attr : String) (value : Int32) : ParamDesc :=
  { attr, type := .int, literal := some (.int value) }

/-- An index with a default. -/
def ofEnum (attr : String) (index : Int32) : ParamDesc :=
  { attr, type := .enum, literal := some (.enum index) }

/-- A switch with a default. -/
def ofBool (attr : String) (value : Bool) : ParamDesc :=
  { attr, type := .bool, literal := some (.bool value) }

/-- A number with a default. -/
def ofFloat (attr : String) (value : Single) : ParamDesc :=
  { attr, type := .float, literal := some (.float value) }

/-- A colour with a grey default. -/
def ofGrey (attr : String) (value : Single) : ParamDesc :=
  { attr, type := .color, literal := some (.color ⟨value, value, value⟩) }

/-- A path without a default. -/
def path (attr : String) (kind : PathKind) : ParamDesc :=
  { attr, type := .string, pathKind := some kind }

end ParamDesc

namespace Catalog

open ParamDesc

/-- Shading models. -/
def builtinBrdfs : List PluginDesc :=
  [⟨"BRDFDiffuse", .brdf, [
      ofGrey "color" (Single.ofRatio false 1 2),
      plain "color_tex" .texture,
      ofFloat "color_tex_mult" Single.one,
      ofGrey "transparency" (Single.zero false),
      plain "transparency_tex" .texture,
      ofFloat "roughness" (Single.zero false),
      ofBool "use_irradiance_map" true]⟩,
    ⟨"BRDFVRayMtl", .brdf, [
      plain "diffuse" .texture,
      plain "roughness" .floatTexture,
      plain "reflect" .texture,
      plain "reflect_glossiness" .floatTexture,
      plain "hilight_glossiness" .floatTexture,
      ofBool "fresnel" false,
      plain "fresnel_ior" .floatTexture,
      plain "refract" .texture,
      plain "refract_ior" .floatTexture,
      plain "opacity" .floatTexture,
      ofEnum "brdf_type" 1,
      ofInt "reflect_subdivs" 8,
      ofBool "option_reflect_on_back" false,
      skipped "environment_override" .texture]⟩,
    ⟨"BRDFLayered", .brdf, [
      plain "brdfs" .list,
      plain "weights" .list,
      plain "additive_mode" .bool,
      plain "transparency_tex" .texture]⟩]

/-- Materials. -/
def builtinMaterials : List PluginDesc :=
  [⟨"MtlSingleBRDF", .material, [
      plain "brdf" .brdf,
      ofBool "double_sided" true,
      ofBool "allow_negative_colors" false]⟩,
    ⟨"MtlMulti", .material, [
      plain "mtls_list" .list,
      plain "ids_list" .listInt,
      plain "mtlid_gen_float" .floatTexture]⟩]

/-- Textures and what they read. -/
def builtinTextures : List PluginDesc :=
  [⟨"TexAColor", .texture, [
      plain "texture" .aColor,
      plain "uvwgen" .uvwgen]⟩,
    ⟨"TexLayered", .texture, [
      plain "textures" .list,
      plain "weights" .listFloat,
      plain "alpha" .floatTexture]⟩,
    ⟨"TexBitmap", .texture, [
      plain "bitmap" .plugin,
      plain "uvwgen" .uvwgen,
      plain "color_mult" .texture,
      ofEnum "placement_type" 0,
      ofEnum "tile" 1,
      skipped "nouvw_color" .aColor,
      plain "out_color" .outputTexture,
      plain "out_alpha" .outputFloatTexture,
      plain "out_intensity" .outputFloatTexture]⟩,
    ⟨"BitmapBuffer", .texture, [
      path "file" .file,
      ofFloat "gamma" Single.one,
      ofEnum "filter_type" 1,
      ofFloat "filter_blur" Single.one,
      ofEnum "color_space" 1]⟩,
    ⟨"TexChecker", .texture, [
      plain "uvwgen" .uvwgen,
      plain "white_color" .texture,
      plain "black_color" .texture,
      ofFloat "contrast" Single.one,
      plain "out_color" .outputTexture]⟩,
    ⟨"TexDistance", .texture, [
      ofFloat "distance" Single.one,
      plain "near_tex" .texture,
      plain "far_tex" .texture,
      ofBool "inside_separate" false,
      plain "objects" .list,
      plain "out_color" .outputTexture]⟩,
    ⟨"TexMayaFluid", .texture, [
      path "cache_path" .directory,
      plain "transform" .transform,
      plain "out_flame" .outputFloatTexture,
      plain "out_density" .outputFloatTexture,
      plain "out_fuel" .outputFloatTexture]⟩,
    ⟨"UVWGenChannel", .uvwgen, [
      ofInt "uvw_channel" 1,
      plain "uvw_transform" .transform,
      ofInt "wrap_u" 0,
      ofInt "wrap_v" 0]⟩]

/-- Scene objects. -/
def builtinObjects : List PluginDesc :=
  [⟨"Node", .object, [
      plain "geometry" .geometry,
      plain "material" .material,
      plain "transform" .transform,
      ofInt "objectID" 0,
      ofBool "visible" true]⟩]

/-- The catalog that is there without any document. -/
def builtin : Catalog :=
  registerAll ⟨∅⟩ (builtinBrdfs ++ builtinMaterials ++ builtinTextures ++ builtinObjects)

end Catalog

end ShadeNet
