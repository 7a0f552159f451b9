/-
# What an export reports

Everything that an export remarks on while it runs, as causes; the wording of
each is in one place.

Key definitions: `LogLine`, `LogLine.level`, `LogLine.message`.
-/
import ShadeNet.Scene.Order
import ShadeNet.Schema.Check

namespace ShadeNet

/-- How much a report matters. -/
inductive LogLevel
  | info
  | warning
  | error
deriving DecidableEq

/-- The name of a level. -/
def LogLevel.name : LogLevel → String
  | info => "INFO"
  | warning => "WARN"
  | error => "ERROR"

/-- One report. -/
inductive LogLine
  | exporting (scene : String) (frame : Int32)
  | exported (frame : Int32) (records nodes : Nat)
  | overriding (token : String)
  | overrideWithoutTree (material : String)
  | schema (cause : SchemaError)
  | treeCycle (tree : String) (cause : CycleError)
  | writtenTwice (name : String)
  | sourceMissing (tree : String) (target : Endpoint) (source : String)
  | socketMissing (tree node socket : String)
  | pluginUnknown (tree node plugin : String)
  | textureLayerEmpty (tree socket node : String)
  | textureWithoutLayers (tree node : String)
  | brdfLayerEmpty (tree socket node : String)
  | brdfWithoutLayers (tree node : String)
  | geometryOutsideObject
  | objectWithoutMesh (object : String)
  | materialOutsideObject
  | materialOutputMissing (tree : String)
  | materialNotConnected (tree output : String)
  | materialEmpty (tree : String)
  | materialCycle (tree node : String)
  | objectBeingWritten (object : String)
  | objectTreeMissing (object tree : String)
  | objectOutputMissing (tree : String)
  | objectCycle (tree node : String)
  | objectPluginMissing
  | fileMissing (path attr : String)
  | loaded (path : String) (trees materials objects : Nat)
  | wrote (records : Nat) (path : String)
  | failed (cause : String)
deriving DecidableEq

namespace LogLine

/-- How much a report matters. -/
def level : LogLine → LogLevel
  | exporting _ _ | exported _ _ _ | overriding _ | loaded _ _ _ _ | wrote _ _ => .info
  | overrideWithoutTree _ | schema _ | treeCycle _ _ | textureLayerEmpty _ _ _
  | textureWithoutLayers _ _ | brdfLayerEmpty _ _ _ | brdfWithoutLayers _ _ | objectWithoutMesh _
  | objectBeingWritten _ => .warning
  | writtenTwice _ | sourceMissing _ _ _ | socketMissing _ _ _ | pluginUnknown _ _ _
  | geometryOutsideObject | materialOutsideObject | materialOutputMissing _
  | materialNotConnected _ _ | materialEmpty _ | materialCycle _ _ | objectTreeMissing _ _
  | objectOutputMissing _ | objectCycle _ _ | objectPluginMissing | fileMissing _ _
  | failed _ => .error

/-- The wording of a report. -/
def message : LogLine → String
  | exporting scene frame => "Exporting " ++ scene ++ " at frame " ++ toString frame.toInt
  | exported frame records nodes =>
    "Frame " ++ toString frame.toInt ++ ": " ++ toString records ++ " records from " ++
      toString nodes ++ " nodes"
  | overriding token => "Material override: " ++ token
  | overrideWithoutTree material => "Override material " ++ material ++ " has no node tree"
  | schema cause => cause.message
  | treeCycle tree cause => tree ++ ": " ++ cause.message
  | writtenTwice name => "Instance " ++ name ++ " written more than once"
  | sourceMissing tree target source =>
    tree ++ ": link into " ++ target.text ++ " starts at missing node " ++ source
  | socketMissing tree node socket =>
    tree ++ ": node " ++ node ++ " has no " ++ socket ++ " socket"
  | pluginUnknown tree node plugin =>
    tree ++ ": node " ++ node ++ " uses unknown plugin " ++ plugin
  | textureLayerEmpty tree socket node =>
    tree ++ ": layer " ++ socket ++ " of " ++ node ++ " produced no texture"
  | textureWithoutLayers tree node =>
    tree ++ ": layered texture " ++ node ++ " has no linked layers"
  | brdfLayerEmpty tree socket node =>
    tree ++ ": " ++ socket ++ " of " ++ node ++ " produced no shading model"
  | brdfWithoutLayers tree node => tree ++ ": layered BRDF " ++ node ++ " has no linked layers"
  | geometryOutsideObject => "Geometry output used outside an object"
  | objectWithoutMesh object => "Object " ++ object ++ " has no mesh"
  | materialOutsideObject => "Material output used outside an object"
  | materialOutputMissing tree => tree ++ ": output node not found"
  | materialNotConnected tree output =>
    tree ++ ": Material socket of " ++ output ++ " is not connected"
  | materialEmpty tree => tree ++ ": material output produced no material"
  | materialCycle tree node =>
    tree ++ ": cycle through node " ++ node ++ ", using the default material"
  | objectBeingWritten object =>
    "Object " ++ object ++ " reached while its record is being written"
  | objectTreeMissing object tree => "Object " ++ object ++ ": node tree " ++ tree ++ " not found"
  | objectOutputMissing tree => tree ++ ": object output node not found"
  | objectCycle tree node => tree ++ ": cycle through node " ++ node ++ ", object skipped"
  | objectPluginMissing => "Plugin type Node missing from the catalog"
  | fileMissing path attr => "File not found: " ++ path ++ " (" ++ attr ++ ")"
  | loaded path trees materials objects =>
    "Loaded " ++ path ++ ": " ++ toString trees ++ " trees, " ++ toString materials ++
      " materials, " ++ toString objects ++ " objects"
  | wrote records path => "Wrote " ++ toString records ++ " records to " ++ path
  | failed cause => "Export failed: " ++ cause

end LogLine

end ShadeNet
