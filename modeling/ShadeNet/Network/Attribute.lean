/-
# Attributes of a record

The record of a plugin lists the parameters of its schema by name, each with the
value from a link, from the node or from the schema. Which of the three, and
whether there is one at all, depends on the parameter alone.

Key definitions: `Pass.spellLiteral`, `Pass.spellResolved`, `Pass.spellParam`,
`Pass.pluginRecord`, `Pass.writePlugin`.
-/
import ShadeNet.Network.Pass
import ShadeNet.Text.Path

namespace ShadeNet

/-- What becomes of a parameter. -/
inductive Spelling
  /-- It is left out. -/
  | omitted
  /-- It is written with this value. -/
  | written (value : String)
  /-- It is left out because the file it names does not exist. -/
  | fileMissing (path : String)
deriving DecidableEq

namespace Spelling

/-- The value that is written. -/
def value? : Spelling → Option String
  | written value => some value
  | _ => none

/-- What is reported about a parameter. -/
def report? (attr : String) : Spelling → Option LogLine
  | fileMissing path => some (.fileMissing path attr)
  | _ => none

end Spelling

namespace Pass

/-- A text given for a parameter. An empty text is no value; a reference is
written as it is; a path is normalized and may have to exist, unless it is a
directory; all else is quoted. -/
def spellText (pass : Pass) (param : ParamDesc) (isPath : Bool) (text : String) : Spelling :=
  if text = "" then .omitted
  else if param.type.isReference then .written text
  else if param.isPath || isPath then
    let path := normalizePath text pass.settings.baseDir
    if pass.settings.checkPaths && param.pathKind != some .directory && !pass.fileExists path then
      .fileMissing path
    else .written (quote path)
  else .written (quote text)

/-- A literal given for a parameter. -/
def spellLiteral (pass : Pass) (param : ParamDesc) : Value → Spelling
  | .string text => pass.spellText param false text
  | .path text => pass.spellText param true text
  | value => .written (pass.literalText value)

/-- A resolved socket given for a parameter. -/
def spellResolved (pass : Pass) (param : ParamDesc) : Resolved → Spelling
  | .literal value => pass.spellLiteral param value
  | .reference token => if token = "" then .omitted else .written token
  | .objects tokens => if tokens = [] then .omitted else .written (listText .references tokens)

/-- A parameter of a record: outputs are never written, a supplied value wins, and
the node's literal comes before the one of the schema. -/
def spellParam (pass : Pass) (params : OrderedMap String Value)
    (supplied : OrderedMap String Resolved) (param : ParamDesc) : Spelling :=
  if param.type.isOutput then .omitted
  else match supplied.get? param.attr with
    | some resolved => pass.spellResolved param resolved
    | none =>
      if param.needsSupply then .omitted
      else match (params.get? param.attr).or param.literal with
        | some value => pass.spellLiteral param value
        | none => .omitted

/-- The record of plugin `desc` under an instance name. -/
def pluginRecord (pass : Pass) (desc : PluginDesc) (name : String)
    (params : OrderedMap String Value) (supplied : OrderedMap String Resolved) : Record where
  plugin := desc.id
  name := name
  category := desc.category
  attrs := desc.sortedParams.filterMap fun param =>
    (pass.spellParam params supplied param).value?.map fun value => (param.attr, value)

/-- What is reported while the record of plugin `desc` is put together. -/
def pluginReports (pass : Pass) (desc : PluginDesc) (params : OrderedMap String Value)
    (supplied : OrderedMap String Resolved) : List LogLine :=
  desc.sortedParams.filterMap fun param =>
    (pass.spellParam params supplied param).report? param.attr

/-- Writes the record of plugin `desc` under an instance name. -/
def writePlugin (pass : Pass) (desc : PluginDesc) (name : String)
    (params : OrderedMap String Value) (supplied : OrderedMap String Resolved) : Compile String := do
  (pass.pluginReports desc params supplied).forM report
  pass.emit (pass.pluginRecord desc name params supplied)

end Pass

end ShadeNet
