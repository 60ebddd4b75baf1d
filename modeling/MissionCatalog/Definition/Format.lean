import MissionCatalog.DataType.Format
import MissionCatalog.Definition.Basic
import MissionCatalog.Json.Reader
import MissionCatalog.Json.Writer

/-!
The JSON form of catalog definitions. Writing spells out every field; reading supplies the defaults.
A head's fields stand among those of its member, so that members and space systems are read as open
records.
-/
namespace MissionCatalog
open Json

def Head.fieldNames : List String := ["name", "description", "longDescription", "aliases"]

def Head.toFields (h : Head) : Fields :=
  [("name", .string h.name), ("description", .ofOption h.description),
    ("longDescription", .ofOption h.longDescription),
    ("aliases", .array (h.aliases.map ObjectId.toJson))]

def Head.ofFields (fs : Fields) : Read Head := do
  let name ← fs.required "name" asString
  let description ← fs.optional "description" asString
  let longDescription ← fs.optional "longDescription" asString
  let aliases ← fs.list "aliases" ObjectId.ofJson
  return { name, description, longDescription, aliases }

def DataSource.toJson (d : DataSource) : Json := .string d.text

def DataSource.ofJson : Json → Read DataSource := asName ofText?

def AlgorithmScope.toJson (a : AlgorithmScope) : Json := .string a.text

def AlgorithmScope.ofJson : Json → Read AlgorithmScope := asName ofText?

def ContainerEntry.toJson : ContainerEntry → Json
  | parameter name => .object [("parameter", .string name)]
  | container name => .object [("container", .string name)]

/-- An entry is an object with exactly one key. -/
def ContainerEntry.ofJson : Json → Read ContainerEntry
  | .object [("parameter", v)] => v.asString.map parameter
  | .object [("container", v)] => v.asString.map container
  | j => .error j.unexpected

def Argument.toJson (a : Argument) : Json :=
  .object <| ("name", .string a.name) :: field? "description" (a.description.map .string) ++
    [("type", .string a.type)] ++ field? "initialValue" (a.initialValue.map .string)

def Argument.ofJson (j : Json) : Read Argument := do
  let fs ← j.asRecord ["name", "description", "type", "initialValue"]
  let name ← fs.required "name" asString
  let description ← fs.optional "description" asString
  let type ← fs.required "type" asString
  let initialValue ← fs.optional "initialValue" asString
  return { name, description, type, initialValue }

namespace MemberKind

def detailNames : MemberKind → List String
  | .parameterType => ["units", "type"]
  | .parameter => ["type", "dataSource"]
  | .container => ["baseContainer", "archivePartition", "sizeInBits", "entries"]
  | .command => ["baseCommand", "abstract", "significance", "arguments"]
  | .algorithm => ["scope", "language", "text", "inputParameters", "outputParameters"]

def detailsToFields : (k : MemberKind) → k.Details → Fields
  | .parameterType, d => [("units", .ofOption d.units), ("type", d.dataType.toJson)]
  | .parameter, d =>
    [("type", .ofOption d.type), ("dataSource", (d.source.map DataSource.toJson).getD .null)]
  | .container, d =>
    [("baseContainer", .ofOption d.base), ("archivePartition", .bool d.archivePartition),
      ("sizeInBits", (d.sizeInBits.map fun n => .ofNat n.toNat).getD .null),
      ("entries", .array (d.entries.map ContainerEntry.toJson))]
  | .command, d =>
    [("baseCommand", .ofOption d.base), ("abstract", .bool d.isAbstract),
      ("significance", .ofOption d.significance),
      ("arguments", .array (d.arguments.map Argument.toJson))]
  | .algorithm, d =>
    [("scope", d.scope.toJson), ("language", .ofOption d.language), ("text", .ofOption d.text),
      ("inputParameters", .ofStrings d.inputs), ("outputParameters", .ofStrings d.outputs)]

def detailsOfFields (fs : Fields) : (k : MemberKind) → Read k.Details
  | .parameterType => do
    let units ← fs.optional "units" asString
    let dataType ← fs.required "type" DataType.ofJson
    return { units, dataType }
  | .parameter => do
    let type ← fs.optional "type" asString
    let source ← fs.optional "dataSource" DataSource.ofJson
    return { type, source }
  | .container => do
    let base ← fs.optional "baseContainer" asString
    let archivePartition ← fs.withDefault "archivePartition" false asBool
    let sizeInBits ← fs.optional "sizeInBits" asUInt32
    let entries ← fs.list "entries" ContainerEntry.ofJson
    return { base, archivePartition, sizeInBits, entries }
  | .command => do
    let base ← fs.optional "baseCommand" asString
    let isAbstract ← fs.withDefault "abstract" false asBool
    let significance ← fs.optional "significance" asString
    let arguments ← fs.list "arguments" Argument.ofJson
    return { base, isAbstract, significance, arguments }
  | .algorithm => do
    let scope ← fs.withDefault "scope" .global AlgorithmScope.ofJson
    let language ← fs.optional "language" asString
    let text ← fs.optional "text" asString
    let inputs ← fs.list "inputParameters" asString
    let outputs ← fs.list "outputParameters" asString
    return { scope, language, text, inputs, outputs }

end MemberKind

namespace MemberDefinition

def toJson {k : MemberKind} (d : MemberDefinition k) : Json :=
  .object (d.head.toFields ++ k.detailsToFields d.details)

def ofJson {k : MemberKind} (j : Json) : Read (MemberDefinition k) := do
  let fs ← j.asOpenRecord k.detailNames Head.fieldNames
  let head ← Head.ofFields fs
  let details ← k.detailsOfFields fs
  return { head, details }

end MemberDefinition

namespace SystemDefinition

def fieldNames : List String :=
  ["version", "parameterTypes", "parameters", "containers", "commands", "algorithms", "spaceSystems"]

mutual

def toJson : SystemDefinition → Json
  | ⟨head, version, types, parameters, containers, commands, algorithms, systems⟩ =>
    .object <| head.toFields ++ [("version", .ofOption version),
      ("parameterTypes", .array (types.map MemberDefinition.toJson)),
      ("parameters", .array (parameters.map MemberDefinition.toJson)),
      ("containers", .array (containers.map MemberDefinition.toJson)),
      ("commands", .array (commands.map MemberDefinition.toJson)),
      ("algorithms", .array (algorithms.map MemberDefinition.toJson)),
      ("spaceSystems", .array (listToJson systems))]

def listToJson : List SystemDefinition → List Json
  | [] => []
  | d :: ds => d.toJson :: listToJson ds

end

/-- Reads a space system that is nested less than `fuel` deep. -/
def ofJsonWithin (fuel : Nat) (j : Json) : Read SystemDefinition :=
  match fuel with
  | 0 => .error .shape
  | fuel + 1 => do
    let fs ← j.asOpenRecord fieldNames Head.fieldNames
    let head ← Head.ofFields fs
    let version ← fs.optional "version" asString
    let parameterTypes ← fs.list "parameterTypes" MemberDefinition.ofJson
    let parameters ← fs.list "parameters" MemberDefinition.ofJson
    let containers ← fs.list "containers" MemberDefinition.ofJson
    let commands ← fs.list "commands" MemberDefinition.ofJson
    let algorithms ← fs.list "algorithms" MemberDefinition.ofJson
    let systems ← fs.list "spaceSystems" (ofJsonWithin fuel)
    return { head, version, parameterTypes, parameters, containers, commands, algorithms, systems }

def ofJson (j : Json) : Read SystemDefinition := ofJsonWithin (j.depth + 1) j

end SystemDefinition

namespace CatalogDefinition

def toJson (d : CatalogDefinition) : Json :=
  .object [("name", .string d.name), ("version", .ofOption d.version),
    ("spaceSystems", .array (SystemDefinition.listToJson d.systems))]

def ofJson (j : Json) : Read CatalogDefinition := do
  let fs ← j.asRecord ["name", "version", "spaceSystems"]
  let name ← fs.required "name" asString
  let version ← fs.optional "version" asString
  let systems ← fs.list "spaceSystems" SystemDefinition.ofJson
  return { name, version, systems }

def render (d : CatalogDefinition) : String := d.toJson.render

def parse? (text : String) : Option CatalogDefinition :=
  (Json.read? text).bind fun j => (ofJson j).toOption

end CatalogDefinition

end MissionCatalog
