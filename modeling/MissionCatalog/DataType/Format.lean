import MissionCatalog.DataType.Basic
import MissionCatalog.Json.Shape

/-!
The JSON form of data types: an object whose field `engType` names the type and whose other fields
describe it, or an array that begins with that name.
-/
namespace MissionCatalog

def EnumLabel.toJson (l : EnumLabel) : Json :=
  .object [("value", .int l.value.toInt), ("label", .string l.label)]

def EnumLabel.ofJson (j : Json) : Json.Read EnumLabel := do
  let fs ← j.asRecord ["value", "label"]
  let value ← fs.required "value" Json.asInt64
  let label ← fs.required "label" Json.asString
  return { value, label }

def Member.ofJsonWith (readType : Json → Json.Read DataType) (j : Json) : Json.Read Member := do
  let fs ← j.asRecord ["name", "description", "type"]
  let name ← fs.required "name" Json.asString
  let description ← fs.optional "description" Json.asString
  let type ← fs.required "type" readType
  return { name, description, type }

namespace DataType

mutual

def toJson : DataType → Json
  | integer signed bits =>
    .object [("engType", .string "integer"), ("signed", .bool signed),
      ("sizeInBits", .ofNat bits.toNat)]
  | float bits => .object [("engType", .string "float"), ("sizeInBits", .ofNat bits.toNat)]
  | boolean => .object [("engType", .string "boolean")]
  | text => .object [("engType", .string "string")]
  | binary => .object [("engType", .string "binary")]
  | enumeration labels =>
    .object [("engType", .string "enumeration"), ("values", .array (labels.map EnumLabel.toJson))]
  | time => .object [("engType", .string "time")]
  | aggregate members =>
    .object [("engType", .string "aggregate"), ("members", .array (membersToJson members))]
  | array dimensions element =>
    .object [("engType", .string "array"), ("dimensions", .ofNat dimensions.toNat),
      ("element", element.toJson)]

def membersToJson : List Member → List Json
  | [] => []
  | ⟨name, description, type⟩ :: rest =>
    .object (("name", .string name) :: Json.field? "description" (description.map .string) ++
      [("type", type.toJson)]) :: membersToJson rest

end

def tags : List String :=
  ["integer", "float", "boolean", "string", "binary", "enumeration", "time", "aggregate", "array"]

/-- The name of a type. Inside another type its number will do as well. -/
def tagOf (nested : Bool) : Json → Json.Read String
  | .string s => if tags.contains s then .ok s else .error .shape
  | .int n =>
    match if nested ∧ 0 ≤ n then tags[n.toNat]? else none with
    | some s => .ok s
    | none => .error .shape
  | j => .error j.unexpected

/-- The type's name and the value that describes it, which must not be flawed. -/
def splitTag (nested : Bool) : Json → Json.Read (String × Json)
  | .object fields =>
    match fields.partition (·.1 = "engType") with
    | ([(_, tag)], rest) => do
      let tag ← tagOf nested tag
      if Json.soundFields rest then return (tag, .object rest) else .error .flaw
    | _ => .error .shape
  | .array (tag :: rest) => do
    let tag ← tagOf nested tag
    if Json.soundItems rest then return (tag, .array rest) else .error .flaw
  | j => .error j.unexpected

/-- A type that needs no description. Fields are passed over, further items of an array are not. -/
def plain (type : DataType) (description : Json) : Json.Read DataType :=
  match description with
  | .array (_ :: _) => .error .shape
  | _ => .ok type

def ofJsonWithin (fuel : Nat) (nested : Bool) (j : Json) : Json.Read DataType :=
  match fuel with
  | 0 => .error .shape
  | fuel + 1 => do
    let (tag, body) ← splitTag nested j
    match tag with
    | "integer" =>
      let fs ← body.asRecord ["signed", "sizeInBits"]
      let signed ← fs.withDefault "signed" true Json.asBool
      let bits ← fs.withDefault "sizeInBits" 32 Json.asUInt32
      return .integer signed bits
    | "float" =>
      let fs ← body.asRecord ["sizeInBits"]
      let bits ← fs.withDefault "sizeInBits" 32 Json.asUInt32
      return .float bits
    | "boolean" => plain .boolean body
    | "string" => plain .text body
    | "binary" => plain .binary body
    | "enumeration" =>
      let fs ← body.asRecord ["values"]
      let labels ← fs.list "values" EnumLabel.ofJson
      return .enumeration labels
    | "time" => plain .time body
    | "aggregate" =>
      let fs ← body.asRecord ["members"]
      let members ← fs.required "members" (Json.asList (Member.ofJsonWith (ofJsonWithin fuel true)))
      return .aggregate members
    | _ =>
      let fs ← body.asRecord ["dimensions", "element"]
      let dimensions ← fs.withDefault "dimensions" 1 Json.asUInt64
      let element ← fs.required "element" (ofJsonWithin fuel true)
      return .array dimensions element

def ofJson (j : Json) : Json.Read DataType := ofJsonWithin (j.depth + 1) false j

end DataType

end MissionCatalog
