/-!
The structure of parameter values: scalars, aggregates of named members, and arrays.
-/
namespace MissionCatalog

structure EnumLabel where
  value : Int64
  label : String
deriving DecidableEq

mutual

inductive DataType where
  | integer (signed : Bool) (sizeInBits : UInt32)
  | float (sizeInBits : UInt32)
  | boolean
  | text
  | binary
  | enumeration (labels : List EnumLabel)
  | time
  | aggregate (members : List Member)
  | array (dimensions : UInt64) (element : DataType)

structure Member where
  name : String
  description : Option String
  type : DataType

end

namespace DataType

/-- The name by which listings select types. -/
def typeName : DataType → String
  | integer .. => "integer"
  | float .. => "float"
  | boolean => "boolean"
  | text => "string"
  | binary => "binary"
  | enumeration .. => "enumeration"
  | time => "time"
  | aggregate .. => "aggregate"
  | array .. => "array"

/-- The first member of that name. Only aggregates have members. -/
def member? (name : String) : DataType → Option Member
  | aggregate members => members.find? (·.name = name)
  | _ => none

end DataType

end MissionCatalog
