import MissionCatalog.Json.Shape

/-!
References to entities by a namespace and a name. Without a namespace the name is a qualified name.
-/
namespace MissionCatalog

structure ObjectId where
  name : String
  space? : Option String
deriving DecidableEq, Repr

namespace ObjectId

def text (id : ObjectId) : String :=
  match id.space? with
  | some ns => "\x7bnamespace: " ++ ns ++ ", name: " ++ id.name ++ "\x7d"
  | none => "\x7bname: " ++ id.name ++ "\x7d"

def toJson (id : ObjectId) : Json :=
  .object (("name", .string id.name) :: Json.field? "namespace" (id.space?.map .string))

def ofJson (j : Json) : Json.Read ObjectId := do
  let fs ← j.asRecord ["name", "namespace"]
  let name ← fs.required "name" Json.asString
  let space? ← fs.optional "namespace" Json.asString
  return { name, space? }

end ObjectId

/-- A namespace and a name under which an entity can be looked up. -/
structure Key where
  space : String
  name : String
deriving DecidableEq, Repr

/-- The key that an id names, unless it gives a qualified name. -/
def ObjectId.key? (id : ObjectId) : Option Key :=
  id.space?.map fun ns => ⟨ns, id.name⟩

end MissionCatalog
