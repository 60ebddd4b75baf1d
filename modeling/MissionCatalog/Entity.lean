import MissionCatalog.Definition.Basic
import MissionCatalog.Name

/-!
Entities of a mission database. A member knows the space system that owns it, and refers to others by
qualified names; a space system knows its parent, its children and its members by qualified names. An
entity's own qualified name follows from where it stands.
-/
namespace MissionCatalog

structure Entity (k : MemberKind) where
  /-- The qualified name of the space system that declares the entity. -/
  owner : String
  head : Head
  details : k.Details

abbrev ParameterType := Entity .parameterType
abbrev Parameter := Entity .parameter
abbrev Container := Entity .container
abbrev Command := Entity .command
abbrev Algorithm := Entity .algorithm

structure SpaceSystem where
  /-- The qualified name of the space system above; only the root has none. -/
  parent : Option String
  head : Head
  version : Option String
  systems : List String
  parameterTypes : List String
  parameters : List String
  containers : List String
  commands : List String
  algorithms : List String
deriving DecidableEq, Repr

namespace Entity

variable {k : MemberKind}

def qualifiedName (e : Entity k) : String := Name.qualify e.owner e.head.name

def ofDefinition (owner : String) (d : MemberDefinition k) : Entity k where
  owner
  head := d.head
  details := k.mapReferences (Name.absolute owner) d.details

def references (e : Entity k) : List Reference := k.references e.details

end Entity

namespace SpaceSystem

def qualifiedName (s : SpaceSystem) : String :=
  match s.parent with
  | some parent => Name.qualify parent s.head.name
  | none => ""

def isRoot (s : SpaceSystem) : Bool := s.qualifiedName == ""

def members (s : SpaceSystem) : MemberKind → List String
  | .parameterType => s.parameterTypes
  | .parameter => s.parameters
  | .container => s.containers
  | .command => s.commands
  | .algorithm => s.algorithms

/-- The root above the given space systems. It declares nothing itself. -/
def root (systems : List String) : SpaceSystem where
  parent := none
  head := ⟨"", none, none, []⟩
  version := none
  systems
  parameterTypes := []
  parameters := []
  containers := []
  commands := []
  algorithms := []

end SpaceSystem

def Head.aliasKeys (h : Head) : List Key := h.aliases.filterMap ObjectId.key?

/-- The keys of an entity: its aliases with a namespace, then its place and name. -/
def Entity.keys {k : MemberKind} (e : Entity k) : List Key :=
  e.head.aliasKeys ++ [⟨Name.canonicalNamespace e.owner, e.head.name⟩]

def SpaceSystem.keys (s : SpaceSystem) : List Key :=
  s.head.aliasKeys ++ s.parent.toList.map fun p => ⟨Name.canonicalNamespace p, s.head.name⟩

/-- What a table may hold. -/
class Declared (α : Type) where
  kind : Kind
  qualifiedName : α → String
  head : α → Head
  keys : α → List Key

instance {k : MemberKind} : Declared (Entity k) where
  kind := k
  qualifiedName := Entity.qualifiedName
  head := Entity.head
  keys := Entity.keys

instance : Declared SpaceSystem where
  kind := .spaceSystem
  qualifiedName := SpaceSystem.qualifiedName
  head := SpaceSystem.head
  keys := SpaceSystem.keys

end MissionCatalog
