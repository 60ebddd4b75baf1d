import MissionCatalog.Details

/-!
Catalog definitions: trees of space systems with the members declared in each. Names and references
are as written, relative to the space system they stand in.
-/
namespace MissionCatalog

structure MemberDefinition (k : MemberKind) where
  head : Head
  details : k.Details

structure SystemDefinition where
  head : Head
  version : Option String
  parameterTypes : List (MemberDefinition .parameterType)
  parameters : List (MemberDefinition .parameter)
  containers : List (MemberDefinition .container)
  commands : List (MemberDefinition .command)
  algorithms : List (MemberDefinition .algorithm)
  systems : List SystemDefinition

structure CatalogDefinition where
  name : String
  version : Option String
  systems : List SystemDefinition

def SystemDefinition.members (d : SystemDefinition) :
    (k : MemberKind) → List (MemberDefinition k)
  | .parameterType => d.parameterTypes
  | .parameter => d.parameters
  | .container => d.containers
  | .command => d.commands
  | .algorithm => d.algorithms

end MissionCatalog
