import MissionCatalog.Database.Basic

/-!
Scopes of listings. Without a query a space system shows its own members and offers its children for
navigation; with a query it shows everything below it.
-/
namespace MissionCatalog

/-- Which children of a scope are offered for navigation. -/
inductive ChildRule where
  /-- Those with a candidate in them, at any depth. -/
  | withCandidates
  /-- Those with a container in them, at any depth. -/
  | withContainers
deriving DecidableEq, Repr

structure Scoped (α : Type) where
  items : List α
  systems : List String
deriving Repr

def Entity.isWithin {k : MemberKind} (e : Entity k) (system : String) : Bool :=
  e.owner == system || Name.isUnder e.owner system

namespace Database

variable {k : MemberKind}

def isOffered (db : Database) (rule : ChildRule) (candidates : List (Entity k))
    (child : SpaceSystem) : Bool :=
  match rule with
  | .withCandidates => candidates.any (·.isWithin child.qualifiedName)
  | .withContainers => 0 < db.containerCount child

/-- The children of a scope that are offered for navigation, in ascending order. -/
def offered (db : Database) (rule : ChildRule) (candidates : List (Entity k))
    (scope : SpaceSystem) : List String :=
  (((scope.systems.filterMap db.system?).filter (db.isOffered rule candidates)).map
    SpaceSystem.qualifiedName).mergeSort

/-- The candidates that a scope shows. Without a scope all are shown. -/
def restrict (db : Database) (candidates : List (Entity k)) (scope : Option SpaceSystem)
    (hasQuery : Bool) (rule : ChildRule) : Scoped (Entity k) :=
  match scope with
  | none => ⟨candidates, []⟩
  | some scope =>
    if hasQuery then ⟨candidates.filter fun e => Name.isUnder e.qualifiedName scope.qualifiedName, []⟩
    else
      ⟨candidates.filter fun e => e.owner == scope.qualifiedName,
        db.offered rule candidates scope⟩

end Database

end MissionCatalog
