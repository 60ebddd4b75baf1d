import MissionCatalog.Database.Users
import MissionCatalog.Table

/-!
Mission databases: the tree of space systems and a table of members for every kind. The tree is held
as names and walked by looking them up.
-/
namespace MissionCatalog

structure Members where
  parameterTypes : Table ParameterType
  parameters : Table Parameter
  containers : Table Container
  commands : Table Command
  algorithms : Table Algorithm

namespace Members

def empty : Members := ⟨.empty, .empty, .empty, .empty, .empty⟩

def table (m : Members) : (k : MemberKind) → Table (Entity k)
  | .parameterType => m.parameterTypes
  | .parameter => m.parameters
  | .container => m.containers
  | .command => m.commands
  | .algorithm => m.algorithms

def withTable (m : Members) : (k : MemberKind) → Table (Entity k) → Members
  | .parameterType, t => { m with parameterTypes := t }
  | .parameter, t => { m with parameters := t }
  | .container, t => { m with containers := t }
  | .command, t => { m with commands := t }
  | .algorithm, t => { m with algorithms := t }

@[simp] theorem table_withTable (m : Members) (k : MemberKind) (t : Table (Entity k)) :
    (m.withTable k t).table k = t := by cases k <;> rfl

theorem table_withTable_of_ne (m : Members) {k l : MemberKind} (h : l ≠ k) (t : Table (Entity k)) :
    (m.withTable k t).table l = m.table l := by
  cases k <;> cases l <;> first | rfl | exact absurd rfl h

end Members

structure Database where
  name : String
  version : Option String
  root : SpaceSystem
  /-- The root among them. -/
  systems : Table SpaceSystem
  members : Members
  users : UserIndex

namespace Database

def table (db : Database) (k : MemberKind) : Table (Entity k) := db.members.table k

def system? (db : Database) (name : String) : Option SpaceSystem := db.systems.get? name

def typeOf? (db : Database) (p : Parameter) : Option ParameterType :=
  p.details.type.bind (db.table .parameterType).get?

/-- The containers that have the entry, in the order of their qualified names. -/
def containersWith (db : Database) (entry : ContainerEntry) : List Container :=
  (db.users.having entry).filterMap (db.table .container).get?

/-- The first `steps` space systems on the way up from the named one, without the root. -/
def ancestorsWithin (db : Database) (steps : Nat) (name : String) : List SpaceSystem :=
  match steps with
  | 0 => []
  | steps + 1 =>
    match db.system? name with
    | none => []
    | some s =>
      if s.isRoot then []
      else
        s :: match s.parent with
          | some parent => db.ancestorsWithin steps parent
          | none => []

/-- The space systems from the named one up to, and without, the root. No walk passes more space
systems than there are, so their number bounds the steps. -/
def ancestors (db : Database) (name : String) : List SpaceSystem :=
  db.ancestorsWithin db.systems.size name

/-- The number of containers in the space system and in `steps` levels below it. -/
def containerCountWithin (db : Database) (steps : Nat) (s : SpaceSystem) : Nat :=
  s.containers.length +
    match steps with
    | 0 => 0
    | steps + 1 =>
      ((s.systems.filterMap db.system?).map (db.containerCountWithin steps)).sum

/-- The number of containers in the space system and below it. -/
def containerCount (db : Database) (s : SpaceSystem) : Nat :=
  db.containerCountWithin db.systems.size s

end Database

end MissionCatalog
