import MissionCatalog.Database.Basic

/-!
Building a mission database from a definition. The definition is laid out as a list of steps, in the
order in which its parts stand, and the steps are taken one by one; the first that cannot be taken is
the error. References are checked when everything is declared, so that order does not matter to them.
-/
namespace MissionCatalog

inductive Step where
  /-- A space system begins under the one named `parent`. -/
  | enter (name parent : String)
  | declare {k : MemberKind} (e : Entity k)

namespace SystemDefinition

def declarations (d : SystemDefinition) (qualified : String) : List Step :=
  MemberKind.all.flatMap fun k =>
    (d.members k).map fun m => .declare (Entity.ofDefinition qualified m)

/-- The node of the tree that a definition under `parent` describes. -/
def node (d : SystemDefinition) (parent : String) : SpaceSystem :=
  let qualified := Name.qualify parent d.head.name
  let names (k : MemberKind) := (d.members k).map fun m => Name.qualify qualified m.head.name
  { parent := some parent
    head := d.head
    version := d.version
    systems := d.systems.map fun s => Name.qualify qualified s.head.name
    parameterTypes := names .parameterType
    parameters := names .parameter
    containers := names .container
    commands := names .command
    algorithms := names .algorithm }

mutual

/-- The steps through a space system under `parent` and all below it. -/
def steps (parent : String) : SystemDefinition → List Step
  | d@⟨head, _, _, _, _, _, _, systems⟩ =>
    let qualified := Name.qualify parent head.name
    .enter head.name parent :: (d.declarations qualified ++ stepsOfList qualified systems)

def stepsOfList (parent : String) : List SystemDefinition → List Step
  | [] => []
  | d :: ds => d.steps parent ++ stepsOfList parent ds

end

mutual

/-- The nodes of a space system under `parent` and of all below it, the lower ones first. -/
def nodes (parent : String) : SystemDefinition → List SpaceSystem
  | d@⟨head, _, _, _, _, _, _, systems⟩ =>
    nodesOfList (Name.qualify parent head.name) systems ++ [d.node parent]

def nodesOfList (parent : String) : List SystemDefinition → List SpaceSystem
  | [] => []
  | d :: ds => d.nodes parent ++ nodesOfList parent ds

end

end SystemDefinition

namespace CatalogDefinition

def steps (d : CatalogDefinition) : List Step := SystemDefinition.stepsOfList "" d.systems

def root (d : CatalogDefinition) : SpaceSystem :=
  .root (d.systems.map fun s => Name.qualify "" s.head.name)

def nodes (d : CatalogDefinition) : List SpaceSystem :=
  d.root :: SystemDefinition.nodesOfList "" d.systems

end CatalogDefinition

def Members.take (m : Members) : Step → Except BuildError Members
  | .enter name parent =>
    if Name.isValid name then .ok m else .error (.badSystemName name parent)
  | @Step.declare k e =>
    if Name.isValid e.head.name then (m.table k).insert e |>.map (m.withTable k)
    else .error (.badMemberName e.head.name e.owner)

namespace Database

def unresolved? (db : Database) {k : MemberKind} (e : Entity k) : Option Reference :=
  e.references.find? fun r => !(db.table r.role.target).contains r.name

/-- The first member, by kind and qualified name, with a reference that leads nowhere. -/
def dangling? (db : Database) : Option BuildError :=
  MemberKind.all.findSome? fun k =>
    (db.table k).sorted.findSome? fun e =>
      (db.unresolved? e).map (.unknown e.qualifiedName)

def build (d : CatalogDefinition) : Except BuildError Database := do
  let members ← d.steps.foldlM Members.take .empty
  let systems ← d.nodes.foldlM Table.insert .empty
  let db : Database :=
    { name := d.name
      version := d.version
      root := d.root
      systems
      members
      users := .ofContainers (members.table .container).sorted }
  match db.dangling? with
  | some error => .error error
  | none => .ok db

end Database

end MissionCatalog
