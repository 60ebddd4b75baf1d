import MissionCatalog.Database.Format
import MissionCatalog.Page
import MissionCatalog.View

/-!
How entities are shown. There are three levels of detail, and each shows all that the one before it
shows. Where an entity mentions another it shows a link to it.
-/
namespace MissionCatalog
open Json

inductive Detail where
  | link
  | summary
  | full
deriving DecidableEq, Repr

/-- Listings show summaries unless details are asked for. -/
def Detail.ofListing (details : Bool) : Detail := if details then full else summary

def Detail.isFull (d : Detail) : Bool := d = full

structure Link where
  qualifiedName : String
  name : String
deriving DecidableEq, Repr

namespace Link

def ofName (qualifiedName : String) : Link := ⟨qualifiedName, Name.lastSegment qualifiedName⟩

def fields (l : Link) : Fields :=
  [("qualifiedName", .string l.qualifiedName), ("name", .string l.name)]

def toJson (l : Link) : Json := .object l.fields

end Link

/-- A field for a list, left out when the list is empty. -/
def listField (key : String) (items : List Json) : Fields :=
  if items.isEmpty then [] else [(key, .array items)]

/-- Fields that only the full projection has. -/
def Detail.whenFull (d : Detail) (fs : Fields) : Fields := if d.isFull then fs else []

/-- What is shown of every entity beside its names. -/
def Head.shown (h : Head) (d : Detail) : Fields :=
  listField "alias" (h.aliases.map ObjectId.toJson) ++
    field? "shortDescription" (h.description.map .string) ++
    d.whenFull (field? "longDescription" (h.longDescription.map .string))

def Entity.shown {k : MemberKind} (e : Entity k) (d : Detail) : Fields :=
  ("qualifiedName", .string e.qualifiedName) :: ("name", .string e.head.name) :: e.head.shown d

def usedBy (containers : List Container) : Fields :=
  [("usedBy", .object [("containers",
    .array (containers.map fun c => (Link.ofName c.qualifiedName).toJson))])]

def ParameterType.project (t : ParameterType) (d : Detail) : Json :=
  .object <| t.shown d ++ [("engType", .string t.details.dataType.typeName)] ++
    field? "units" (t.details.units.map .string) ++
    d.whenFull [("dataType", t.details.dataType.toJson)]

/-- A parameter, or the member of it that a path leads to. -/
def Parameter.project (db : Database) (p : Parameter) (path : Option MemberPath) (d : Detail) : Json :=
  let path := field? "path" (path.map fun path => .string path.text)
  if d = .link then .object ((Link.ofName p.qualifiedName).fields ++ path)
  else
    .object <| p.shown d ++
      field? "type" ((db.typeOf? p).map fun t => ParameterType.project t d) ++
      field? "dataSource" (p.details.source.map DataSource.toJson) ++ path ++
      d.whenFull (usedBy (db.containersWith (.parameter p.qualifiedName)))

def ContainerEntry.project : ContainerEntry → Json
  | parameter name => .object [("parameter", (Link.ofName name).toJson)]
  | container name => .object [("container", (Link.ofName name).toJson)]

def Container.project (db : Database) (c : Container) (d : Detail) : Json :=
  .object <| c.shown d ++
    field? "baseContainer" (c.details.base.map fun name => (Link.ofName name).toJson) ++
    [("archivePartition", .bool c.details.archivePartition)] ++
    field? "sizeInBits" (c.details.sizeInBits.map fun n => .ofNat n.toNat) ++
    d.whenFull (listField "entries" (c.details.entries.map ContainerEntry.project)) ++
    d.whenFull (usedBy (db.containersWith (.container c.qualifiedName)))

def Command.project (c : Command) (d : Detail) : Json :=
  .object <| c.shown d ++
    field? "baseCommand" (c.details.base.map fun name => (Link.ofName name).toJson) ++
    [("abstract", .bool c.details.isAbstract)] ++
    field? "significance" (c.details.significance.map .string) ++
    d.whenFull (listField "argument" (c.details.arguments.map Argument.toJson))

def Algorithm.project (a : Algorithm) (d : Detail) : Json :=
  .object <| a.shown d ++ [("scope", a.details.scope.toJson)] ++
    field? "language" (a.details.language.map .string) ++
    d.whenFull (field? "text" (a.details.text.map .string)) ++
    d.whenFull (listField "inputParameter" (a.details.inputs.map fun n => (Link.ofName n).toJson)) ++
    d.whenFull (listField "outputParameter" (a.details.outputs.map fun n => (Link.ofName n).toJson))

def SpaceSystem.project (s : SpaceSystem) (d : Detail) : Json :=
  .object <| ("qualifiedName", .string s.qualifiedName) :: ("name", .string s.head.name) ::
    s.head.shown d ++ field? "version" (s.version.map .string) ++
    listField "subSystem" (s.systems.mergeSort.map fun name => (Link.ofName name).toJson)

def ParameterMatch.project (db : Database) (m : ParameterMatch) (d : Detail) : Json :=
  Parameter.project db m.parameter m.path d

def ParameterRef.project (db : Database) (r : ParameterRef) (d : Detail) : Json :=
  Parameter.project db r.parameter r.path d

def Summary.toJson (s : Summary) : Json :=
  .object <| ("name", .string s.db.name) :: field? "version" (s.db.version.map .string) ++
    s.db.countFields ++ [("spaceSystems", .ofStrings s.systems)]

end MissionCatalog
