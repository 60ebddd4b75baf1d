import MissionCatalog.Database.Build
import MissionCatalog.Definition.Format

/-!
Databases as text: loading one from the text of its definition or from a file, and writing out all
that it holds.
-/
namespace MissionCatalog
open Json

namespace Database

def parse (text : String) : Except LoadError Database :=
  match CatalogDefinition.parse? text with
  | none => .error .noDefinition
  | some d => (build d).mapError .build

/-- Loads the database whose definition stands in a file. -/
def load (textOf? : String → Option String) (path : String) : Except LoadError Database :=
  match textOf? path with
  | none => .error (.noFile path)
  | some text => (parse text).mapError (.inFile path)

def countFields (db : Database) : Fields :=
  [("parameterCount", .ofNat (db.table .parameter).size),
    ("containerCount", .ofNat (db.table .container).size),
    ("commandCount", .ofNat (db.table .command).size),
    ("algorithmCount", .ofNat (db.table .algorithm).size),
    ("parameterTypeCount", .ofNat (db.table .parameterType).size)]

end Database

def Head.recordFields (h : Head) : Fields :=
  [("name", .string h.name), ("description", .ofOption h.description),
    ("long_description", .ofOption h.longDescription),
    ("aliases", .array (h.aliases.map ObjectId.toJson))]

def MemberKind.detailRecord : (k : MemberKind) → k.Details → Fields
  | .parameterType, d => [("units", .ofOption d.units), ("data_type", d.dataType.toJson)]
  | .parameter, d =>
    [("type_ref", .ofOption d.type), ("data_source", (d.source.map DataSource.toJson).getD .null)]
  | .container, d =>
    [("base_container", .ofOption d.base), ("archive_partition", .bool d.archivePartition),
      ("size_in_bits", (d.sizeInBits.map fun n => .ofNat n.toNat).getD .null),
      ("entries", .array (d.entries.map ContainerEntry.toJson))]
  | .command, d =>
    [("base_command", .ofOption d.base), ("is_abstract", .bool d.isAbstract),
      ("significance", .ofOption d.significance),
      ("arguments", .array (d.arguments.map Argument.toJson))]
  | .algorithm, d =>
    [("scope", d.scope.toJson), ("language", .ofOption d.language), ("text", .ofOption d.text),
      ("input_parameters", .ofStrings d.inputs), ("output_parameters", .ofStrings d.outputs)]

def Entity.record {k : MemberKind} (e : Entity k) : Json :=
  .object <| ("qualified_name", .string e.qualifiedName) :: ("space_system", .string e.owner) ::
    e.head.recordFields ++ k.detailRecord e.details

def SpaceSystem.record (s : SpaceSystem) : Json :=
  .object <| ("qualified_name", .string s.qualifiedName) :: s.head.recordFields ++
    [("version", .ofOption s.version), ("parent", .ofOption s.parent),
      ("sub_systems", .ofStrings s.systems), ("parameters", .ofStrings s.parameters),
      ("parameter_types", .ofStrings s.parameterTypes), ("containers", .ofStrings s.containers),
      ("commands", .ofStrings s.commands), ("algorithms", .ofStrings s.algorithms)]

namespace Database

def records (db : Database) (k : MemberKind) : Json :=
  .array ((db.table k).sorted.map Entity.record)

/-- For every member that is an entry of containers, the names of these containers. -/
def usersRecord (db : Database) (k : MemberKind) (entry : String → ContainerEntry) : Json :=
  .object <| (db.table k).sorted.filterMap fun e =>
    match db.containersWith (entry e.qualifiedName) with
    | [] => none
    | users => some (e.qualifiedName, .ofStrings (users.map Entity.qualifiedName))

def treeRecord (db : Database) : Json :=
  .array <| db.systems.sorted.map fun s =>
    .object [("name", .string s.qualifiedName),
      ("ancestors", .ofStrings ((db.ancestors s.qualifiedName).map SpaceSystem.qualifiedName)),
      ("containers", .array [.ofNat s.containers.length, .ofNat (db.containerCount s)])]

def record (db : Database) : Json :=
  .object [("name", .string db.name), ("version", .ofOption db.version),
    ("root", db.root.record), ("counts", .object db.countFields),
    ("spaceSystems", .array (db.systems.sorted.map SpaceSystem.record)),
    ("parameterTypes", db.records .parameterType), ("parameters", db.records .parameter),
    ("containers", db.records .container), ("commands", db.records .command),
    ("algorithms", db.records .algorithm),
    ("parameterUsers", db.usersRecord .parameter .parameter),
    ("containerUsers", db.usersRecord .container .container), ("tree", db.treeRecord)]

end Database

end MissionCatalog
