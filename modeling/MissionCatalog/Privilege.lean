import MissionCatalog.Directory
import MissionCatalog.Json.Shape
import MissionCatalog.Kind

/-!
Who may see what. A user reads an entity with the privilege to read the whole catalog, or with a grant
for the entity's kind whose pattern covers its qualified name.
-/
namespace MissionCatalog

inductive SystemPrivilege where
  | readCatalog
deriving DecidableEq, Repr

inductive ObjectPrivilege where
  | readParameter
  | readAlgorithm
  | command
  | catalogAdmin
deriving DecidableEq, Repr

def ObjectPrivilege.forKind : Kind → ObjectPrivilege
  | .member .parameter => readParameter
  | .member .algorithm => readAlgorithm
  | .member .command => command
  | _ => catalogAdmin

/-- A privilege on one name, or on all names with a common beginning when the pattern ends in `*`. -/
structure Grant where
  kind : ObjectPrivilege
  pattern : String
deriving DecidableEq, Repr

def Grant.covers (g : Grant) (kind : ObjectPrivilege) (name : String) : Bool :=
  g.kind = kind &&
    match g.pattern.toList.reverse with
    | '*' :: start => start.reverse.isPrefixOf name.toList
    | _ => g.pattern == name

structure UserPrivileges where
  superuser : Bool
  system : List SystemPrivilege
  objects : List Grant
deriving DecidableEq, Repr

def UserPrivileges.none : UserPrivileges := ⟨false, [], []⟩

/-- The privileges of every user that has some, under the users' ids. -/
structure PrivilegeTable where
  users : Directory UserPrivileges
deriving Repr

/-- A user, with what the user may see. -/
structure Viewer where
  id : String
  /-- The user has the privilege to read the whole catalog. -/
  readsCatalog : Bool
  holds : ObjectPrivilege → String → Bool

def Viewer.hasAccess (v : Viewer) (kind : Kind) (name : String) : Bool :=
  v.readsCatalog || v.holds (.forKind kind) name

def anonymous : String := "anonymous"

namespace PrivilegeTable

def empty : PrivilegeTable := ⟨.empty⟩

def get (t : PrivilegeTable) (user : String) : UserPrivileges := (t.users.get? user).getD .none

def put (t : PrivilegeTable) (user : String) (p : UserPrivileges) : PrivilegeTable :=
  ⟨t.users.put user p⟩

def grant (t : PrivilegeTable) (user : String) (f : UserPrivileges → UserPrivileges) :
    PrivilegeTable := t.put user (f (t.get user))

def grantAll (t : PrivilegeTable) (user : String) : PrivilegeTable :=
  t.grant user fun p => { p with superuser := true }

def grantSystem (t : PrivilegeTable) (user : String) (s : SystemPrivilege) : PrivilegeTable :=
  t.grant user fun p =>
    { p with system := if p.system.contains s then p.system else p.system ++ [s] }

def grantObject (t : PrivilegeTable) (user : String) (g : Grant) : PrivilegeTable :=
  t.grant user fun p => { p with objects := p.objects ++ [g] }

def hasSystem (t : PrivilegeTable) (user : String) (s : SystemPrivilege) : Bool :=
  let p := t.get user
  p.superuser || p.system.contains s

def hasObject (t : PrivilegeTable) (user : String) (kind : ObjectPrivilege) (name : String) : Bool :=
  let p := t.get user
  p.superuser || p.objects.any (·.covers kind name)

def viewer (t : PrivilegeTable) (user : String) : Viewer where
  id := user
  readsCatalog := t.hasSystem user .readCatalog
  holds := t.hasObject user

end PrivilegeTable

namespace ObjectPrivilege

def all : List ObjectPrivilege := [readParameter, readAlgorithm, command, catalogAdmin]

def text : ObjectPrivilege → String
  | readParameter => "ReadParameter"
  | readAlgorithm => "ReadAlgorithm"
  | command => "Command"
  | catalogAdmin => "CatalogAdmin"

def ofText? (s : String) : Option ObjectPrivilege := all.find? (·.text = s)

end ObjectPrivilege

def SystemPrivilege.text : SystemPrivilege → String
  | readCatalog => "ReadCatalog"

def SystemPrivilege.ofText? (s : String) : Option SystemPrivilege :=
  if s = "ReadCatalog" then some .readCatalog else none

def Grant.toJson (g : Grant) : Json :=
  .object [("kind", .string g.kind.text), ("pattern", .string g.pattern)]

def Grant.ofJson (j : Json) : Json.Read Grant := do
  let fs ← j.asRecord ["kind", "pattern"]
  let kind ← fs.required "kind" (Json.asName ObjectPrivilege.ofText?)
  let pattern ← fs.required "pattern" Json.asString
  return { kind, pattern }

def UserPrivileges.toJson (p : UserPrivileges) : Json :=
  .object [("superuser", .bool p.superuser), ("system", .ofStrings (p.system.map (·.text))),
    ("objects", .array (p.objects.map Grant.toJson))]

def UserPrivileges.ofJson (j : Json) : Json.Read UserPrivileges := do
  let fs ← j.asRecord ["superuser", "system", "objects"]
  let superuser ← fs.withDefault "superuser" false Json.asBool
  let system ← fs.list "system" (Json.asName SystemPrivilege.ofText?)
  let objects ← fs.list "objects" Grant.ofJson
  return { superuser, system := system.eraseDups, objects }

def PrivilegeTable.toJson (t : PrivilegeTable) : Json :=
  .object (t.users.entries.map fun (user, p) => (user, p.toJson))

/-- An object with a field for every user; of two fields for one user the later counts. -/
def PrivilegeTable.ofJson : Json → Json.Read PrivilegeTable
  | .object fields =>
    fields.foldlM (fun t (user, j) => (UserPrivileges.ofJson j).map (t.put user)) empty
  | j => .error j.unexpected

end MissionCatalog
