import MissionCatalog.Database.Basic
import MissionCatalog.MemberPath.Parser
import MissionCatalog.QueryError

/-!
From paths to entities. A path is a namespace, a slash and a name. The namespace is tried with a slash
in front, as space systems are named, and then as it is written, as aliases may be.
-/
namespace MissionCatalog

/-- An entity, and the id under which it was found. -/
structure Resolved (α : Type) where
  entity : α
  id : ObjectId
deriving Repr

/-- The keys that a namespace and a name may mean, the preferred one first. -/
def Key.candidates (ns name : String) : List Key := [⟨"/" ++ ns, name⟩, ⟨ns, name⟩]

namespace Table

variable {α : Type} [Declared α]

def lookup? (t : Table α) (ns name : String) : Option (Resolved α) :=
  (Key.candidates ns name).findSome? fun key =>
    (t.getByKey? key).map fun entity => ⟨entity, ⟨key.name, some key.space⟩⟩

def resolve (t : Table α) (path : String) : Except QueryError (Resolved α) :=
  match Name.split? path with
  | none => .error (.missingNamespace (Declared.kind α))
  | some (ns, name) =>
    if ns = "" then .error (.missingNamespace (Declared.kind α))
    else
      match t.lookup? ns name with
      | some found => .ok found
      | none => .error (.noSuch (Declared.kind α))

end Table

structure ParameterRef where
  parameter : Parameter
  /-- The id that was found, with the member path behind its name. -/
  id : ObjectId
  path : Option MemberPath

namespace Database

def resolve (db : Database) (k : MemberKind) (path : String) :
    Except QueryError (Resolved (Entity k)) :=
  (db.table k).resolve path

/-- A path without a namespace is relative to the root, and one of slashes alone is the root. -/
def resolveSystem (db : Database) (path : String) : Except QueryError SpaceSystem :=
  if path.toList.all (· == '/') then .ok db.root
  else
    let (ns, name) := (Name.split? path).getD ("", path)
    match db.systems.lookup? ns name with
    | some found => .ok found.entity
    | none => .error (.noSuch .spaceSystem)

def memberPathOf (path : String) : Except QueryError (Option MemberPath) :=
  match (MemberPath.splitSuffix path.toList).2 with
  | [] => .ok none
  | suffix =>
    match MemberPath.parse (String.ofList suffix) with
    | .ok p => .ok (some p)
    | .error cause => .error (.badMemberPath path cause)

/-- Resolves a path that may end in a member path. Whether the member exists is not looked at. -/
def resolveParameter (db : Database) (path : String) : Except QueryError ParameterRef :=
  match memberPathOf path with
  | .error e => .error e
  | .ok member =>
    match db.resolve .parameter (String.ofList (MemberPath.splitSuffix path.toList).1) with
    | .ok ⟨parameter, id⟩ =>
      let suffix := (member.map MemberPath.text).getD ""
      .ok { parameter, id := { id with name := id.name ++ suffix }, path := member }
    | .error (.noSuch _) => .error (.noParameter path)
    | .error e => .error e

end Database

/-- The member that the reference leads to exists in the declared type. -/
def ParameterRef.verify (r : ParameterRef) (db : Database) : Except QueryError Unit :=
  match r.path with
  | none => .ok ()
  | some path =>
    if (db.typeOf? r.parameter).any fun t => path.fits t.details.dataType then .ok ()
    else .error (.noMember r.parameter.qualifiedName path)

end MissionCatalog
